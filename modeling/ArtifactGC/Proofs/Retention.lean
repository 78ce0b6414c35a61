import ArtifactGC.Proofs.Groups
import ArtifactGC.Proofs.Recency
import ArtifactGC.Retention

/-!
# What policies do not keep

A retention rule drops an artifact of some artifacts by its rank among them, in time or among the
values of properties. The main statement is `collected_of_fewer`: when some of the artifacts are
gone, a policy collects nothing that it kept before.
-/

namespace ArtifactGC

/-- A rule does not keep an artifact among some artifacts. -/
def Retention.Drops : Retention → List Artifact → Artifact → Prop
  | .recency rule, artifacts, a =>
    0 < rule.limit ∧ rule.limit ≤ publishedAfter a.createTime artifacts
  | .groups rule, artifacts, a => ¬ Survives rule.groupings artifacts a

variable {policy : Policy} {artifacts fewer collected : List Artifact} {a : Artifact}

/-! ## The rule that a policy selects -/

/-- A policy that selects recency collects what is not among the newest. -/
theorem artifactsToCollect_of_recency {rule : RecencyRule}
    (h : policy.retention = .ok (.recency rule)) :
    artifactsToCollect policy artifacts = .ok (notRecent rule artifacts) := by
  rw [artifactsToCollect, h]
  rfl

/-- A policy that selects groups collects what is in no surviving group. -/
theorem artifactsToCollect_of_groups {rule : GroupRule}
    (h : policy.retention = .ok (.groups rule)) :
    artifactsToCollect policy artifacts = notInGroups rule artifacts := by
  rw [artifactsToCollect, h]
  rfl

/-- A policy that selects no rule collects nothing. -/
theorem artifactsToCollect_of_error {e : PolicyError} (h : policy.retention = .error e) :
    artifactsToCollect policy artifacts = .error e := by
  rw [artifactsToCollect, h]
  rfl

/-- A policy that can be evaluated selects a rule. -/
theorem exists_retention (h : artifactsToCollect policy artifacts = .ok collected) :
    ∃ rule, policy.retention = .ok rule := by
  cases hretention : policy.retention with
  | ok rule => exact ⟨rule, rfl⟩
  | error e =>
    rw [artifactsToCollect_of_error hretention] at h
    cases h

/-! ## What a rule collects -/

/-- A policy collects only artifacts that it was given. -/
theorem artifactsToCollect_sublist (h : artifactsToCollect policy artifacts = .ok collected) :
    collected.Sublist artifacts := by
  obtain ⟨rule, hrule⟩ := exists_retention h
  cases rule with
  | recency rule =>
    rw [artifactsToCollect_of_recency hrule, notRecent_eq_filter] at h
    exact Except.ok.inj h ▸ List.filter_sublist
  | groups rule =>
    rw [artifactsToCollect_of_groups hrule] at h
    obtain ⟨_, _, rfl⟩ := notInGroups_eq_filter h
    exact List.filter_sublist

/-- A policy that can be evaluated collects what its rule drops. -/
theorem mem_collected (hnodup : (artifacts.map (·.id)).Nodup) {rule : Retention}
    (hrule : policy.retention = .ok rule)
    (h : artifactsToCollect policy artifacts = .ok collected) :
    a ∈ collected ↔ a ∈ artifacts ∧ rule.Drops artifacts a := by
  cases rule with
  | recency rule =>
    rw [artifactsToCollect_of_recency hrule] at h
    rw [← Except.ok.inj h]
    exact mem_notRecent
  | groups rule =>
    rw [artifactsToCollect_of_groups hrule] at h
    exact mem_notInGroups hnodup h

/-! ## Fewer artifacts -/

/-- An artifact that a rule drops among fewer artifacts is dropped among all of them. -/
theorem Retention.Drops.mono {rule : Retention} (hsub : fewer.Sublist artifacts) (ha : a ∈ fewer)
    (h : rule.Drops fewer a) : rule.Drops artifacts a := by
  cases rule with
  | recency rule => exact ⟨h.1, Nat.le_trans h.2 hsub.countP_le⟩
  | groups rule => exact fun hsurvives => h (hsurvives.mono hsub.subset ha)

/-- Whatever has been removed from some artifacts, a policy collects of the rest only what it
collects of all. -/
theorem collected_of_fewer (hnodup : (artifacts.map (·.id)).Nodup) (hsub : fewer.Sublist artifacts)
    {collectedOfFewer : List Artifact} (h : artifactsToCollect policy artifacts = .ok collected)
    (hfewer : artifactsToCollect policy fewer = .ok collectedOfFewer) :
    collectedOfFewer ⊆ collected := by
  obtain ⟨rule, hrule⟩ := exists_retention h
  intro a ha
  obtain ⟨hin, hdrops⟩ :=
    (mem_collected (hnodup.sublist (hsub.map (·.id))) hrule hfewer).mp ha
  exact (mem_collected hnodup hrule h).mpr ⟨hsub.subset hin, hdrops.mono hsub hin⟩

end ArtifactGC

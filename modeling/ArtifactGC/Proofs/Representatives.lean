import ArtifactGC.Proofs.Remainder

/-!
# Every group keeps a representative

A policy that can be evaluated never collects all artifacts of an output key. The newest artifact is
always among the newest, and with grouping no group comes to nothing: a level that splits a group
keeps some bucket of it, and no bucket that is kept is empty. So each group that survives some
levels holds an artifact that survives the others too, and each value that a level keeps of a group
is the value of an artifact that is not collected. `every_group_is_represented` says so.
-/

namespace ArtifactGC

variable {policy : Policy} {rule : GroupRule} {artifacts : List Artifact}

/-- A policy that can be evaluated on some artifacts does not collect one of them. -/
def Policy.Spares (policy : Policy) (artifacts : List Artifact) (a : Artifact) : Prop :=
  a ∈ artifacts ∧ ∀ collected, artifactsToCollect policy artifacts = .ok collected → a ∉ collected

/-- The newest artifact is spared. -/
theorem exists_spared_of_recency {rule : RecencyRule}
    (hrule : policy.retention = .ok (.recency rule)) (hne : artifacts ≠ []) :
    ∃ a, policy.Spares artifacts a := by
  obtain ⟨a, ha, hnewest⟩ := exists_newest hne
  have hnone : publishedAfter a.createTime artifacts = 0 := by
    refine List.countP_eq_zero.mpr fun b hb => ?_
    simp [hnewest b hb]
  refine ⟨a, ha, fun collected hcollected hmem => ?_⟩
  rw [artifactsToCollect_of_recency hrule] at hcollected
  rw [← Except.ok.inj hcollected, mem_notRecent, hnone] at hmem
  omega

/-- An artifact that survives all levels is spared. -/
theorem spares_of_survives (hrule : policy.retention = .ok (.groups rule)) {a : Artifact}
    (ha : Survives rule.groupings artifacts a) : policy.Spares artifacts a := by
  refine ⟨ha.mem, fun collected hcollected => ?_⟩
  rw [artifactsToCollect_of_groups hrule] at hcollected
  exact notMem_of_survives hcollected ha

/-- An artifact is spared that survives further levels in a group that the levels before leave. -/
theorem spares_of_survives_group (hrule : policy.retention = .ok (.groups rule))
    {before after : List Grouping} (hsplit : rule.groupings = before ++ after)
    {groups : List (List Artifact)} (hbefore : survivingGroups before [artifacts] = .ok groups)
    {group : List Artifact} (hgroup : group ∈ groups) {a : Artifact} (ha : Survives after group a) :
    policy.Spares artifacts a := by
  obtain ⟨all, hall, hsurvives⟩ := (exists_survives_surviving hbefore).mp ⟨group, hgroup, ha⟩
  rw [List.mem_singleton] at hall
  rw [hall, ← hsplit] at hsurvives
  exact spares_of_survives hrule hsurvives

/-- Of the artifacts with a value that a level keeps one survives further levels too. -/
theorem exists_survivor_with_value (level : Grouping) (levels : List Grouping)
    {group : List Artifact} {kept : List PropertyValue}
    (hkept : level.keptValues (level.values group) = .ok kept) {v : PropertyValue} (hv : v ∈ kept) :
    ∃ a, a.property? level.propertyName = some v ∧ Survives (level :: levels) group a := by
  obtain ⟨hmem, hkeeps⟩ := (Grouping.mem_keptValues hkept).mp hv
  obtain ⟨b, hb, hvalue⟩ := Grouping.mem_values.mp hmem
  have hbucket : b ∈ bucket level.propertyName group (some v) :=
    List.mem_filter.mpr ⟨hb, decide_eq_true hvalue⟩
  obtain ⟨a, ha⟩ := exists_survivor levels (List.ne_nil_of_mem hbucket)
  exact ⟨a, property?_of_mem_bucket ha.mem, ha.cons hkeeps⟩

/-- Of artifacts that are there a policy spares one. With grouping it spares one of each group that
survives some levels, which survives the other levels in it, and one for each value that a level
keeps of such a group. -/
theorem every_group_is_represented (policy : Policy) (artifacts : List Artifact)
    (hne : artifacts ≠ []) :
    (∀ collected, artifactsToCollect policy artifacts = .ok collected →
      ∃ a ∈ artifacts, a ∉ collected) ∧
    ∀ rule before after groups, policy.retention = .ok (.groups rule) →
      rule.groupings = before ++ after → survivingGroups before [artifacts] = .ok groups →
      ∀ group ∈ groups,
        (∃ a ∈ group, Survives after group a ∧ policy.Spares artifacts a) ∧
        ∀ level levels kept, after = level :: levels →
          level.keptValues (level.values group) = .ok kept →
          ∀ v ∈ kept, ∃ a ∈ group, a.property? level.propertyName = some v ∧
            Survives after group a ∧ policy.Spares artifacts a := by
  constructor
  · intro collected hcollected
    obtain ⟨rule, hrule⟩ := exists_retention hcollected
    have hspared : ∃ a, policy.Spares artifacts a := by
      cases rule with
      | recency rule => exact exists_spared_of_recency hrule hne
      | groups rule =>
        obtain ⟨a, ha⟩ := exists_survivor rule.groupings hne
        exact ⟨a, spares_of_survives hrule ha⟩
    obtain ⟨a, ha, hspared⟩ := hspared
    exact ⟨a, ha, hspared collected hcollected⟩
  · intro rule before after groups hrule hsplit hbefore group hgroup
    have hsome : group ≠ [] :=
      ne_nil_of_mem_survivingGroups (by simpa using hne) hbefore group hgroup
    constructor
    · obtain ⟨a, ha⟩ := exists_survivor after hsome
      exact ⟨a, ha.mem, ha, spares_of_survives_group hrule hsplit hbefore hgroup ha⟩
    · rintro level levels kept rfl hkept v hv
      obtain ⟨a, hvalue, ha⟩ := exists_survivor_with_value level levels hkept hv
      exact ⟨a, ha.mem, hvalue, ha, spares_of_survives_group hrule hsplit hbefore hgroup ha⟩

/-- The largest version of a span is kept, and so is the only model without span and version, which
is a group of its own. -/
theorem plain_model_is_represented :
    let first := spanModel 1 (some 1) (some (.int 1))
    let second := spanModel 2 (some 1) (some (.int 2))
    let plain := spanModel 3 none none
    let models := [first, second, plain]
    let span : Grouping := ⟨"span", 0, .largest⟩
    let version : Grouping := ⟨"version", 1, .largest⟩
    let policy := Policy.ofGroupings [span, version]
    models ≠ [] ∧ artifactsToCollect policy models = .ok [first] ∧ (∃ a ∈ models, a ∉ [first]) ∧
      survivingGroups [span] [models] = .ok [[first, second], [plain]] ∧
      (∃ a ∈ [plain], Survives [version] [plain] a ∧ a ∉ [first]) ∧
      ∃ a ∈ [first, second], a.property? "version" = some (.int 2) ∧ a ∉ [first] := by
  intro first second plain models span version policy
  have hne : models ≠ [] := nofun
  have hcollected : artifactsToCollect policy models = .ok [first] := by decide +kernel
  have hgroups : survivingGroups [span] [models] = .ok [[first, second], [plain]] := by
    decide +kernel
  have hkept : version.keptValues (version.values [first, second]) = .ok [.int 2] := by
    decide +kernel
  obtain ⟨hall, hrepresented⟩ := every_group_is_represented policy models hne
  have hgroup := hrepresented ⟨[span, version]⟩ [span] [version] _ rfl rfl hgroups
  obtain ⟨⟨a, ha, hsurvives, hspared⟩, _⟩ := hgroup [plain] (by simp)
  obtain ⟨b, hb, hvalue, _, hspared'⟩ :=
    (hgroup [first, second] (by simp)).2 version [] _ rfl hkept _ List.mem_cons_self
  exact ⟨hne, hcollected, hall _ hcollected, hgroups,
    ⟨a, ha, hsurvives, hspared.2 _ hcollected⟩, b, hb, hvalue, hspared'.2 _ hcollected⟩

end ArtifactGC

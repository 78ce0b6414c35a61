import ArtifactGC.Proofs.Retention

/-!
# When a policy can be evaluated

A policy that selects a rule can be evaluated on some artifacts unless values of different kinds
meet. At a level of grouping the values meet that belong to artifacts surviving the levels before
it, whatever groups they are in, so that whether a policy can be evaluated is said artifact by
artifact as well. The main statements are `exists_collected`, which says when a policy can be
evaluated, and `mixedTypes_of_error`, which says that nothing else goes wrong.
-/

namespace ArtifactGC

/-- The values of a property that some artifacts have are of one kind. -/
def OneKind (property : String) (held : Artifact → Prop) : Prop :=
  ∀ a b v w, held a → held b → a.property? property = some v → b.property? property = some w →
    v.kind = w.kind

/-- Values of one kind stay of one kind when artifacts are gone. -/
theorem OneKind.mono {property : String} {held fewer : Artifact → Prop}
    (hsub : ∀ a, fewer a → held a) (h : OneKind property held) : OneKind property fewer := by
  intro a b v w ha hb
  exact h a b v w (hsub a ha) (hsub b hb)

/-! ## One level -/

/-- No two values clash when they are of one kind. -/
theorem kindClash?_eq_none {values : List PropertyValue} :
    kindClash? values = none ↔ ∀ v ∈ values, ∀ w ∈ values, v.kind = w.kind := by
  cases values with
  | nil => simp [kindClash?]
  | cons first rest =>
    simp only [kindClash?, Option.map_eq_none_iff, List.find?_eq_none, decide_eq_true_eq,
      not_not]
    constructor
    · intro h
      have hfirst : ∀ v ∈ first :: rest, v.kind = first.kind :=
        List.forall_mem_cons.mpr ⟨rfl, h⟩
      intro v hv w hw
      rw [hfirst v hv, hfirst w hw]
    · intro h v hv
      exact h v (List.mem_cons_of_mem _ hv) first List.mem_cons_self

namespace Grouping

variable {level : Grouping} {groups : List (List Artifact)}

/-- With a known order a level can tell which of some values it keeps. -/
theorem exists_keptValues (hknown : level.keepOrder ≠ .unrecognized)
    (values : List PropertyValue) : ∃ kept, level.keptValues values = .ok kept := by
  unfold keptValues
  split
  · exact ⟨_, rfl⟩
  · split
    · exact ⟨_, rfl⟩
    · exact ⟨_, rfl⟩
    · exact ⟨_, rfl⟩
    · contradiction

/-- With a known order every group can be split. -/
theorem exists_subgroups (hknown : level.keepOrder ≠ .unrecognized) (group : List Artifact) :
    ∃ subs, level.subgroups group = .ok subs := by
  obtain ⟨kept, hkept⟩ := exists_keptValues hknown (ascending (valuesOf level.propertyName group))
  rw [subgroups, hkept]
  exact ⟨_, rfl⟩

/-- The values that meet at a level are those of the artifacts in all its groups. -/
theorem kindClash?_groups :
    kindClash? (valuesOf level.propertyName groups.flatten) = none ↔
      OneKind level.propertyName fun a => ∃ group ∈ groups, a ∈ group := by
  simp only [kindClash?_eq_none, valuesOf, List.mem_filterMap, List.mem_flatten, OneKind]
  constructor
  · intro h a b v w ha hb hv hw
    exact h v ⟨a, ha, hv⟩ w ⟨b, hb, hw⟩
  · rintro h v ⟨a, ha, hv⟩ w ⟨b, hb, hw⟩
    exact h a b v w ha hb hv hw

/-- A level with a known order either splits all groups, whose values are then of one kind, or
finds that they are not. -/
theorem refine_cases (hknown : level.keepOrder ≠ .unrecognized) (groups : List (List Artifact)) :
    (OneKind level.propertyName (fun a => ∃ group ∈ groups, a ∈ group) ∧
      ∃ refined, level.refine groups = .ok refined) ∨
    (¬ OneKind level.propertyName (fun a => ∃ group ∈ groups, a ∈ group) ∧
      ∃ expected found,
        level.refine groups = .error (.mixedTypes level.propertyName expected found)) := by
  rw [← kindClash?_groups]
  unfold refine
  cases hclash : kindClash? (valuesOf level.propertyName groups.flatten) with
  | some clash => exact .inr ⟨nofun, clash.1, clash.2, rfl⟩
  | none =>
    obtain ⟨lists, hlists⟩ := exists_mapM_eq_ok.mpr fun group (_ : group ∈ groups) =>
      exists_subgroups hknown group
    refine .inl ⟨rfl, lists.flatten, ?_⟩
    simp [hlists, bind, Except.bind, pure, Except.pure]

end Grouping

/-! ## All levels -/

section Levels

variable {levels : List Grouping} {groups : List (List Artifact)}

/-- At each of some levels the values of the artifacts that survive the levels before it, in one
of some groups, are of one kind. -/
def OneKindPerLevel (levels : List Grouping) (groups : List (List Artifact)) : Prop :=
  ∀ before level after, levels = before ++ level :: after →
    OneKind level.propertyName fun a => ∃ group ∈ groups, Survives before group a

/-- The first level meets the values of all artifacts, the others those of what it leaves. -/
theorem oneKindPerLevel_cons {level : Grouping} {refined : List (List Artifact)}
    (hrefine : level.refine groups = .ok refined) :
    OneKindPerLevel (level :: levels) groups ↔
      OneKind level.propertyName (fun a => ∃ group ∈ groups, a ∈ group) ∧
        OneKindPerLevel levels refined := by
  have hheld (before : List Grouping) : (fun a => ∃ g ∈ refined, Survives before g a) =
      fun a => ∃ group ∈ groups, Survives (level :: before) group a :=
    funext fun _ => propext (exists_survives_refined hrefine)
  unfold OneKindPerLevel
  simp only [hheld]
  constructor
  · intro h
    refine ⟨h [] level levels rfl, fun before next after hlevels => ?_⟩
    exact h (level :: before) next after (by rw [hlevels, List.cons_append])
  · rintro ⟨hfirst, hrest⟩ before next after hlevels
    cases before with
    | nil =>
      obtain ⟨rfl, rfl⟩ := List.cons.inj hlevels
      exact hfirst
    | cons head before =>
      obtain ⟨rfl, htail⟩ := List.cons.inj hlevels
      exact hrest before next after htail

/-- Levels with known orders can be evaluated when the values that meet at each of them are of one
kind, and otherwise some of them are reported not to be. -/
theorem survivingGroups_cases (hknown : ∀ level ∈ levels, level.keepOrder ≠ .unrecognized)
    (groups : List (List Artifact)) :
    (OneKindPerLevel levels groups ∧ ∃ surviving, survivingGroups levels groups = .ok surviving) ∨
    (¬ OneKindPerLevel levels groups ∧ ∃ property expected found,
      survivingGroups levels groups = .error (.mixedTypes property expected found)) := by
  induction levels generalizing groups with
  | nil =>
    refine .inl ⟨fun before level after hlevels => ?_, groups, rfl⟩
    simp at hlevels
  | cons level levels ih =>
    obtain ⟨hfirst, hrest⟩ := List.forall_mem_cons.mp hknown
    rcases level.refine_cases hfirst groups with ⟨hone, refined, hrefine⟩ | ⟨hmixed, k, l, hrefine⟩
    · rw [oneKindPerLevel_cons hrefine, survivingGroups_cons_of_ok hrefine]
      rcases ih hrest refined with ⟨hlevels, hok⟩ | ⟨hlevels, herror⟩
      · exact .inl ⟨⟨hone, hlevels⟩, hok⟩
      · exact .inr ⟨fun h => hlevels h.2, herror⟩
    · refine .inr ⟨fun h => hmixed (h [] level levels rfl), level.propertyName, k, l, ?_⟩
      exact survivingGroups_cons_of_error hrefine

end Levels

/-! ## Policies -/

/-- A rule can be evaluated on some artifacts: where it groups them, the values that meet at each
level are of one kind. -/
def Retention.Evaluates : Retention → List Artifact → Prop
  | .recency _, _ => True
  | .groups rule, artifacts => OneKindPerLevel rule.groupings [artifacts]

/-- A rule can be evaluated when at each level the artifacts that survive the levels before it have
values of one kind. -/
theorem Retention.evaluates_groups {rule : GroupRule} {artifacts : List Artifact} :
    (Retention.groups rule).Evaluates artifacts ↔
      ∀ before level after, rule.groupings = before ++ level :: after →
        OneKind level.propertyName (Survives before artifacts) := by
  simp [Retention.Evaluates, OneKindPerLevel]

/-- A policy selects recency when that is all it sets. -/
theorem retention_eq_recency {policy : Policy} {rule : RecencyRule} :
    policy.retention = .ok (.recency rule) ↔
      policy.recency = some rule ∧ policy.groups = none := by
  obtain ⟨recency, groups, usage⟩ := policy
  unfold Policy.retention
  cases recency with
  | none =>
    cases groups with
    | none => simp
    | some rule' => cases h : rule'.groupings.find? (·.keepOrder = .unrecognized) <;> simp [h]
  | some rule' => cases groups <;> simp

/-- A policy selects groups when they are all it sets and the orders of all levels are known. -/
theorem retention_eq_groups {policy : Policy} {rule : GroupRule} :
    policy.retention = .ok (.groups rule) ↔
      policy.recency = none ∧ policy.groups = some rule ∧
        ∀ level ∈ rule.groupings, level.keepOrder ≠ .unrecognized := by
  obtain ⟨recency, groups, usage⟩ := policy
  unfold Policy.retention
  cases recency with
  | some rule' => cases groups <;> simp
  | none =>
    cases groups with
    | none => simp
    | some rule' =>
      have hknown : rule'.groupings.find? (·.keepOrder = .unrecognized) = none ↔
          ∀ level ∈ rule'.groupings, level.keepOrder ≠ .unrecognized := by
        simp [List.find?_eq_none]
      dsimp only
      cases hfind : rule'.groupings.find? (·.keepOrder = .unrecognized) with
      | none =>
        constructor
        · rintro ⟨⟩
          exact ⟨rfl, rfl, hknown.mp hfind⟩
        · rintro ⟨-, ⟨⟩, -⟩
          rfl
      | some level =>
        constructor
        · nofun
        · rintro ⟨-, ⟨⟩, hall⟩
          rw [hknown.mpr hall] at hfind
          cases hfind

/-- A selected rule is evaluated when it can be, and otherwise values of different kinds are
reported. -/
theorem artifactsToCollect_cases {policy : Policy} {rule : Retention}
    (h : policy.retention = .ok rule) (artifacts : List Artifact) :
    (rule.Evaluates artifacts ∧ ∃ collected, artifactsToCollect policy artifacts = .ok collected) ∨
    (¬ rule.Evaluates artifacts ∧ ∃ property expected found,
      artifactsToCollect policy artifacts = .error (.mixedTypes property expected found)) := by
  cases rule with
  | recency rule => exact .inl ⟨trivial, _, artifactsToCollect_of_recency h⟩
  | groups rule =>
    rw [artifactsToCollect_of_groups h, notInGroups]
    rcases survivingGroups_cases (retention_eq_groups.mp h).2.2 [artifacts] with
      ⟨hone, surviving, hsurviving⟩ | ⟨hmixed, property, k, l, hsurviving⟩
    · rw [hsurviving]
      exact .inl ⟨hone, _, rfl⟩
    · rw [hsurviving]
      exact .inr ⟨hmixed, property, k, l, rfl⟩

/-- A policy can be evaluated exactly when it selects a rule that can be. -/
theorem exists_collected {policy : Policy} {artifacts : List Artifact} :
    (∃ collected, artifactsToCollect policy artifacts = .ok collected) ↔
      ∃ rule, policy.retention = .ok rule ∧ rule.Evaluates artifacts := by
  constructor
  · rintro ⟨collected, hcollected⟩
    obtain ⟨rule, hrule⟩ := exists_retention hcollected
    rcases artifactsToCollect_cases hrule artifacts with ⟨hevaluates, _⟩ | ⟨_, _, _, _, herror⟩
    · exact ⟨rule, hrule, hevaluates⟩
    · rw [hcollected] at herror
      cases herror
  · rintro ⟨rule, hrule, hevaluates⟩
    rcases artifactsToCollect_cases hrule artifacts with ⟨_, hcollected⟩ | ⟨hnot, _⟩
    · exact hcollected
    · exact absurd hevaluates hnot

/-- A selected rule that cannot be evaluated has met values of different kinds. -/
theorem mixedTypes_of_error {policy : Policy} {rule : Retention} {artifacts : List Artifact}
    {e : PolicyError} (hrule : policy.retention = .ok rule)
    (h : artifactsToCollect policy artifacts = .error e) :
    ∃ property expected found, e = .mixedTypes property expected found := by
  rcases artifactsToCollect_cases hrule artifacts with ⟨_, _, hok⟩ | ⟨_, property, k, l, herror⟩
  · rw [h] at hok
    cases hok
  · rw [h] at herror
    exact ⟨property, k, l, Except.error.inj herror⟩

end ArtifactGC

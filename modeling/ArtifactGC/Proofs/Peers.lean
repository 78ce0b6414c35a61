import ArtifactGC.Proofs.Retention
import ArtifactGC.Proofs.Services
import Mathlib.Data.Finset.Card
import Mathlib.Data.Finset.Filter

/-!
# Retention by property values, level by level

An artifact stands at every level among its peers, the artifacts that have the same values of the
properties of the levels before and that passed these levels. It passes the level when few enough
values of its peers are better than its own. `collected_are_not_admitted` says that this is what
splitting groups into buckets and selecting buckets comes to: collected are exactly the artifacts
that some level does not admit among their peers.
-/

namespace ArtifactGC

/-! ## One level -/

namespace Grouping

/-- The different values of the property of a level in a group. -/
def valueSet (level : Grouping) (group : List Artifact) : Finset PropertyValue :=
  (valuesOf level.propertyName group).toFinset

/-- A level admits an artifact of a group. It admits all when it has no positive limit. Otherwise
fewer values of the group than the limit are better than the one of the artifact, and for an
artifact without a value fewer values than the limit are there at all. -/
def Admits (level : Grouping) (group : List Artifact) (a : Artifact) : Prop :=
  level.keepNum.toInt ≤ 0 ∨
    match a.property? level.propertyName with
    | some v => (((level.valueSet group).filter (level.prefers · v)).card : Int) <
        level.keepNum.toInt
    | none => ((level.valueSet group).card : Int) < level.keepNum.toInt

instance (level : Grouping) (group : List Artifact) (a : Artifact) :
    Decidable (level.Admits group a) := by
  unfold Admits
  cases a.property? level.propertyName <;> exact inferInstance

variable {level : Grouping} {group : List Artifact} {a : Artifact}

/-- The ascending values of a group are its different values. -/
private theorem toFinset_values : (level.values group).toFinset = level.valueSet group := by
  ext v
  simp [valueSet, values]

private theorem card_valueSet : (level.valueSet group).card = (level.values group).length := by
  rw [← toFinset_values, List.toFinset_card_of_nodup nodup_values]

private theorem card_preferred (v : PropertyValue) :
    ((level.valueSet group).filter (level.prefers · v)).card = level.rank group v := by
  rw [← toFinset_values, ← List.toFinset_filter,
    List.toFinset_card_of_nodup (nodup_values.filter _), rank, List.countP_eq_length_filter]

/-- A level admits exactly the artifacts whose bucket it keeps. -/
theorem admits_iff_keeps :
    level.Admits group a ↔ level.Keeps group (a.property? level.propertyName) := by
  have hnone : level.keepNum.toInt ≤ 0 ↔ level.limit = 0 := by
    unfold limit
    omega
  have hlt (n : Nat) : (n : Int) < level.keepNum.toInt ↔ n < level.limit := by
    unfold limit
    omega
  unfold Admits
  cases a.property? level.propertyName with
  | some v =>
    simp only [Keeps]
    rw [hnone, hlt, card_preferred]
  | none =>
    simp only [Keeps]
    rw [hnone, hlt, card_valueSet]

end Grouping

/-! ## The levels before -/

/-- The values that an artifact has of the properties of some levels, or none. -/
def profile (levels : List Grouping) (a : Artifact) : List (Option PropertyValue) :=
  levels.map fun level => a.property? level.propertyName

@[simp] theorem profile_cons (level : Grouping) (levels : List Grouping) (a : Artifact) :
    profile (level :: levels) a = a.property? level.propertyName :: profile levels a := rfl

/-- The artifacts of a group that agree with one on the properties of some levels. -/
def agreeing (levels : List Grouping) (group : List Artifact) (a : Artifact) : List Artifact :=
  group.filter fun b => profile levels b = profile levels a

/-- Whether an artifact passes a number of levels: each level admits it among the artifacts that
agree with it on the properties of the levels before and that passed these. -/
def passes (levels : List Grouping) (artifacts : List Artifact) : Nat → Artifact → Bool
  | 0, _ => true
  | n + 1, a =>
    passes levels artifacts n a && levels[n]?.all fun level =>
      level.Admits ((agreeing (levels.take n) artifacts a).filter (passes levels artifacts n)) a

/-- The peers of an artifact at a level: the artifacts that agree with it on the properties of the
levels before and that passed these. -/
def peers (levels : List Grouping) (artifacts : List Artifact) (n : Nat) (a : Artifact) :
    List Artifact :=
  (agreeing (levels.take n) artifacts a).filter (passes levels artifacts n)

/-- Every level admits an artifact among its peers. -/
def Admitted (levels : List Grouping) (artifacts : List Artifact) (a : Artifact) : Prop :=
  ∀ n (h : n < levels.length), levels[n].Admits (peers levels artifacts n a) a

instance (levels : List Grouping) (artifacts : List Artifact) (a : Artifact) :
    Decidable (Admitted levels artifacts a) :=
  inferInstanceAs (Decidable (∀ n (h : n < levels.length),
    levels[n].Admits (peers levels artifacts n a) a))

variable {levels before after : List Grouping} {group artifacts : List Artifact} {a b : Artifact}

/-- One more level is passed when it admits the artifact among its peers. -/
theorem passes_succ {n : Nat} {level : Grouping} (h : levels[n]? = some level) :
    passes levels artifacts (n + 1) a = true ↔
      passes levels artifacts n a = true ∧ level.Admits (peers levels artifacts n a) a := by
  rw [passes, h]
  simp [peers]

/-- All levels are passed by the artifacts that every level admits among their peers. -/
theorem passes_iff {n : Nat} (hn : n ≤ levels.length) :
    passes levels artifacts n a = true ↔
      ∀ m (h : m < levels.length), m < n → levels[m].Admits (peers levels artifacts m a) a := by
  induction n with
  | zero => simp [passes]
  | succ n ih =>
    have hlt : n < levels.length := hn
    rw [passes_succ (List.getElem?_eq_getElem hlt), ih (Nat.le_of_lt hlt)]
    constructor
    · rintro ⟨hbefore, hlast⟩ m hm hmn
      rcases Nat.lt_succ_iff_lt_or_eq.mp hmn with hmn | rfl
      · exact hbefore m hm hmn
      · exact hlast
    · intro h
      exact ⟨fun m hm hmn => h m hm (Nat.lt_succ_of_lt hmn), h n hlt (Nat.lt_succ_self n)⟩

/-- Who agrees on the properties of a level and of further ones is in the same bucket. -/
theorem agreeing_cons {level : Grouping} :
    agreeing (level :: levels) group a = agreeing levels
      (bucket level.propertyName group (a.property? level.propertyName)) a := by
  unfold agreeing bucket
  rw [List.filter_filter]
  refine List.filter_congr fun b _ => ?_
  rw [← Bool.decide_and, decide_eq_decide, profile_cons, profile_cons, List.cons_eq_cons]
  exact and_comm

/-- An artifact survives some levels and further ones when it survives the further ones among the
artifacts that agree with it on the properties of the former. -/
theorem survives_append :
    Survives (before ++ after) group a ↔
      Survives before group a ∧ Survives after (agreeing before group a) a := by
  induction before generalizing group with
  | nil =>
    have hall : agreeing [] group a = group := by simp [agreeing, profile]
    rw [List.nil_append, hall]
    exact ⟨fun h => ⟨h.mem, h⟩, And.right⟩
  | cons level before ih =>
    rw [List.cons_append, Survives, Survives, ih, agreeing_cons, and_assoc]

/-- Artifacts that agree on the properties of some levels survive them together. -/
theorem survives_congr (ha : a ∈ group) (hb : b ∈ group) (h : profile levels b = profile levels a) :
    Survives levels group b ↔ Survives levels group a := by
  induction levels generalizing group with
  | nil => exact iff_of_true hb ha
  | cons level levels ih =>
    rw [profile_cons, profile_cons] at h
    obtain ⟨hvalue, hrest⟩ := List.cons.inj h
    rw [Survives, Survives, hvalue]
    refine and_congr_right fun _ => ih ?_ ?_ hrest
    · exact List.mem_filter.mpr ⟨ha, decide_eq_true rfl⟩
    · exact List.mem_filter.mpr ⟨hb, decide_eq_true hvalue⟩

/-- Passing levels is surviving them. -/
theorem passes_iff_survives {n : Nat} (hn : n ≤ levels.length) (ha : a ∈ artifacts) :
    passes levels artifacts n a = true ↔ Survives (levels.take n) artifacts a := by
  induction n generalizing a with
  | zero => exact iff_of_true rfl ha
  | succ n ih =>
    have hlt : n < levels.length := hn
    have hbefore := fun b (hb : b ∈ artifacts) => ih (a := b) (Nat.le_of_lt hlt) hb
    rw [passes_succ (List.getElem?_eq_getElem hlt), List.take_succ_eq_append_getElem hlt,
      survives_append, hbefore a ha]
    refine and_congr_right fun hsurvives => ?_
    -- who agrees with an artifact that survives has survived with it
    have hpeers : peers levels artifacts n a = agreeing (levels.take n) artifacts a := by
      refine List.filter_eq_self.mpr fun b hb => ?_
      obtain ⟨hmem, hsame⟩ := List.mem_filter.mp hb
      rw [hbefore b hmem, survives_congr ha hmem (of_decide_eq_true hsame)]
      exact hsurvives
    have hself : a ∈ bucket levels[n].propertyName (agreeing (levels.take n) artifacts a)
        (a.property? levels[n].propertyName) := by
      simp [bucket, agreeing, ha]
    rw [hpeers, Grouping.admits_iff_keeps]
    exact (and_iff_left hself).symm

/-- Surviving all levels is being admitted at each of them. -/
theorem admitted_iff_survives (ha : a ∈ artifacts) :
    Admitted levels artifacts a ↔ Survives levels artifacts a := by
  have hall := passes_iff_survives (Nat.le_refl levels.length) ha
  rw [List.take_length, passes_iff (Nat.le_refl _)] at hall
  rw [← hall]
  exact ⟨fun h n hn _ => h n hn, fun h n hn => h n hn hn⟩

/-! ## What groups of property values collect -/

/-- Collected, in their order, are exactly the artifacts that some level does not admit among their
peers, the artifacts that agree with them on the properties of the levels before and that passed
these. A policy that selects the groups collects the same. A typed property hides a custom one of
the same name. -/
theorem collected_are_not_admitted (rule : GroupRule) (artifacts collected : List Artifact)
    (hnodup : (artifacts.map (·.id)).Nodup) (h : notInGroups rule artifacts = .ok collected) :
    collected = artifacts.filter (fun a => ¬ Admitted rule.groupings artifacts a) ∧
    (∀ policy, policy.retention = .ok (.groups rule) →
      artifactsToCollect policy artifacts = .ok collected) ∧
    ∀ (a : Artifact) (name : String),
      (∀ v, a.properties.find? name = some v → a.property? name = some v) ∧
      (a.properties.find? name = none → a.property? name = a.customProperties.find? name) := by
  refine ⟨?_, fun policy hpolicy => ?_, fun a name => ⟨fun v hv => ?_, fun hnone => ?_⟩⟩
  · obtain ⟨kept, _, hcollected⟩ := notInGroups_eq_filter h
    rw [hcollected]
    refine List.filter_congr fun a ha => decide_eq_decide.mpr ?_
    rw [admitted_iff_survives ha]
    have hmem := mem_notInGroups (a := a) hnodup h
    rw [hcollected, List.mem_filter, decide_eq_true_eq] at hmem
    exact (and_congr_right_iff.mp hmem) ha
  · rw [artifactsToCollect_of_groups hpolicy, h]
  · rw [Artifact.property?, hv]
    rfl
  · rw [Artifact.property?, hnone]
    rfl

/-- Of five models those without a span are collected, as two spans are there, and in each span
those that do not have its largest version, or have none. -/
theorem smaller_versions_of_spans_are_collected :
    let first := spanModel 1 (some 1) (some (.int 1))
    let second := spanModel 2 (some 1) (some (.int 2))
    let third := (spanModel 3 (some 2) none).withCustomProperty "version" (.int 1)
    let fourth := spanModel 4 (some 2) none
    let fifth := spanModel 5 none (some (.int 9))
    let models := [first, second, third, fourth, fifth]
    let rule : GroupRule := ⟨[⟨"span", 2, .smallest⟩, ⟨"version", 1, .largest⟩]⟩
    (models.map (·.id)).Nodup ∧ notInGroups rule models = .ok [first, fourth, fifth] ∧
      models.filter (fun a => ¬ Admitted rule.groupings models a) = [first, fourth, fifth] := by
  intro first second third fourth fifth models rule
  have hnodup : (models.map (·.id)).Nodup := by decide +kernel
  have hcollected : notInGroups rule models = .ok [first, fourth, fifth] := by decide +kernel
  exact ⟨hnodup, hcollected,
    (collected_are_not_admitted rule models _ hnodup hcollected).1.symm⟩

end ArtifactGC

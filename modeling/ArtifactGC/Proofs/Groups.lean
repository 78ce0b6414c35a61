import ArtifactGC.Proofs.Collections
import ArtifactGC.Proofs.PropertyValue
import ArtifactGC.Retention.Groups
import Mathlib.Data.List.Nodup

/-!
# Retention by property values, artifact by artifact

Levels of grouping are evaluated on all groups at once. What they decide can be said for one
artifact at a time: it survives a level when its value is among the ones that the level keeps of
the group that it is in, and it is then in the bucket of that value. `mem_notInGroups` says so,
and `Survives.mono` that an artifact that survives among some artifacts survives among fewer.
-/

namespace ArtifactGC

section Ranks

variable {α : Type} {before : α → α → Bool}

/-- In a list that is in order, the first elements are those with few elements before them. -/
theorem mem_take_iff_countP {xs : List α} (horder : xs.Pairwise fun x y => before x y = true)
    (hirrefl : ∀ x, before x x = false) (hasymm : ∀ x y, before x y = true → before y x = false)
    (n : Nat) {x : α} :
    x ∈ xs.take n ↔ x ∈ xs ∧ xs.countP (before · x) < n := by
  induction xs generalizing n with
  | nil => simp
  | cons y ys ih =>
    obtain ⟨hy, hys⟩ := List.pairwise_cons.mp horder
    cases n with
    | zero => simp
    | succ n =>
      rw [List.take_succ_cons, List.mem_cons, ih hys, List.mem_cons]
      constructor
      · rintro (rfl | ⟨hmem, hcount⟩)
        · have hnone : ys.countP (before · x) = 0 := by
            rw [List.countP_eq_zero]
            intro z hz
            simp [hasymm x z (hy z hz)]
          rw [List.countP_cons_of_neg (by simp [hirrefl]), hnone]
          exact ⟨.inl rfl, Nat.succ_pos n⟩
        · rw [List.countP_cons_of_pos (p := (before · x)) (hy x hmem)]
          exact ⟨.inr hmem, Nat.succ_lt_succ hcount⟩
      · rintro ⟨rfl | hmem, hcount⟩
        · exact .inl rfl
        · rw [List.countP_cons_of_pos (p := (before · x)) (hy x hmem)] at hcount
          exact .inr ⟨hmem, Nat.lt_of_succ_lt_succ hcount⟩

end Ranks

/-! ## One level -/

namespace Grouping

/-- The different values of the property of a level in a group, ascending. -/
def values (level : Grouping) (group : List Artifact) : List PropertyValue :=
  ascending (valuesOf level.propertyName group)

/-- Whether a level keeps one value before another one. -/
def prefers (level : Grouping) (v w : PropertyValue) : Bool :=
  match level.keepOrder with
  | .smallest => compare v w = .lt
  | _ => compare v w = .gt

/-- How many values of a group a level keeps before a given one. -/
def rank (level : Grouping) (group : List Artifact) (v : PropertyValue) : Nat :=
  (level.values group).countP (level.prefers · v)

/-- A level keeps the artifacts of a group that have a given value, or none. -/
def Keeps (level : Grouping) (group : List Artifact) : Option PropertyValue → Prop
  | some v => level.limit = 0 ∨ level.rank group v < level.limit
  | none => level.limit = 0 ∨ (level.values group).length < level.limit

variable {level : Grouping} {group fewer : List Artifact} {a : Artifact}

/-- The values of a group are those of its artifacts. -/
theorem mem_values {v : PropertyValue} :
    v ∈ level.values group ↔ ∃ a ∈ group, a.property? level.propertyName = some v := by
  rw [values, mem_ascending, valuesOf, List.mem_filterMap]

/-- No value of a group is listed twice. -/
theorem nodup_values : (level.values group).Nodup :=
  nodup_of_ascends id (pairwise_ascending _)

/-- A level prefers the smaller values or the larger ones. -/
private theorem prefers_eq (level : Grouping) :
    (∀ v w, level.prefers v w = decide (compare v w = .lt)) ∨
      ∀ v w, level.prefers v w = decide (compare v w = .gt) := by
  unfold prefers
  split
  · exact .inl fun _ _ => rfl
  · exact .inr fun _ _ => rfl

private theorem prefers_irrefl (v : PropertyValue) : level.prefers v v = false := by
  rcases level.prefers_eq with horder | horder <;> simp [horder]

private theorem prefers_asymm (v w : PropertyValue) (h : level.prefers v w = true) :
    level.prefers w v = false := by
  rcases level.prefers_eq with horder | horder <;> rw [horder, decide_eq_true_eq] at h
  · simp [horder, Std.OrientedCmp.gt_of_lt h]
  · simp [horder, Std.OrientedCmp.lt_of_gt h]

/-- What is preferred to a value is preferred to every value that is not preferred to that one. -/
private theorem prefers_of_not_prefers {u v w : PropertyValue} (h : level.prefers u v = true)
    (hnot : ¬ level.prefers w v = true) : level.prefers u w = true := by
  rcases level.prefers_eq with horder | horder <;>
    rw [horder, decide_eq_true_eq] at h hnot ⊢
  · have hle : (compare v w).isLE = true := by
      refine Std.OrientedCmp.isLE_of_isGE ?_
      revert hnot
      cases compare w v <;> simp
    exact Std.TransCmp.lt_of_lt_of_isLE h hle
  · have hle : (compare w v).isLE = true := by
      revert hnot
      cases compare w v <;> simp
    exact Std.OrientedCmp.gt_of_lt
      (Std.TransCmp.lt_of_isLE_of_lt hle (Std.OrientedCmp.lt_of_gt h))

/-- Of two values the one with fewer values before it is preferred. -/
theorem prefers_of_rank_lt {v w : PropertyValue}
    (h : level.rank group w < level.rank group v) : level.prefers w v = true := by
  by_contra hnot
  refine absurd h (Nat.not_lt.mpr (List.countP_mono_left fun u _ hu => ?_))
  exact prefers_of_not_prefers hu hnot

/-- The values of a group in the order in which a level keeps them. -/
def ranked (level : Grouping) (group : List Artifact) : List PropertyValue :=
  match level.keepOrder with
  | .smallest => level.values group
  | _ => (level.values group).reverse

/-- All values of a group are ranked. -/
theorem perm_ranked : (level.ranked group).Perm (level.values group) := by
  unfold ranked
  split
  · exact .refl _
  · exact List.reverse_perm _

private theorem pairwise_ranked :
    (level.ranked group).Pairwise fun v w => level.prefers v w = true := by
  have hascending : (level.values group).Pairwise (compare · · = .lt) := pairwise_ascending _
  unfold ranked prefers
  split
  · exact hascending.imp fun hlt => decide_eq_true hlt
  · refine List.pairwise_reverse.mpr (hascending.imp fun hlt => decide_eq_true ?_)
    exact Std.OrientedCmp.gt_of_lt hlt

/-- Ranked first are the values that few others are preferred to. -/
theorem mem_take_ranked {n : Nat} {v : PropertyValue} :
    v ∈ (level.ranked group).take n ↔ v ∈ level.values group ∧ level.rank group v < n := by
  rw [mem_take_iff_countP pairwise_ranked prefers_irrefl prefers_asymm, perm_ranked.mem_iff,
    perm_ranked.countP_eq]
  rfl

/-- A level keeps all values, or as many as it has to in its order. -/
theorem keptValues_eq {kept : List PropertyValue}
    (h : level.keptValues (level.values group) = .ok kept) :
    kept = if level.limit = 0 then level.values group
      else (level.ranked group).take level.limit := by
  unfold keptValues at h
  split at h
  · rename_i hall
    rw [if_pos hall]
    exact (Except.ok.inj h).symm
  · rename_i hlimit
    rw [if_neg hlimit, ranked]
    split at h
    · rename_i horder
      rw [horder]
      exact (Except.ok.inj h).symm
    · rename_i horder
      rw [horder]
      exact (Except.ok.inj h).symm
    · rename_i horder
      rw [horder]
      exact (Except.ok.inj h).symm
    · cases h

/-- Kept are the values that few others are preferred to. -/
theorem mem_keptValues {kept : List PropertyValue}
    (h : level.keptValues (level.values group) = .ok kept) {v : PropertyValue} :
    v ∈ kept ↔ v ∈ level.values group ∧ level.Keeps group (some v) := by
  rw [keptValues_eq h]
  by_cases hlimit : level.limit = 0
  · simp [hlimit, Keeps]
  · rw [if_neg hlimit, mem_take_ranked]
    simp only [Keeps, hlimit, false_or]

/-- Artifacts without a value are kept when fewer values are there than a level keeps. -/
theorem keepsMissing_iff {kept : List PropertyValue}
    (h : level.keptValues (level.values group) = .ok kept) :
    level.keepsMissing kept.length = true ↔ level.Keeps group none := by
  rw [keptValues_eq h]
  by_cases hlimit : level.limit = 0
  · simp [hlimit, Keeps, keepsMissing]
  · rw [if_neg hlimit, List.length_take, perm_ranked.length_eq]
    simp only [keepsMissing, Keeps, hlimit, decide_false, Bool.false_or, decide_eq_true_eq,
      false_or]
    omega

/-- The subgroups of a group are the buckets of the values that its level keeps and, where the level
keeps them, the artifacts without a value. -/
theorem subgroups_eq {subs : List (List Artifact)} (h : level.subgroups group = .ok subs) :
    ∃ kept, level.keptValues (level.values group) = .ok kept ∧
      subs = kept.map (fun v => bucket level.propertyName group (some v)) ++
        if level.keepsMissing kept.length ∧ bucket level.propertyName group none ≠ [] then
          [bucket level.propertyName group none] else [] := by
  unfold subgroups at h
  rw [← values] at h
  cases hkept : level.keptValues (level.values group) with
  | error e => simp [hkept, bind, Except.bind] at h
  | ok kept =>
    simp only [hkept, bind, Except.bind, pure, Except.pure, Except.ok.injEq] at h
    exact ⟨kept, rfl, h.symm⟩

/-- The bucket of an artifact is a subgroup when its level keeps it, and no other subgroup holds
the artifact. -/
theorem mem_subgroups {subs : List (List Artifact)} (h : level.subgroups group = .ok subs)
    {g : List Artifact} (ha : a ∈ g) :
    g ∈ subs ↔ a ∈ group ∧ level.Keeps group (a.property? level.propertyName) ∧
      g = bucket level.propertyName group (a.property? level.propertyName) := by
  obtain ⟨kept, hkept, hsubs⟩ := subgroups_eq h
  rw [hsubs, List.mem_append, List.mem_map]
  constructor
  · rintro (⟨v, hv, rfl⟩ | hmissing)
    · obtain ⟨hmem, hvalue⟩ := List.mem_filter.mp ha
      rw [of_decide_eq_true hvalue]
      exact ⟨hmem, ((mem_keptValues hkept).mp hv).2, rfl⟩
    · split at hmissing
      · rename_i hkeeps
        obtain rfl := List.mem_singleton.mp hmissing
        obtain ⟨hmem, hvalue⟩ := List.mem_filter.mp ha
        rw [of_decide_eq_true hvalue]
        exact ⟨hmem, (keepsMissing_iff hkept).mp hkeeps.1, rfl⟩
      · cases hmissing
  · rintro ⟨hmem, hkeeps, rfl⟩
    cases hvalue : a.property? level.propertyName with
    | some v =>
      rw [hvalue] at hkeeps
      exact .inl ⟨v, (mem_keptValues hkept).mpr ⟨mem_values.mpr ⟨a, hmem, hvalue⟩, hkeeps⟩, rfl⟩
    | none =>
      rw [hvalue] at hkeeps ha
      rw [if_pos ⟨(keepsMissing_iff hkept).mpr hkeeps, List.ne_nil_of_mem ha⟩]
      exact .inr List.mem_cons_self

/-- No subgroup is empty. -/
theorem ne_nil_of_mem_subgroups {subs : List (List Artifact)} (h : level.subgroups group = .ok subs)
    {g : List Artifact} (hg : g ∈ subs) : g ≠ [] := by
  obtain ⟨kept, hkept, hsubs⟩ := subgroups_eq h
  rw [hsubs, List.mem_append, List.mem_map] at hg
  rcases hg with ⟨v, hv, rfl⟩ | hmissing
  · obtain ⟨a, ha, hvalue⟩ := mem_values.mp ((mem_keptValues hkept).mp hv).1
    exact List.ne_nil_of_mem (List.mem_filter.mpr ⟨ha, decide_eq_true hvalue⟩)
  · split at hmissing
    · rename_i hkeeps
      rw [List.mem_singleton.mp hmissing]
      exact hkeeps.2
    · cases hmissing

/-- The groups after a level are the subgroups of the groups before it. -/
theorem mem_refine {groups refined : List (List Artifact)} (h : level.refine groups = .ok refined) :
    (∀ group ∈ groups, ∃ subs, level.subgroups group = .ok subs) ∧
      ∀ g, g ∈ refined ↔ ∃ group ∈ groups, ∃ subs, level.subgroups group = .ok subs ∧ g ∈ subs := by
  unfold refine at h
  split at h
  · cases h
  · cases hlists : groups.mapM level.subgroups with
    | error e => simp [hlists, bind, Except.bind] at h
    | ok lists =>
      have hrefined : lists.flatten = refined := by
        simpa [hlists, bind, Except.bind, pure, Except.pure] using h
      refine ⟨exists_mapM_eq_ok.mp ⟨lists, hlists⟩, fun g => ?_⟩
      rw [← hrefined, List.mem_flatten]
      constructor
      · rintro ⟨subs, hsubs, hg⟩
        obtain ⟨group, hgroup, hsubgroups⟩ := (mem_of_mapM_eq_ok hlists).mp hsubs
        exact ⟨group, hgroup, subs, hsubgroups, hg⟩
      · rintro ⟨group, hgroup, subs, hsubgroups, hg⟩
        exact ⟨subs, (mem_of_mapM_eq_ok hlists).mpr ⟨group, hgroup, hsubgroups⟩, hg⟩

/-- What a level keeps of a group it keeps of fewer artifacts. -/
theorem Keeps.mono (hsub : fewer ⊆ group) {v : Option PropertyValue} (h : level.Keeps group v) :
    level.Keeps fewer v := by
  have hvalues : level.values fewer ⊆ level.values group := by
    intro v hv
    obtain ⟨a, ha, hvalue⟩ := mem_values.mp hv
    exact mem_values.mpr ⟨a, hsub ha, hvalue⟩
  cases v with
  | some v =>
    refine h.imp_right fun hrank => Nat.lt_of_le_of_lt ?_ hrank
    rw [rank, rank, List.countP_eq_length_filter, List.countP_eq_length_filter]
    exact (nodup_values.filter _).length_le_of_subset (List.filter_subset _ hvalues)
  | none =>
    exact h.imp_right fun hcount =>
      Nat.lt_of_le_of_lt (nodup_values.length_le_of_subset hvalues) hcount

end Grouping

/-! ## All levels -/

/-- An artifact survives in a group: each level keeps the bucket that it falls into. -/
def Survives : List Grouping → List Artifact → Artifact → Prop
  | [], group, a => a ∈ group
  | level :: levels, group, a =>
    level.Keeps group (a.property? level.propertyName) ∧
      Survives levels (bucket level.propertyName group (a.property? level.propertyName)) a

variable {levels : List Grouping} {group fewer : List Artifact} {a : Artifact}

/-- Only artifacts of a group survive in it. -/
theorem Survives.mem (h : Survives levels group a) : a ∈ group := by
  induction levels generalizing group with
  | nil => exact h
  | cons level levels ih => exact (List.mem_filter.mp (ih h.2)).1

/-- The artifacts of a bucket have its value. -/
theorem property?_of_mem_bucket {property : String} {value : Option PropertyValue}
    (h : a ∈ bucket property group value) : a.property? property = value :=
  of_decide_eq_true (List.mem_filter.mp h).2

/-- An artifact that survives in a bucket that a level keeps survives the level too. -/
theorem Survives.cons {level : Grouping} {value : Option PropertyValue}
    (hkeeps : level.Keeps group value)
    (h : Survives levels (bucket level.propertyName group value) a) :
    Survives (level :: levels) group a := by
  obtain rfl := property?_of_mem_bucket h.mem
  exact ⟨hkeeps, h⟩

/-- An artifact that survives in a group survives in what is left of the group. -/
theorem Survives.mono (hsub : fewer ⊆ group) (ha : a ∈ fewer) (h : Survives levels group a) :
    Survives levels fewer a := by
  induction levels generalizing group fewer with
  | nil => exact ha
  | cons level levels ih =>
    refine ⟨h.1.mono hsub, ih (List.filter_subset _ hsub) ?_ h.2⟩
    exact List.mem_filter.mpr ⟨ha, decide_eq_true rfl⟩

/-- What survives in one of the groups after a level survives in one of the groups before it. -/
theorem exists_survives_refined {groups refined : List (List Artifact)} {level : Grouping}
    (h : level.refine groups = .ok refined) :
    (∃ g ∈ refined, Survives levels g a) ↔
      ∃ group ∈ groups, Survives (level :: levels) group a := by
  obtain ⟨hsucceeds, hrefined⟩ := Grouping.mem_refine h
  constructor
  · rintro ⟨g, hg, hsurvives⟩
    obtain ⟨group, hgroup, subs, hsubs, hmem⟩ := (hrefined g).mp hg
    obtain ⟨_, hkeeps, rfl⟩ := (Grouping.mem_subgroups hsubs hsurvives.mem).mp hmem
    exact ⟨group, hgroup, hkeeps, hsurvives⟩
  · rintro ⟨group, hgroup, hkeeps, hsurvives⟩
    obtain ⟨subs, hsubs⟩ := hsucceeds group hgroup
    have hmem := (List.mem_filter.mp hsurvives.mem).1
    refine ⟨_, (hrefined _).mpr ⟨group, hgroup, subs, hsubs, ?_⟩, hsurvives⟩
    exact (Grouping.mem_subgroups hsubs hsurvives.mem).mpr ⟨hmem, hkeeps, rfl⟩

/-- Levels go on with the groups that the first one leaves. -/
theorem survivingGroups_cons_of_ok {groups refined : List (List Artifact)} {level : Grouping}
    (h : level.refine groups = .ok refined) :
    survivingGroups (level :: levels) groups = survivingGroups levels refined := by
  rw [survivingGroups, h]
  rfl

/-- Levels stop where the first one cannot be evaluated. -/
theorem survivingGroups_cons_of_error {groups : List (List Artifact)} {level : Grouping}
    {e : PolicyError} (h : level.refine groups = .error e) :
    survivingGroups (level :: levels) groups = .error e := by
  rw [survivingGroups, h]
  rfl

/-- What survives further levels in one of the groups that some levels leave survives all these
levels in one of the groups at the start. -/
theorem exists_survives_surviving {before after : List Grouping}
    {groups surviving : List (List Artifact)} (h : survivingGroups before groups = .ok surviving) :
    (∃ g ∈ surviving, Survives after g a) ↔
      ∃ group ∈ groups, Survives (before ++ after) group a := by
  induction before generalizing groups with
  | nil =>
    obtain rfl := Except.ok.inj h
    rw [List.nil_append]
  | cons level before ih =>
    cases hrefine : level.refine groups with
    | error e =>
      rw [survivingGroups_cons_of_error hrefine] at h
      cases h
    | ok refined =>
      rw [survivingGroups_cons_of_ok hrefine] at h
      rw [ih h, exists_survives_refined hrefine, List.cons_append]

/-- The surviving groups hold the artifacts that survive in one of the groups at the start. -/
theorem mem_survivingGroups {groups surviving : List (List Artifact)}
    (h : survivingGroups levels groups = .ok surviving) :
    a ∈ surviving.flatten ↔ ∃ group ∈ groups, Survives levels group a := by
  have hall : (∃ g ∈ surviving, Survives [] g a) ↔
      ∃ group ∈ groups, Survives (levels ++ []) group a := exists_survives_surviving h
  rw [List.append_nil] at hall
  rw [← hall, List.mem_flatten]
  rfl

/-- No group that survives is empty, unless one was empty at the start. -/
theorem ne_nil_of_mem_survivingGroups {groups surviving : List (List Artifact)}
    (hne : ∀ group ∈ groups, group ≠ []) (h : survivingGroups levels groups = .ok surviving) :
    ∀ g ∈ surviving, g ≠ [] := by
  induction levels generalizing groups with
  | nil =>
    obtain rfl := Except.ok.inj h
    exact hne
  | cons level levels ih =>
    cases hrefine : level.refine groups with
    | error e =>
      rw [survivingGroups_cons_of_error hrefine] at h
      cases h
    | ok refined =>
      rw [survivingGroups_cons_of_ok hrefine] at h
      refine ih (fun g hg => ?_) h
      obtain ⟨group, _, subs, hsubs, hmem⟩ := ((Grouping.mem_refine hrefine).2 g).mp hg
      exact Grouping.ne_nil_of_mem_subgroups hsubs hmem

/-- The collected artifacts are those whose identifier no surviving artifact has. -/
theorem notInGroups_eq_filter {rule : GroupRule} {artifacts collected : List Artifact}
    (h : notInGroups rule artifacts = .ok collected) :
    ∃ kept : List Artifact, (∀ b, b ∈ kept ↔ Survives rule.groupings artifacts b) ∧
      collected = artifacts.filter fun a => a.id ∉ kept.map (·.id) := by
  unfold notInGroups at h
  cases hsurviving : survivingGroups rule.groupings [artifacts] with
  | error e => simp [hsurviving, bind, Except.bind] at h
  | ok surviving =>
    refine ⟨surviving.flatten, fun b => ?_, ?_⟩
    · rw [mem_survivingGroups hsurviving]
      simp
    · simp only [hsurviving, bind, Except.bind, pure, Except.pure, Except.ok.injEq] at h
      exact h.symm

/-- An artifact that survives is not collected. -/
theorem notMem_of_survives {rule : GroupRule} {artifacts collected : List Artifact}
    (h : notInGroups rule artifacts = .ok collected) (ha : Survives rule.groupings artifacts a) :
    a ∉ collected := by
  obtain ⟨kept, hkept, rfl⟩ := notInGroups_eq_filter h
  rw [List.mem_filter, decide_eq_true_eq]
  exact fun hcollected => hcollected.2 (List.mem_map_of_mem ((hkept a).mpr ha))

/-- Not kept are the artifacts that do not survive. -/
theorem mem_notInGroups {rule : GroupRule} {artifacts collected : List Artifact}
    (hnodup : (artifacts.map (·.id)).Nodup) (h : notInGroups rule artifacts = .ok collected) :
    a ∈ collected ↔ a ∈ artifacts ∧ ¬ Survives rule.groupings artifacts a := by
  obtain ⟨kept, hkept, rfl⟩ := notInGroups_eq_filter h
  rw [List.mem_filter, decide_eq_true_eq]
  refine and_congr_right fun ha => not_congr ?_
  rw [← hkept a]
  constructor
  · intro hid
    obtain ⟨b, hb, hba⟩ := List.mem_map.mp hid
    have hb' : b ∈ artifacts := ((hkept b).mp hb).mem
    exact List.inj_on_of_nodup_map hnodup hb' ha hba ▸ hb
  · exact List.mem_map_of_mem

end ArtifactGC

import ArtifactGC.Proofs.Evaluation
import ArtifactGC.Proofs.Peers

/-!
# Looser policies

A policy is loosened by raising or lifting its limits and by leaving out its last levels. The
groups that an artifact meets on its way through the levels depend on the values of the artifacts
alone and not on the limits, so that an artifact that survives still survives under looser ones:
`looser_policy_collects_no_more`. More artifacts reach the levels then, with more values that may
differ in kind, while levels that are left out meet no values at all; so success carries over from
looser limits to tighter ones and from more levels to fewer.
-/

namespace ArtifactGC

/-! ## Loosening -/

/-- A limit is loosened when it is lifted, or when it is a positive one that is not lowered. -/
def LimitLoosened (limit looser : Int64) : Prop :=
  looser.toInt ≤ 0 ∨ 0 < limit.toInt ∧ limit.toInt ≤ looser.toInt

instance (limit looser : Int64) : Decidable (LimitLoosened limit looser) :=
  inferInstanceAs (Decidable (_ ∨ _))

/-- A level is loosened when its limit is. -/
structure Grouping.Loosened (level looser : Grouping) : Prop where
  /-- The property stays. -/
  propertyName : looser.propertyName = level.propertyName
  /-- The limit is loosened. -/
  keepNum : LimitLoosened level.keepNum looser.keepNum
  /-- The order stays. -/
  keepOrder : looser.keepOrder = level.keepOrder

/-- The limit of a rule is loosened. -/
def RecencyRule.Loosened (rule looser : RecencyRule) : Prop :=
  LimitLoosened rule.numArtifacts looser.numArtifacts

/-- The limits of the levels of a rule are loosened. -/
def GroupRule.Loosened (rule looser : GroupRule) : Prop :=
  List.Forall₂ Grouping.Loosened rule.groupings looser.groupings

/-- The last levels of a rule are left out. -/
def GroupRule.Shortened (rule shorter : GroupRule) : Prop :=
  shorter.groupings <+: rule.groupings

namespace Policy

/-- Limits of a policy are loosened. -/
structure LimitsLoosened (policy looser : Policy) : Prop where
  /-- The number of artifacts is loosened. -/
  recency : Option.Rel RecencyRule.Loosened policy.recency looser.recency
  /-- The limits of the levels are loosened. -/
  groups : Option.Rel GroupRule.Loosened policy.groups looser.groups
  /-- The rest stays. -/
  usage : looser.usage = policy.usage

/-- The last levels of a policy are left out. -/
structure Shortened (policy shorter : Policy) : Prop where
  /-- The rule of recency stays. -/
  recency : shorter.recency = policy.recency
  /-- The first levels stay. -/
  groups : Option.Rel GroupRule.Shortened policy.groups shorter.groups
  /-- The rest stays. -/
  usage : shorter.usage = policy.usage

/-- A policy is loosened: limits of it are loosened, and then last levels are left out. -/
def Loosened (policy looser : Policy) : Prop :=
  ∃ between, policy.LimitsLoosened between ∧ between.Shortened looser

end Policy

/-! ## Survivors -/

section Survivors

variable {levels looser : List Grouping} {group : List Artifact} {a : Artifact}

/-- Loosening removes a limit or raises it. -/
theorem LimitLoosened.toNat {limit looser : Int64} (h : LimitLoosened limit looser) :
    looser.toInt.toNat = 0 ∨
      limit.toInt.toNat ≠ 0 ∧ limit.toInt.toNat ≤ looser.toInt.toNat := by
  unfold LimitLoosened at h
  omega

/-- What a level keeps, it keeps when it is loosened. -/
theorem Grouping.Keeps.loosened {level looser : Grouping} (h : level.Loosened looser)
    {v : Option PropertyValue} (hkeeps : level.Keeps group v) : looser.Keeps group v := by
  have hvalues : looser.values group = level.values group := by
    rw [Grouping.values, Grouping.values, h.propertyName]
  have hlimit : looser.limit = 0 ∨ level.limit ≠ 0 ∧ level.limit ≤ looser.limit := h.keepNum.toNat
  cases v with
  | some v =>
    have hrank : looser.rank group v = level.rank group v := by
      unfold Grouping.rank Grouping.prefers
      rw [hvalues, h.keepOrder]
    simp only [Grouping.Keeps] at hkeeps ⊢
    omega
  | none =>
    simp only [Grouping.Keeps] at hkeeps ⊢
    rw [hvalues]
    omega

/-- An artifact that survives some levels survives them when they are loosened. -/
theorem Survives.loosened (h : List.Forall₂ Grouping.Loosened levels looser)
    (hsurvives : Survives levels group a) : Survives looser group a := by
  induction h generalizing group with
  | nil => exact hsurvives
  | cons hlevel _ ih =>
    obtain ⟨hkeeps, hrest⟩ := hsurvives
    rw [Survives, hlevel.propertyName]
    exact ⟨hkeeps.loosened hlevel, ih hrest⟩

/-- An artifact that survives some levels survives the first ones of them. -/
theorem Survives.shortened (h : looser <+: levels) (hsurvives : Survives levels group a) :
    Survives looser group a := by
  obtain ⟨after, rfl⟩ := h
  exact (survives_append.mp hsurvives).1

end Survivors

/-! ## Collected artifacts -/

section Collected

variable {artifacts collected fewer : List Artifact}

/-- With a looser limit nothing else is left out of the newest. -/
theorem notRecent_loosened {rule looser : RecencyRule} (h : rule.Loosened looser) :
    (notRecent looser artifacts).Sublist (notRecent rule artifacts) := by
  rw [notRecent_eq_filter, notRecent_eq_filter]
  refine List.monotone_filter_right _ fun a ha => ?_
  have hlimit : looser.limit = 0 ∨ rule.limit ≠ 0 ∧ rule.limit ≤ looser.limit := h.toNat
  rw [decide_eq_true_eq] at ha ⊢
  omega

/-- Where more artifacts survive, fewer are collected. -/
theorem notInGroups_sublist {rule looser : GroupRule}
    (hsurvives : ∀ a, Survives rule.groupings artifacts a → Survives looser.groupings artifacts a)
    (h : notInGroups rule artifacts = .ok collected)
    (hlooser : notInGroups looser artifacts = .ok fewer) : fewer.Sublist collected := by
  obtain ⟨kept, hkept, rfl⟩ := notInGroups_eq_filter h
  obtain ⟨more, hmore, rfl⟩ := notInGroups_eq_filter hlooser
  refine List.monotone_filter_right _ fun a ha => ?_
  rw [decide_eq_true_eq] at ha ⊢
  intro hid
  obtain ⟨b, hb, hba⟩ := List.mem_map.mp hid
  exact ha (hba ▸ List.mem_map_of_mem ((hmore b).mpr (hsurvives b ((hkept b).mp hb))))

/-- What a policy that can be evaluated sets, and what it collects by that. -/
theorem set_of_collected {policy : Policy}
    (h : artifactsToCollect policy artifacts = .ok collected) :
    (∃ rule, policy.recency = some rule ∧ policy.groups = none ∧
      collected = notRecent rule artifacts) ∨
    ∃ rule, policy.recency = none ∧ policy.groups = some rule ∧
      notInGroups rule artifacts = .ok collected := by
  obtain ⟨rule, hrule⟩ := exists_retention h
  cases rule with
  | recency rule =>
    obtain ⟨hrecency, hgroups⟩ := retention_eq_recency.mp hrule
    rw [artifactsToCollect_of_recency hrule] at h
    exact .inl ⟨rule, hrecency, hgroups, (Except.ok.inj h).symm⟩
  | groups rule =>
    obtain ⟨hrecency, hgroups, _⟩ := retention_eq_groups.mp hrule
    rw [artifactsToCollect_of_groups hrule] at h
    exact .inr ⟨rule, hrecency, hgroups, h⟩

/-- A looser policy collects, in the same order, only what the policy collects. -/
theorem collected_of_loosened {policy looser : Policy} (hloosened : policy.Loosened looser)
    (h : artifactsToCollect policy artifacts = .ok collected)
    (hlooser : artifactsToCollect looser artifacts = .ok fewer) : fewer.Sublist collected := by
  obtain ⟨between, hlimits, hshortened⟩ := hloosened
  have hrecency : Option.Rel RecencyRule.Loosened policy.recency looser.recency :=
    hshortened.recency ▸ hlimits.recency
  rcases set_of_collected h with ⟨rule, hset, -, rfl⟩ | ⟨rule, hunset, hset, hcollected⟩
  · rcases set_of_collected hlooser with ⟨rule', hset', -, rfl⟩ | ⟨_, hunset', -⟩
    · rw [hset, hset'] at hrecency
      exact notRecent_loosened (Option.rel_some_some.mp hrecency)
    · rw [hset, hunset'] at hrecency
      cases hrecency
  · rcases set_of_collected hlooser with ⟨_, hset', -⟩ | ⟨rule', -, hset', hfewer⟩
    · rw [hunset, hset'] at hrecency
      cases hrecency
    · have hgroups := hlimits.groups
      have hcut := hshortened.groups
      rw [hset] at hgroups
      rw [hset'] at hcut
      cases hmiddle : between.groups with
      | none =>
        rw [hmiddle] at hgroups
        cases hgroups
      | some middle =>
        rw [hmiddle] at hgroups hcut
        have hlevels : rule.Loosened middle := Option.rel_some_some.mp hgroups
        have hfirst : middle.Shortened rule' := Option.rel_some_some.mp hcut
        refine notInGroups_sublist (fun a ha => ?_) hcollected hfewer
        exact (ha.loosened hlevels).shortened hfirst

end Collected

/-! ## Success -/

section Success

variable {levels looser : List Grouping} {groups : List (List Artifact)}

/-- Loosened levels have the orders of the levels. -/
theorem known_of_loosened (h : List.Forall₂ Grouping.Loosened levels looser)
    (hknown : ∀ level ∈ looser, level.keepOrder ≠ .unrecognized) :
    ∀ level ∈ levels, level.keepOrder ≠ .unrecognized := by
  induction h with
  | nil => exact hknown
  | cons hlevel _ ih =>
    obtain ⟨hfirst, hrest⟩ := List.forall_mem_cons.mp hknown
    rw [hlevel.keepOrder] at hfirst
    exact List.forall_mem_cons.mpr ⟨hfirst, ih hrest⟩

/-- Where values are of one kind at loosened levels, they are at the levels, which fewer artifacts
reach. -/
theorem OneKindPerLevel.of_loosened (hone : OneKindPerLevel looser groups)
    (h : List.Forall₂ Grouping.Loosened levels looser) : OneKindPerLevel levels groups := by
  rintro before level after rfl
  have hbefore := List.forall₂_take before.length h
  have hafter := List.forall₂_drop before.length h
  rw [List.take_left] at hbefore
  rw [List.drop_left] at hafter
  obtain ⟨level', after', hlevel, _, hsplit⟩ := List.forall₂_cons_left_iff.mp hafter
  have hlevels : looser = looser.take before.length ++ level' :: after' := by
    rw [← hsplit, List.take_append_drop]
  have hkinds := hone _ level' after' hlevels
  rw [hlevel.propertyName] at hkinds
  refine hkinds.mono ?_
  rintro a ⟨group, hgroup, hsurvives⟩
  exact ⟨group, hgroup, hsurvives.loosened hbefore⟩

/-- Where values are of one kind at all levels, they are at the first ones. -/
theorem OneKindPerLevel.shortened (hone : OneKindPerLevel levels groups) (h : looser <+: levels) :
    OneKindPerLevel looser groups := by
  obtain ⟨rest, rfl⟩ := h
  rintro before level after rfl
  exact hone before level (after ++ rest) (by rw [List.append_assoc, List.cons_append])

variable {policy other : Policy} {artifacts : List Artifact}

/-- The orders of all levels of a rule are known, and the values that meet at each of them are of
one kind. -/
structure GroupRule.Sound (rule : GroupRule) (artifacts : List Artifact) : Prop where
  /-- The orders are known. -/
  known : ∀ level ∈ rule.groupings, level.keepOrder ≠ .unrecognized
  /-- The values are of one kind. -/
  oneKind : OneKindPerLevel rule.groupings [artifacts]

/-- Where a policy can be evaluated, another one can be that sets rules of the same sort, when its
groups are sound where those of the policy are. -/
theorem exists_collected_of_sound (hrecency : other.recency.isSome = policy.recency.isSome)
    (hgroups : other.groups.isSome = policy.groups.isSome)
    (hsound : ∀ rule ∈ policy.groups, ∀ rule' ∈ other.groups,
      rule.Sound artifacts → rule'.Sound artifacts)
    (h : ∃ collected, artifactsToCollect policy artifacts = .ok collected) :
    ∃ collected, artifactsToCollect other artifacts = .ok collected := by
  rw [exists_collected] at h ⊢
  obtain ⟨rule, hrule, hevaluates⟩ := h
  cases rule with
  | recency rule =>
    obtain ⟨hset, hunset⟩ := retention_eq_recency.mp hrule
    rw [hset] at hrecency
    rw [hunset] at hgroups
    obtain ⟨rule', hset'⟩ := Option.isSome_iff_exists.mp hrecency
    have hunset' : other.groups = none :=
      Option.isNone_iff_eq_none.mp (Option.isSome_eq_false_iff.mp hgroups)
    exact ⟨_, retention_eq_recency.mpr ⟨hset', hunset'⟩, trivial⟩
  | groups rule =>
    obtain ⟨hunset, hset, hknown⟩ := retention_eq_groups.mp hrule
    rw [hunset] at hrecency
    rw [hset] at hgroups
    obtain ⟨rule', hset'⟩ := Option.isSome_iff_exists.mp hgroups
    have hunset' : other.recency = none :=
      Option.isNone_iff_eq_none.mp (Option.isSome_eq_false_iff.mp hrecency)
    have hsound' := hsound rule hset rule' hset' ⟨hknown, hevaluates⟩
    exact ⟨_, retention_eq_groups.mpr ⟨hunset', hset', hsound'.known⟩, hsound'.oneKind⟩

/-- Options that are related are both set or both unset. -/
theorem isSome_eq_of_rel {α : Type} {r : α → α → Prop} {x y : Option α} (h : Option.Rel r x y) :
    x.isSome = y.isSome := by
  cases h <;> rfl

/-- Where a policy with looser limits can be evaluated, the policy can be. -/
theorem exists_collected_of_limitsLoosened (h : policy.LimitsLoosened other)
    (hother : ∃ collected, artifactsToCollect other artifacts = .ok collected) :
    ∃ collected, artifactsToCollect policy artifacts = .ok collected := by
  refine exists_collected_of_sound (isSome_eq_of_rel h.recency) (isSome_eq_of_rel h.groups)
    ?_ hother
  intro looser hlooser rule hrule hsound
  have hgroups := h.groups
  rw [hrule, hlooser] at hgroups
  have hlevels := Option.rel_some_some.mp hgroups
  exact ⟨known_of_loosened hlevels hsound.known, hsound.oneKind.of_loosened hlevels⟩

/-- Where a policy can be evaluated, it can be when its last levels are left out. -/
theorem exists_collected_of_shortened (h : policy.Shortened other)
    (hpolicy : ∃ collected, artifactsToCollect policy artifacts = .ok collected) :
    ∃ collected, artifactsToCollect other artifacts = .ok collected := by
  refine exists_collected_of_sound (h.recency ▸ rfl) (isSome_eq_of_rel h.groups).symm ?_ hpolicy
  intro rule hrule shorter hshorter hsound
  have hgroups := h.groups
  rw [hrule, hshorter] at hgroups
  have hcut := Option.rel_some_some.mp hgroups
  exact ⟨fun level hlevel => hsound.known level (hcut.subset hlevel), hsound.oneKind.shortened hcut⟩

end Success

/-- A looser policy collects nothing that the policy does not collect. A policy can be evaluated
where it can be with looser limits, and without its last levels where it can be with them. -/
theorem looser_policy_collects_no_more (policy other : Policy) (artifacts : List Artifact) :
    (policy.Loosened other → ∀ collected fewer,
      artifactsToCollect policy artifacts = .ok collected →
      artifactsToCollect other artifacts = .ok fewer → fewer.Sublist collected) ∧
    (policy.LimitsLoosened other →
      (∃ collected, artifactsToCollect other artifacts = .ok collected) →
      ∃ collected, artifactsToCollect policy artifacts = .ok collected) ∧
    (policy.Shortened other →
      (∃ collected, artifactsToCollect policy artifacts = .ok collected) →
      ∃ collected, artifactsToCollect other artifacts = .ok collected) := by
  refine ⟨fun hloosened collected fewer h hother => ?_, fun hlimits hother => ?_,
    fun hshortened hpolicy => ?_⟩
  · exact collected_of_loosened hloosened h hother
  · exact exists_collected_of_limitsLoosened hlimits hother
  · exact exists_collected_of_shortened hshortened hpolicy

/-- With two spans kept instead of one and versions no longer counted, fewer models are collected.
With two spans kept the versions could not be counted any more, as they are of different kinds;
with versions no longer limited in the largest span, or not looked at, they can. -/
theorem second_span_is_kept_without_versions :
    let named := spanModel 1 (some 1) (some (.string "x"))
    let numbered := spanModel 2 (some 1) (some (.int 1))
    let early := spanModel 3 (some 2) (some (.int 2))
    let late := spanModel 4 (some 2) (some (.int 3))
    let old := spanModel 5 (some 0) none
    let models := [named, numbered, early, late, old]
    let policy := Policy.ofGroupings [⟨"span", 1, .largest⟩, ⟨"version", 1, .largest⟩]
    let unlimited := Policy.ofGroupings [⟨"span", 1, .largest⟩, ⟨"version", 0, .largest⟩]
    let wider := Policy.ofGroupings [⟨"span", 2, .largest⟩, ⟨"version", 1, .largest⟩]
    let spans := Policy.ofGroupings [⟨"span", 2, .largest⟩]
    (policy.Loosened spans ∧
      artifactsToCollect policy models = .ok [named, numbered, early, old] ∧
      artifactsToCollect spans models = .ok [old] ∧
      [old].Sublist [named, numbered, early, old]) ∧
    (policy.LimitsLoosened unlimited ∧
      artifactsToCollect unlimited models = .ok [named, numbered, old] ∧
      ∃ collected, artifactsToCollect policy models = .ok collected) ∧
    (policy.LimitsLoosened wider ∧
      artifactsToCollect wider models = .error (.mixedTypes "version" .int .string)) := by
  intro named numbered early late old models policy unlimited wider spans
  have hlimits (spanNum versionNum : Int64) (hspan : LimitLoosened 1 spanNum)
      (hversion : LimitLoosened 1 versionNum) :
      policy.LimitsLoosened
        (.ofGroupings [⟨"span", spanNum, .largest⟩, ⟨"version", versionNum, .largest⟩]) :=
    ⟨.none, .some (.cons ⟨rfl, hspan, rfl⟩ (.cons ⟨rfl, hversion, rfl⟩ .nil)), rfl⟩
  have hunlimited : policy.LimitsLoosened unlimited := hlimits 1 0 (by decide) (by decide)
  have hwider : policy.LimitsLoosened wider := hlimits 2 1 (by decide) (by decide)
  have hspans : policy.Loosened spans :=
    ⟨wider, hwider, rfl, .some ⟨[⟨"version", 1, .largest⟩], rfl⟩, rfl⟩
  have hpolicy : artifactsToCollect policy models = .ok [named, numbered, early, old] := by
    decide +kernel
  have hfewer : artifactsToCollect spans models = .ok [old] := by decide +kernel
  have hlifted : artifactsToCollect unlimited models = .ok [named, numbered, old] := by
    decide +kernel
  obtain ⟨hsublist, _⟩ := looser_policy_collects_no_more policy spans models
  obtain ⟨_, hsucceeds, _⟩ := looser_policy_collects_no_more policy unlimited models
  exact ⟨⟨hspans, hpolicy, hfewer, hsublist hspans _ _ hpolicy hfewer⟩,
    ⟨hunlimited, hlifted, hsucceeds hunlimited ⟨_, hlifted⟩⟩, hwider, by decide +kernel⟩

end ArtifactGC

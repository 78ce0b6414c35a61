import ArtifactGC.Proofs.Evaluation
import ArtifactGC.Proofs.Services

/-!
# Why a policy is refused

A policy is refused because it selects no rule, whatever the artifacts are, or because values of
different kinds meet at a level of its grouping. They meet among the artifacts that survive the
levels before, in whatever groups these are, and the first level where they meet is the one that is
reported. `refused_exactly_for_cause` says so. As survival does not depend on the order of the
artifacts, neither does what is reported, except for the kinds that it names.
-/

namespace ArtifactGC

/-- The kinds that are reported to clash differ, and values of both kinds are there. -/
theorem kindClash?_eq_some {values : List PropertyValue} {expected found : ValueKind}
    (h : kindClash? values = some (expected, found)) :
    expected ≠ found ∧ (∃ v ∈ values, v.kind = expected) ∧ ∃ w ∈ values, w.kind = found := by
  cases values with
  | nil => cases h
  | cons first rest =>
    obtain ⟨w, hfind, hkinds⟩ := Option.map_eq_some_iff.mp h
    obtain ⟨rfl, rfl⟩ := Prod.mk.inj hkinds
    have hdiffer : w.kind ≠ first.kind := by simpa using List.find?_some hfind
    exact ⟨hdiffer.symm, ⟨first, List.mem_cons_self, rfl⟩,
      ⟨w, List.mem_cons_of_mem _ (List.mem_of_find?_eq_some hfind), rfl⟩⟩

/-- With a known order only values of different kinds keep a level from splitting groups. -/
theorem Grouping.kindClash?_of_refine_eq_error {level : Grouping} {groups : List (List Artifact)}
    {e : PolicyError} (hknown : level.keepOrder ≠ .unrecognized)
    (h : level.refine groups = .error e) :
    ∃ expected found, kindClash? (valuesOf level.propertyName groups.flatten) =
      some (expected, found) ∧ e = .mixedTypes level.propertyName expected found := by
  cases hclash : kindClash? (valuesOf level.propertyName groups.flatten) with
  | some clash =>
    rw [refine, hclash] at h
    exact ⟨clash.1, clash.2, rfl, (Except.error.inj h).symm⟩
  | none =>
    rcases level.refine_cases hknown groups with ⟨_, refined, hrefined⟩ | ⟨hmixed, _⟩
    · rw [hrefined] at h
      cases h
    · exact absurd (kindClash?_groups.mp hclash) hmixed

/-- Levels are refused with the error of a level that refuses what the levels before it leave. -/
theorem survivingGroups_eq_error {levels : List Grouping} {groups : List (List Artifact)}
    {e : PolicyError} (h : survivingGroups levels groups = .error e) :
    ∃ before level after surviving, levels = before ++ level :: after ∧
      survivingGroups before groups = .ok surviving ∧ level.refine surviving = .error e := by
  induction levels generalizing groups with
  | nil => cases h
  | cons level levels ih =>
    cases hrefine : level.refine groups with
    | error e' =>
      rw [survivingGroups_cons_of_error hrefine] at h
      cases h
      exact ⟨[], level, levels, groups, rfl, rfl, hrefine⟩
    | ok refined =>
      rw [survivingGroups_cons_of_ok hrefine] at h
      obtain ⟨before, next, after, surviving, rfl, hbefore, herror⟩ := ih h
      refine ⟨level :: before, next, after, surviving, rfl, ?_, herror⟩
      rw [survivingGroups_cons_of_ok hrefine, hbefore]

/-- Where groups refuse to say what they do not keep, they have refused to say what survives. -/
theorem survivingGroups_of_notInGroups_eq_error {rule : GroupRule} {artifacts : List Artifact}
    {e : PolicyError} (h : notInGroups rule artifacts = .error e) :
    survivingGroups rule.groupings [artifacts] = .error e := by
  unfold notInGroups at h
  cases hsurviving : survivingGroups rule.groupings [artifacts] with
  | ok surviving =>
    rw [hsurviving] at h
    cases h
  | error e' =>
    rw [hsurviving] at h
    cases h
    rfl

/-! ## Clashes -/

/-- Of the artifacts that survive some levels two have values of different kinds of the property of
the next level. -/
def Clash (before : List Grouping) (level : Grouping) (artifacts : List Artifact) : Prop :=
  ∃ a b v w, Survives before artifacts a ∧ Survives before artifacts b ∧
    a.property? level.propertyName = some v ∧ b.property? level.propertyName = some w ∧
    v.kind ≠ w.kind

/-- A level is the first one of some levels at which values of different kinds meet. -/
structure FirstClash (levels before : List Grouping) (level : Grouping)
    (artifacts : List Artifact) : Prop where
  /-- The level comes after the levels before it. -/
  split : ∃ after, levels = before ++ level :: after
  /-- Values of different kinds meet at the level. -/
  clash : Clash before level artifacts
  /-- At no level before do they meet. -/
  first : ∀ earlier next between, before = earlier ++ next :: between →
    ¬ Clash earlier next artifacts

variable {levels before : List Grouping} {level : Grouping} {artifacts permuted : List Artifact}

/-- There is a clash where values are not of one kind. -/
theorem clash_iff :
    Clash before level artifacts ↔ ¬ OneKind level.propertyName (Survives before artifacts) := by
  constructor
  · rintro ⟨a, b, v, w, ha, hb, hv, hw, hdiffer⟩ hone
    exact hdiffer (hone a b v w ha hb hv hw)
  · intro hmixed
    by_contra hnone
    apply hmixed
    intro a b v w ha hb hv hw
    by_contra hdiffer
    exact hnone ⟨a, b, v, w, ha, hb, hv, hw, hdiffer⟩

/-- Values are of one kind at each level where there is no clash at any. -/
theorem oneKindPerLevel_iff : OneKindPerLevel levels [artifacts] ↔
    ∀ before level after, levels = before ++ level :: after → ¬ Clash before level artifacts := by
  simp [OneKindPerLevel, clash_iff]

/-- Who survives does not depend on the order of the artifacts. -/
theorem survives_of_perm (h : permuted.Perm artifacts) {a : Artifact} :
    Survives levels permuted a ↔ Survives levels artifacts a := by
  constructor
  · intro ha
    exact ha.mono h.symm.subset (h.subset ha.mem)
  · intro ha
    exact ha.mono h.subset (h.symm.subset ha.mem)

/-- Whether values of different kinds meet does not depend on the order of the artifacts. -/
theorem clash_of_perm (h : permuted.Perm artifacts) :
    Clash before level permuted ↔ Clash before level artifacts := by
  simp only [Clash, survives_of_perm h]

/-- Which level is the first where they meet does not depend on the order of the artifacts. -/
theorem FirstClash.of_perm (h : permuted.Perm artifacts)
    (hfirst : FirstClash levels before level artifacts) :
    FirstClash levels before level permuted where
  split := hfirst.split
  clash := (clash_of_perm h).mpr hfirst.clash
  first earlier next between hsplit :=
    mt (clash_of_perm h).mp (hfirst.first earlier next between hsplit)

/-! ## What is reported -/

/-- An error reports two kinds that meet at the first level where values of different kinds do. -/
structure PolicyError.Reports (e : PolicyError) (levels before : List Grouping) (level : Grouping)
    (artifacts : List Artifact) (expected found : ValueKind) : Prop where
  /-- The error names the property of the level and two kinds. -/
  error : e = .mixedTypes level.propertyName expected found
  /-- The level is the first one where values of different kinds meet. -/
  first : FirstClash levels before level artifacts
  /-- The levels before it can be evaluated and leave the artifacts that survive them. -/
  survivors : ∃ groups, survivingGroups before [artifacts] = .ok groups ∧
    ∀ a, a ∈ groups.flatten ↔ Survives before artifacts a
  /-- The kinds differ. -/
  differ : expected ≠ found
  /-- One of these artifacts has a value of the first kind. -/
  expected_mem : ∃ a v, Survives before artifacts a ∧ a.property? level.propertyName = some v ∧
    v.kind = expected
  /-- One of these artifacts has a value of the second kind. -/
  found_mem : ∃ a v, Survives before artifacts a ∧ a.property? level.propertyName = some v ∧
    v.kind = found

/-- Two errors are the same but for the kinds that they name. -/
def PolicyError.Agrees : PolicyError → PolicyError → Prop
  | .mixedTypes property _ _, .mixedTypes property' _ _ => property = property'
  | e, e' => e = e'

variable {policy : Policy} {rule : GroupRule} {e : PolicyError}

/-- Where a rule of grouping is selected and refused, the first clash is reported. -/
theorem exists_report (hrule : policy.retention = .ok (.groups rule))
    (h : artifactsToCollect policy artifacts = .error e) :
    ∃ before level expected found,
      e.Reports rule.groupings before level artifacts expected found := by
  have hknown := (retention_eq_groups.mp hrule).2.2
  rw [artifactsToCollect_of_groups hrule] at h
  obtain ⟨before, level, after, groups, hsplit, hbefore, hrefine⟩ :=
    survivingGroups_eq_error (survivingGroups_of_notInGroups_eq_error h)
  have hmem (a : Artifact) : a ∈ groups.flatten ↔ Survives before artifacts a := by
    rw [mem_survivingGroups hbefore]
    simp
  rw [hsplit, List.forall_mem_append, List.forall_mem_cons] at hknown
  obtain ⟨hknown, hlevel, _⟩ := hknown
  obtain ⟨expected, found, hclash, herror⟩ :=
    Grouping.kindClash?_of_refine_eq_error hlevel hrefine
  obtain ⟨hdiffer, ⟨v, hv, hexpected⟩, w, hw, hfound⟩ := kindClash?_eq_some hclash
  obtain ⟨a, ha, hav⟩ := List.mem_filterMap.mp hv
  obtain ⟨b, hb, hbw⟩ := List.mem_filterMap.mp hw
  rw [hmem] at ha hb
  -- the levels before have been evaluated, so that no clash comes earlier
  have hearlier : OneKindPerLevel before [artifacts] := by
    rcases survivingGroups_cases hknown [artifacts] with ⟨hone, _⟩ | ⟨_, _, _, _, herror⟩
    · exact hone
    · rw [hbefore] at herror
      cases herror
  have hkinds : v.kind ≠ w.kind := by rwa [hexpected, hfound]
  exact ⟨before, level, expected, found, {
    error := herror
    first := ⟨⟨after, hsplit⟩, ⟨a, b, v, w, ha, hb, hav, hbw, hkinds⟩,
      oneKindPerLevel_iff.mp hearlier⟩
    survivors := ⟨groups, hbefore, hmem⟩
    differ := hdiffer
    expected_mem := ⟨a, v, ha, hav, hexpected⟩
    found_mem := ⟨b, w, hb, hbw, hfound⟩ }⟩

/-- The first clash of some levels is at one level. -/
theorem FirstClash.unique {before' : List Grouping} {level' : Grouping}
    (h : FirstClash levels before level artifacts)
    (h' : FirstClash levels before' level' artifacts) : before = before' ∧ level = level' := by
  obtain ⟨after, hsplit⟩ := h.split
  obtain ⟨after', hsplit'⟩ := h'.split
  rw [hsplit] at hsplit'
  rcases List.append_eq_append_iff.mp hsplit' with ⟨between, rfl, hrest⟩ | ⟨between, rfl, hrest⟩
  · cases between with
    | nil =>
      obtain ⟨rfl, _⟩ := List.cons.inj hrest
      exact ⟨(List.append_nil _).symm, rfl⟩
    | cons next between =>
      obtain ⟨rfl, _⟩ := List.cons.inj hrest
      exact absurd h.clash (h'.first before level between rfl)
  · cases between with
    | nil =>
      obtain ⟨rfl, _⟩ := List.cons.inj hrest
      exact ⟨List.append_nil _, rfl⟩
    | cons next between =>
      obtain ⟨rfl, _⟩ := List.cons.inj hrest
      exact absurd h'.clash (h.first before' level' between rfl)

/-- A policy is refused exactly when it selects no rule, or when it groups and values of different
kinds meet at a level. -/
theorem exists_refusal : (∃ e, artifactsToCollect policy artifacts = .error e) ↔
    (∃ e, policy.retention = .error e) ∨ ∃ rule before level after,
      policy.retention = .ok (.groups rule) ∧ rule.groupings = before ++ level :: after ∧
      Clash before level artifacts := by
  constructor
  · rintro ⟨e, herror⟩
    cases hretention : policy.retention with
    | error e' => exact .inl ⟨e', rfl⟩
    | ok rule =>
      cases rule with
      | recency rule =>
        rw [artifactsToCollect_of_recency hretention] at herror
        cases herror
      | groups rule =>
        obtain ⟨before, level, _, _, hreports⟩ := exists_report hretention herror
        obtain ⟨after, hsplit⟩ := hreports.first.split
        exact .inr ⟨rule, before, level, after, rfl, hsplit, hreports.first.clash⟩
  · rintro (⟨e, herror⟩ | ⟨rule, before, level, after, hrule, hsplit, hclash⟩)
    · exact ⟨e, artifactsToCollect_of_error herror⟩
    · rcases artifactsToCollect_cases hrule artifacts with ⟨hevaluates, _⟩ | ⟨_, _, _, _, herror⟩
      · exact absurd hclash (oneKindPerLevel_iff.mp hevaluates before level after hsplit)
      · exact ⟨_, herror⟩

/-- In another order of the artifacts a policy is refused for the same cause. -/
theorem agrees_of_perm (h : permuted.Perm artifacts) {e' : PolicyError}
    (herror : artifactsToCollect policy artifacts = .error e)
    (herror' : artifactsToCollect policy permuted = .error e') : e.Agrees e' := by
  cases hretention : policy.retention with
  | error cause =>
    rw [artifactsToCollect_of_error hretention] at herror herror'
    cases herror
    cases herror'
    cases e <;> simp [PolicyError.Agrees]
  | ok rule =>
    cases rule with
    | recency rule =>
      rw [artifactsToCollect_of_recency hretention] at herror
      cases herror
    | groups rule =>
      obtain ⟨before, level, expected, found, hreports⟩ := exists_report hretention herror
      obtain ⟨before', level', expected', found', hreports'⟩ := exists_report hretention herror'
      obtain ⟨_, rfl⟩ := (hreports.first.of_perm h).unique hreports'.first
      rw [hreports.error, hreports'.error]
      exact rfl

/-- A policy that selects no rule is refused with that error, whatever the artifacts are. Otherwise
it is refused exactly when it groups and two artifacts that survive the levels before some level
have values of different kinds of its property. Then the first such level is reported, with two
kinds of such artifacts. No level finds that it does not know its order of keeping. In another order
the artifacts are refused as well, and for the same cause. -/
theorem refused_exactly_for_cause (policy : Policy) (artifacts : List Artifact) :
    (∀ e, policy.retention = .error e → ∀ others, artifactsToCollect policy others = .error e) ∧
    ((∃ e, artifactsToCollect policy artifacts = .error e) ↔
      (∃ e, policy.retention = .error e) ∨ ∃ rule before level after,
        policy.retention = .ok (.groups rule) ∧ rule.groupings = before ++ level :: after ∧
        Clash before level artifacts) ∧
    (∀ rule e, policy.retention = .ok (.groups rule) →
      artifactsToCollect policy artifacts = .error e →
      ∃ before level expected found,
        e.Reports rule.groupings before level artifacts expected found) ∧
    (∀ rule, policy.retention = .ok (.groups rule) → ∀ level ∈ rule.groupings, ∀ values,
      ∃ kept, level.keptValues values = .ok kept) ∧
    ∀ permuted, permuted.Perm artifacts →
      ((∃ e, artifactsToCollect policy permuted = .error e) ↔
        ∃ e, artifactsToCollect policy artifacts = .error e) ∧
      ∀ e e', artifactsToCollect policy artifacts = .error e →
        artifactsToCollect policy permuted = .error e' → e.Agrees e' := by
  refine ⟨?_, exists_refusal, ?_, ?_, ?_⟩
  · intro e herror others
    exact artifactsToCollect_of_error herror
  · intro rule e hrule herror
    exact exists_report hrule herror
  · intro rule hrule level hlevel values
    have hknown : level.keepOrder ≠ .unrecognized := (retention_eq_groups.mp hrule).2.2 level hlevel
    exact level.exists_keptValues hknown values
  · intro permuted hperm
    constructor
    · rw [exists_refusal, exists_refusal]
      simp only [clash_of_perm hperm]
    · intro e e' herror herror'
      exact agrees_of_perm hperm herror herror'

/-- The versions of the newer span clash, in every order. The older span has a version of a third
kind, and a model of the newer span has none, but that makes no difference. -/
theorem versions_of_newer_span_clash :
    let flagged := spanModel 1 (some 1) (some (.bool true))
    let plain := spanModel 2 (some 2) none
    let named := spanModel 3 (some 2) (some (.string "x"))
    let numbered := spanModel 4 (some 2) (some (.int 1))
    let span : Grouping := ⟨"span", 1, .largest⟩
    let version : Grouping := ⟨"version", 1, .largest⟩
    let policy := Policy.ofGroupings [span, version]
    artifactsToCollect policy [flagged, plain, named] = .ok [flagged, plain] ∧
      artifactsToCollect policy [flagged, plain, named, numbered] =
        .error (.mixedTypes "version" .string .int) ∧
      (∃ before level, level.propertyName = "version" ∧
        (PolicyError.mixedTypes "version" .string .int).Reports [span, version] before level
          [flagged, plain, named, numbered] .string .int) ∧
      ∃ e, artifactsToCollect policy [numbered, named, plain, flagged] = .error e ∧
        (PolicyError.mixedTypes "version" .string .int).Agrees e := by
  intro flagged plain named numbered span version policy
  have hrefused : artifactsToCollect policy [flagged, plain, named, numbered] =
      .error (.mixedTypes "version" .string .int) := by decide +kernel
  obtain ⟨_, _, hreports, _, hperm⟩ :=
    refused_exactly_for_cause policy [flagged, plain, named, numbered]
  obtain ⟨before, level, expected, found, hreport⟩ := hreports ⟨[span, version]⟩ _ rfl hrefused
  obtain ⟨hname, rfl, rfl⟩ := PolicyError.mixedTypes.inj hreport.error
  obtain ⟨hsame, hagrees⟩ := hperm [numbered, named, plain, flagged]
    (List.reverse_perm [flagged, plain, named, numbered])
  obtain ⟨e, he⟩ := hsame.mpr ⟨_, hrefused⟩
  exact ⟨by decide +kernel, hrefused, ⟨before, level, hname.symm, hreport⟩, e, he,
    hagrees _ e hrefused he⟩

end ArtifactGC

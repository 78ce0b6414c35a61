import ArtifactGC.Proofs.Evaluation
import ArtifactGC.Proofs.Services

/-!
# Decisions on what is left

Artifacts disappear between two evaluations of a policy. When only such artifacts are gone that the
policy collects, it decides about the rest as before: `partial_deletion_keeps_decision`. The reason
is that every value that is kept in a group at some level belongs to an artifact that survives all
levels, so that no group and no rank changes. When kept artifacts are gone too, others may be
promoted, and with them values of another kind may meet, but nothing that was kept is collected:
`removal_condemns_nothing_kept`.
-/

namespace ArtifactGC

/-! ## Groups keep their survivors -/

namespace Grouping

variable {level : Grouping} {group fewer : List Artifact}

/-- Of a group that is not empty a level keeps some artifact. -/
theorem exists_kept (level : Grouping) (h : group ≠ []) :
    ∃ a ∈ group, level.Keeps group (a.property? level.propertyName) := by
  obtain ⟨a, ha⟩ := List.exists_mem_of_ne_nil group h
  by_cases hlimit : level.limit = 0
  · refine ⟨a, ha, ?_⟩
    cases a.property? level.propertyName <;> exact .inl hlimit
  · obtain ⟨n, hn⟩ := Nat.exists_eq_succ_of_ne_zero hlimit
    cases hranked : level.ranked group with
    | nil =>
      have hperm : (level.ranked group).Perm (level.values group) := perm_ranked
      rw [hranked] at hperm
      have hnone : level.values group = [] := hperm.symm.eq_nil
      refine ⟨a, ha, ?_⟩
      cases hvalue : a.property? level.propertyName with
      | some v =>
        have hmem : v ∈ level.values group := mem_values.mpr ⟨a, ha, hvalue⟩
        rw [hnone] at hmem
        cases hmem
      | none =>
        refine .inr ?_
        rw [hnone]
        exact Nat.pos_of_ne_zero hlimit
    | cons v rest =>
      have hfirst : v ∈ (level.ranked group).take level.limit := by
        rw [hranked, hn, List.take_succ_cons]
        exact List.mem_cons_self
      obtain ⟨hmem, hrank⟩ := mem_take_ranked.mp hfirst
      obtain ⟨b, hb, hvalue⟩ := mem_values.mp hmem
      exact ⟨b, hb, hvalue ▸ .inr hrank⟩

/-- Where a group has as many values as a level keeps, so has every list with the first ones. -/
private theorem limit_le_length {vs : List PropertyValue}
    (hmany : level.limit ≤ (level.values group).length)
    (hsub : (level.ranked group).take level.limit ⊆ vs) : level.limit ≤ vs.length := by
  have hlength : ((level.ranked group).take level.limit).length = level.limit := by
    rw [List.length_take, perm_ranked.length_eq]
    exact Nat.min_eq_left hmany
  have hnodup : ((level.ranked group).take level.limit).Nodup :=
    (perm_ranked.nodup_iff.mpr nodup_values).sublist (List.take_sublist _ _)
  exact hlength ▸ hnodup.length_le_of_subset hsub

/-- Where the values that a level keeps of a group are all left, it keeps of what is left nothing
that it does not keep of the group. -/
theorem Keeps.of_fewer
    (hkept : ∀ v ∈ level.values group, level.Keeps group (some v) → v ∈ level.values fewer)
    {v : Option PropertyValue} (h : level.Keeps fewer v) : level.Keeps group v := by
  have hfirst {w : PropertyValue} (hw : w ∈ (level.ranked group).take level.limit) :
      w ∈ level.values fewer := by
    obtain ⟨hmem, hrank⟩ := mem_take_ranked.mp hw
    exact hkept w hmem (.inr hrank)
  by_contra hnot
  cases v with
  | some v =>
    obtain ⟨hlimit, hrank⟩ := not_or.mp hnot
    have hbefore : level.limit ≤ level.rank group v := Nat.not_lt.mp hrank
    -- all that the level keeps first is preferred to a value that it does not keep
    have hsub : (level.ranked group).take level.limit ⊆
        (level.values fewer).filter (level.prefers · v) := by
      intro w hw
      refine List.mem_filter.mpr ⟨hfirst hw, ?_⟩
      exact prefers_of_rank_lt (Nat.lt_of_lt_of_le (mem_take_ranked.mp hw).2 hbefore)
    have hmany := limit_le_length (Nat.le_trans hbefore List.countP_le_length) hsub
    rw [← List.countP_eq_length_filter] at hmany
    exact absurd (h.resolve_left hlimit) (Nat.not_lt.mpr hmany)
  | none =>
    obtain ⟨hlimit, hcount⟩ := not_or.mp hnot
    have hmany := limit_le_length (Nat.not_lt.mp hcount) fun _ hw => hfirst hw
    exact absurd (h.resolve_left hlimit) (Nat.not_lt.mpr hmany)

end Grouping

section Levels

variable {before levels : List Grouping} {group fewer : List Artifact} {a : Artifact}

/-- In a group that is not empty some artifact survives. -/
theorem exists_survivor (levels : List Grouping) (h : group ≠ []) :
    ∃ a, Survives levels group a := by
  induction levels generalizing group with
  | nil => exact List.exists_mem_of_ne_nil group h
  | cons level levels ih =>
    obtain ⟨a, ha, hkeeps⟩ := level.exists_kept h
    have hmem : a ∈ bucket level.propertyName group (a.property? level.propertyName) :=
      List.mem_filter.mpr ⟨ha, decide_eq_true rfl⟩
    obtain ⟨b, hb⟩ := ih (List.ne_nil_of_mem hmem)
    exact ⟨b, hb.cons hkeeps⟩

/-- Where the survivors of some levels are all left, the artifacts that survive the first of these
levels in what is left survive them in the group. -/
theorem Survives.of_fewer (after : List Grouping) (hsub : fewer ⊆ group)
    (hkept : ∀ b, Survives (before ++ after) group b → b ∈ fewer)
    (h : Survives before fewer a) : Survives before group a := by
  induction before generalizing group fewer with
  | nil => exact hsub h
  | cons level before ih =>
    obtain ⟨hkeeps, hrest⟩ := h
    have hvalues : ∀ v ∈ level.values group, level.Keeps group (some v) →
        v ∈ level.values fewer := by
      intro v hv hkeeps
      obtain ⟨b, hb, hvalue⟩ := Grouping.mem_values.mp hv
      have hmem : b ∈ bucket level.propertyName group (some v) :=
        List.mem_filter.mpr ⟨hb, decide_eq_true hvalue⟩
      -- a value that is kept belongs to an artifact that survives all levels
      obtain ⟨c, hc⟩ := exists_survivor (before ++ after) (List.ne_nil_of_mem hmem)
      exact Grouping.mem_values.mpr ⟨c, hkept c (hc.cons hkeeps), property?_of_mem_bucket hc.mem⟩
    have hkeeps := hkeeps.of_fewer hvalues
    refine ⟨hkeeps, ih (List.filter_subset _ hsub) (fun b hb => ?_) hrest⟩
    have hvalue := property?_of_mem_bucket hb.mem
    exact List.mem_filter.mpr ⟨hkept b (hb.cons hkeeps), decide_eq_true hvalue⟩

end Levels

/-! ## The newest stay -/

/-- Where all newest artifacts are left, as many as are kept are left that were published after an
artifact that is not kept. -/
theorem publishedAfter_of_fewer {rule : RecencyRule} {artifacts fewer : List Artifact}
    {a : Artifact} (hnodup : artifacts.Nodup)
    (hkept : ∀ b ∈ artifacts, b ∉ notRecent rule artifacts → b ∈ fewer)
    (ha : a ∈ notRecent rule artifacts) : rule.limit ≤ publishedAfter a.createTime fewer := by
  -- after the newest artifact that is not kept only kept ones were published
  obtain ⟨d, hd, hnewest⟩ := exists_newest (List.ne_nil_of_mem ha)
  have hleft : artifacts.filter (d.createTime.isBefore ·.createTime) ⊆
      fewer.filter (d.createTime.isBefore ·.createTime) := by
    intro b hb
    obtain ⟨hmem, hlater⟩ := List.mem_filter.mp hb
    refine List.mem_filter.mpr ⟨hkept b hmem fun hb => ?_, hlater⟩
    exact absurd hlater (ne_true_of_eq_false (hnewest b hb))
  calc rule.limit ≤ publishedAfter d.createTime artifacts := (mem_notRecent.mp hd).2.2
    _ = (artifacts.filter (d.createTime.isBefore ·.createTime)).length :=
      List.countP_eq_length_filter
    _ ≤ (fewer.filter (d.createTime.isBefore ·.createTime)).length :=
      (hnodup.filter _).length_le_of_subset hleft
    _ = publishedAfter d.createTime fewer := List.countP_eq_length_filter.symm
    _ ≤ publishedAfter a.createTime fewer := publishedAfter_anti (hnewest a ha) fewer

/-! ## Decisions -/

section Decisions

variable {policy : Policy} {artifacts fewer collected : List Artifact}

/-- Where all is left that is not collected, a rule that can be evaluated can be evaluated again,
and it drops of what is left all that it dropped. -/
theorem Retention.again {rule : Retention} (hnodup : artifacts.Nodup)
    (hsub : fewer ⊆ artifacts) (hkept : ∀ a ∈ artifacts, ¬ rule.Drops artifacts a → a ∈ fewer)
    (hevaluates : rule.Evaluates artifacts) :
    rule.Evaluates fewer ∧ ∀ a ∈ fewer, rule.Drops artifacts a → rule.Drops fewer a := by
  cases rule with
  | recency rule =>
    refine ⟨trivial, fun a ha hdrops => ⟨hdrops.1, ?_⟩⟩
    refine publishedAfter_of_fewer hnodup (fun b hb hnot => hkept b hb fun hdrops => ?_) ?_
    · exact hnot (mem_notRecent.mpr ⟨hb, hdrops⟩)
    · exact mem_notRecent.mpr ⟨hsub ha, hdrops⟩
  | groups rule =>
    have hleft (before after : List Grouping) (h : rule.groupings = before ++ after)
        (a : Artifact) : Survives before fewer a → Survives before artifacts a := by
      refine Survives.of_fewer after hsub fun b hb => ?_
      rw [← h] at hb
      exact hkept b hb.mem fun hdrops => hdrops hb
    constructor
    · rw [Retention.evaluates_groups] at hevaluates ⊢
      intro before level after h
      exact (hevaluates before level after h).mono (hleft before (level :: after) h)
    · intro a _ hdrops hsurvives
      exact hdrops (hleft rule.groupings [] (List.append_nil _).symm a hsurvives)

/-- Artifacts in the order of a list without duplicates are determined by their members. -/
private theorem eq_of_sublists {xs ys : List Artifact} (hnodup : artifacts.Nodup)
    (hxs : xs.Sublist artifacts) (hys : ys.Sublist artifacts) (hmem : ∀ a, a ∈ xs ↔ a ∈ ys) :
    xs = ys := by
  rw [← hnodup.perm_iff_eq_of_sublist hxs hys]
  exact (List.perm_ext_iff_of_nodup (hnodup.sublist hxs) (hnodup.sublist hys)).mpr hmem

/-- Where all is left that a policy does not collect, it collects what is left of the others. -/
theorem collected_of_remaining (hnodup : (artifacts.map (·.id)).Nodup)
    (hsub : fewer.Sublist artifacts) (h : artifactsToCollect policy artifacts = .ok collected)
    (hkept : ∀ a ∈ artifacts, a ∉ collected → a ∈ fewer) :
    artifactsToCollect policy fewer = .ok (collected.filter (· ∈ fewer)) := by
  obtain ⟨rule, hrule, hevaluates⟩ := exists_collected.mp ⟨collected, h⟩
  have hmem (a : Artifact) := mem_collected (a := a) hnodup hrule h
  obtain ⟨hagain, hdrops⟩ := Retention.again (.of_map _ hnodup) hsub.subset
    (fun a ha hnot => hkept a ha fun hcollected => hnot ((hmem a).mp hcollected).2) hevaluates
  obtain ⟨again, hok⟩ := exists_collected.mpr ⟨rule, hrule, hagain⟩
  have hmem' (a : Artifact) := mem_collected (a := a) (hnodup.sublist (hsub.map _)) hrule hok
  have hsublist : again.Sublist artifacts := (artifactsToCollect_sublist hok).trans hsub
  have hsublist' : (collected.filter (· ∈ fewer)).Sublist artifacts :=
    List.filter_sublist.trans (artifactsToCollect_sublist h)
  rw [hok]
  refine congrArg _ (eq_of_sublists (.of_map _ hnodup) hsublist hsublist' fun a => ?_)
  rw [hmem', List.mem_filter, hmem, decide_eq_true_eq]
  constructor
  · rintro ⟨ha, hdropped⟩
    exact ⟨⟨hsub.subset ha, hdropped.mono hsub ha⟩, ha⟩
  · rintro ⟨⟨_, hdropped⟩, ha⟩
    exact ⟨ha, hdrops a ha hdropped⟩

end Decisions

/-- When only artifacts are gone that a policy collects, it collects of what is left exactly what it
collected of it before, in the same order; of what it keeps it collects nothing. -/
theorem partial_deletion_keeps_decision (policy : Policy)
    (artifacts collected remaining : List Artifact) (hnodup : (artifacts.map (·.id)).Nodup)
    (h : artifactsToCollect policy artifacts = .ok collected)
    (hsub : remaining.Sublist artifacts)
    (hkept : ∀ a ∈ artifacts, a ∉ collected → a ∈ remaining) :
    artifactsToCollect policy remaining = .ok (collected.filter (· ∈ remaining)) ∧
      artifactsToCollect policy (artifacts.filter (· ∉ collected)) = .ok [] := by
  refine ⟨collected_of_remaining hnodup hsub h hkept, ?_⟩
  have hsurvivors := collected_of_remaining hnodup
    (List.filter_sublist (p := fun a => decide (a ∉ collected))) h
    fun a ha hnot => List.mem_filter.mpr ⟨ha, decide_eq_true hnot⟩
  have hnone : collected.filter (· ∈ artifacts.filter (· ∉ collected)) = [] := by
    rw [List.filter_eq_nil_iff]
    intro a ha
    simp [ha]
  rw [hsurvivors, hnone]

/-- Two of the three collected models are gone; the one without a version is still collected, as
its span still has a model with one. -/
theorem model_without_version_stays_collected :
    let first := spanModel 1 (some 1) (some (.int 1))
    let second := spanModel 2 (some 1) (some (.int 2))
    let third := spanModel 3 (some 2) (some (.int 1))
    let fourth := spanModel 4 (some 2) none
    let fifth := spanModel 5 none (some (.int 9))
    let models := [first, second, third, fourth, fifth]
    let policy := Policy.ofGroupings [⟨"span", 2, .smallest⟩, ⟨"version", 1, .largest⟩]
    (models.map (·.id)).Nodup ∧
      artifactsToCollect policy models = .ok [first, fourth, fifth] ∧
      [second, third, fourth].Sublist models ∧
      (∀ a ∈ models, a ∉ [first, fourth, fifth] → a ∈ [second, third, fourth]) ∧
      artifactsToCollect policy [second, third, fourth] = .ok [fourth] ∧
      artifactsToCollect policy [second, third] = .ok [] := by
  intro first second third fourth fifth models policy
  have hnodup : (models.map (·.id)).Nodup := by decide +kernel
  have hcollected : artifactsToCollect policy models = .ok [first, fourth, fifth] := by
    decide +kernel
  have hsub : [second, third, fourth].Sublist models := by decide +kernel
  have hkept : ∀ a ∈ models, a ∉ [first, fourth, fifth] → a ∈ [second, third, fourth] := by
    decide +kernel
  obtain ⟨hremaining, hsurvivors⟩ :=
    partial_deletion_keeps_decision policy models _ _ hnodup hcollected hsub hkept
  refine ⟨hnodup, hcollected, hsub, hkept, ?_, ?_⟩
  · rw [hremaining]
    decide +kernel
  · rw [← hsurvivors]
    decide +kernel

/-- Whatever artifacts are gone, a policy collects nothing of what is left that it kept, unless
values of different kinds meet now. -/
theorem removal_condemns_nothing_kept (policy : Policy)
    (artifacts collected remaining : List Artifact) (hnodup : (artifacts.map (·.id)).Nodup)
    (h : artifactsToCollect policy artifacts = .ok collected)
    (hsub : remaining.Sublist artifacts) :
    (∃ again, artifactsToCollect policy remaining = .ok again ∧ ∀ a ∈ again, a ∈ collected) ∨
      ∃ property expected found,
        artifactsToCollect policy remaining = .error (.mixedTypes property expected found) := by
  obtain ⟨rule, hrule⟩ := exists_retention h
  cases hremaining : artifactsToCollect policy remaining with
  | ok again => exact .inl ⟨again, rfl, fun a ha => collected_of_fewer hnodup hsub h hremaining ha⟩
  | error e =>
    obtain ⟨property, expected, found, rfl⟩ := mixedTypes_of_error hrule hremaining
    exact .inr ⟨property, expected, found, rfl⟩

/-- Without the newest span its predecessor is promoted. Of one model of each span the older one is
still collected; of the older span alone the versions are of different kinds. -/
theorem promoted_span_has_mixed_versions :
    let named := spanModel 1 (some 1) (some (.string "x"))
    let numbered := spanModel 2 (some 1) (some (.int 1))
    let early := spanModel 3 (some 2) (some (.int 2))
    let late := spanModel 4 (some 2) (some (.int 3))
    let models := [named, numbered, early, late]
    let policy := Policy.ofGroupings [⟨"span", 1, .largest⟩, ⟨"version", 1, .largest⟩]
    (models.map (·.id)).Nodup ∧
      artifactsToCollect policy models = .ok [named, numbered, early] ∧
      [named, early].Sublist models ∧
      artifactsToCollect policy [named, early] = .ok [named] ∧
      (∀ a ∈ [named], a ∈ [named, numbered, early]) ∧
      artifactsToCollect policy [named, numbered] =
        .error (.mixedTypes "version" .string .int) := by
  intro named numbered early late models policy
  have hnodup : (models.map (·.id)).Nodup := by decide +kernel
  have hcollected : artifactsToCollect policy models = .ok [named, numbered, early] := by
    decide +kernel
  have hsub : [named, early].Sublist models := by decide +kernel
  have hremaining : artifactsToCollect policy [named, early] = .ok [named] := by decide +kernel
  refine ⟨hnodup, hcollected, hsub, hremaining, ?_, by decide +kernel⟩
  rcases removal_condemns_nothing_kept policy models _ _ hnodup hcollected hsub with
    ⟨again, hagain, hstays⟩ | ⟨property, expected, found, herror⟩
  · obtain rfl : [named] = again := Except.ok.inj (hremaining.symm.trans hagain)
    exact hstays
  · rw [hremaining] at herror
    cases herror

end ArtifactGC

import ArtifactGC.Proofs.Live
import ArtifactGC.Proofs.Reloading

/-!
# What a store lists as live

The artifacts that a store lists under an output key are determined by its records and events:
`Store.ListsUnder` says which artifacts they are and in which order, and no other list has these
properties. `live_outputs_are_listed` says that a store answers with these lists and with no other
entry, whatever was written into it and in which order, so that records count as they were last
written, also those that were written after their events.
-/

namespace ArtifactGC

namespace Store

/-- The place of the first of some events that is on an artifact and chosen. -/
def firstOn (p : Event → Bool) (es : List Event) (id : ArtifactId) : Nat :=
  es.findIdx fun e => e.artifactId = id ∧ p e

/-- The place of the first event by which a node publishes an artifact under an output key. -/
def firstPublication (s : Store) (node : NodeUid) (key : String) (id : ArtifactId) : Nat :=
  firstOn (fun e => s.Publishes node key e) s.events id

/-- The artifact is live, and an event of a node publishes it under an output key. -/
def IsLiveOutput (s : Store) (node : NodeUid) (key : String) (a : Artifact) : Prop :=
  s.artifacts.find? a.id = some a ∧ a.state = .live ∧
    ∃ e ∈ s.events, e.artifactId = a.id ∧ s.Publishes node key e

/-- The artifacts are those that a node published under an output key and that are live. -/
structure ListsUnder (s : Store) (node : NodeUid) (key : String) (as : List Artifact) : Prop where
  /-- There is one. -/
  nonempty : as ≠ []
  /-- None is listed twice. -/
  nodup : (as.map (·.id)).Nodup
  /-- The live artifacts that an event publishes are listed, with their records. -/
  mem : ∀ a, a ∈ as ↔ s.IsLiveOutput node key a
  /-- They are listed in the order of the first events that publish them. -/
  ordered : as.Pairwise fun a b =>
    s.firstPublication node key a.id < s.firstPublication node key b.id

variable {s : Store} {node : NodeUid} {key : String}

private theorem firstOn_cons_self {p : Event → Bool} {e : Event} {es : List Event}
    {id : ArtifactId} (hid : e.artifactId = id) (hp : p e = true) :
    firstOn p (e :: es) id = 0 := by
  simp [firstOn, List.findIdx_cons, hid, hp]

private theorem firstOn_cons {p : Event → Bool} {e : Event} {es : List Event} {id : ArtifactId}
    (h : ¬ (e.artifactId = id ∧ p e = true)) : firstOn p (e :: es) id = firstOn p es id + 1 := by
  rw [firstOn, List.findIdx_cons, decide_eq_false h]
  rfl

/-- What is found by chosen events, each once, is in the order of the first events that find it. -/
private theorem pairwise_firstOn (s : Store) (p : Event → Bool) (es : List Event) :
    (distinctOn Artifact.id ((es.filter p).filterMap fun e => s.live? e.artifactId)).Pairwise
      fun a b => firstOn p es a.id < firstOn p es b.id := by
  induction es with
  | nil => exact .nil
  | cons e es ih =>
    generalize hfound : (es.filter p).filterMap (fun e => s.live? e.artifactId) = found at ih
    -- what the head does not find is found one place later when counted from the head
    have hlater {as : List Artifact} (hsub : as.Sublist (distinctOn Artifact.id found))
        (hother : ∀ a ∈ as, ¬ (e.artifactId = a.id ∧ p e = true)) :
        as.Pairwise fun a b => firstOn p (e :: es) a.id < firstOn p (e :: es) b.id := by
      refine (ih.sublist hsub).imp_of_mem fun ha hb hlt => ?_
      rw [firstOn_cons (hother _ ha), firstOn_cons (hother _ hb)]
      exact Nat.succ_lt_succ hlt
    by_cases hp : p e = true
    · rw [List.filter_cons_of_pos hp, List.filterMap_cons]
      cases hlive : s.live? e.artifactId with
      | none =>
        simp only [hfound]
        refine hlater (.refl _) fun a ha hboth => ?_
        obtain ⟨hid, _⟩ := hboth
        obtain ⟨e', _, hfind⟩ :=
          List.mem_filterMap.mp (hfound ▸ mem_of_mem_distinctOn ha)
        rw [hid, id_of_live? hfind, hfind] at hlive
        cases hlive
      | some a =>
        have hid : a.id = e.artifactId := id_of_live? hlive
        simp only [hfound, distinctOn]
        have hother : ∀ b ∈ (distinctOn Artifact.id found).filter (fun b => b.id ≠ a.id),
            ¬ (e.artifactId = b.id ∧ p e = true) := by
          rintro b hb ⟨hsame, _⟩
          have hne : b.id ≠ a.id := of_decide_eq_true (List.mem_filter.mp hb).2
          exact hne (hsame.symm.trans hid.symm)
        refine List.pairwise_cons.mpr ⟨fun b hb => ?_, hlater List.filter_sublist hother⟩
        rw [firstOn_cons_self hid.symm hp, firstOn_cons (hother b hb)]
        exact Nat.succ_pos _
    · rw [List.filter_cons_of_neg hp, hfound]
      exact hlater (.refl _) fun a _ hand => hp hand.2

/-- The outputs of a node come in the order of the first events that publish them. -/
theorem pairwise_outputs : (s.outputs node key).Pairwise fun a b =>
    s.firstPublication node key a.id < s.firstPublication node key b.id :=
  pairwise_firstOn s (fun e => s.Publishes node key e) s.events

/-- The outputs of a node are the live artifacts that it published. -/
theorem mem_outputs_iff_isLiveOutput {a : Artifact} :
    a ∈ s.outputs node key ↔ s.IsLiveOutput node key a := by
  rw [mem_outputs, live?_eq_some, and_assoc]
  rfl

/-- What is listed under a key is the outputs of the node, if there are any. -/
theorem listsUnder_iff {as : List Artifact} :
    s.ListsUnder node key as ↔ s.outputs node key = as ∧ as ≠ [] := by
  constructor
  · intro h
    have hsame : ∀ a, a ∈ s.outputs node key ↔ a ∈ as := fun a =>
      mem_outputs_iff_isLiveOutput.trans (h.mem a).symm
    have hperm : (s.outputs node key).Perm as :=
      (List.perm_ext_iff_of_nodup nodup_outputs.of_map h.nodup.of_map).mpr hsame
    -- two artifacts cannot each be published before the other
    refine ⟨hperm.eq_of_pairwise (fun a b _ _ hab hba => ?_) pairwise_outputs h.ordered,
      h.nonempty⟩
    exact absurd hba (Nat.lt_asymm hab)
  · rintro ⟨rfl, hne⟩
    exact ⟨hne, nodup_outputs, fun _ => mem_outputs_iff_isLiveOutput, pairwise_outputs⟩

/-- An event that publishes nothing, or of which the store lacks a record, may be missing. -/
theorem liveOutputs_withEvents {before rest : List Event} {e : Event}
    (hevents : s.events = before ++ e :: rest)
    (h : e.kind.isOutput = false ∨ e.outputKey = none ∨ s.artifacts.find? e.artifactId = none ∨
      s.executions.find? e.executionId = none) :
    (s.withEvents (before ++ rest)).liveOutputs node = s.liveOutputs node := by
  have hsame : (s.withEvents (before ++ rest)).publications node = s.publications node := by
    rw [publications, publications, hevents, withEvents, List.filterMap_append,
      List.filterMap_append, List.filterMap_cons_none]
    cases hkey : e.outputKey with
    | none => rfl
    | some key =>
      cases hx : s.executions.find? e.executionId with
      | none => simp
      | some x =>
        cases ha : s.artifacts.find? e.artifactId with
        | none => simp
        | some a =>
          have hkind : e.kind.isOutput = false := by simpa [hkey, hx, ha] using h
          simp [hkind]
  rw [liveOutputs, liveOutputs, hsame]

end Store

/-- After records, events and batches were written into any store, be it empty, loaded or written to
before, in any number and order, it lists under an output key of a node the artifacts that are live
and that an event of an execution of that node publishes under that key, each once, with its record,
and in the order of the first events that do so. There is no other list with these properties, and
keys without such an artifact are absent.
An event contributes nothing if its output is pending, it has no output key, or its artifact or
execution has no record. The record of an artifact or execution is the last one that was written,
before or after the events. -/
theorem live_outputs_are_listed (s : Store) (writes : List StoreWrite) (node : NodeUid) :
    let after := writes.foldl .write s
    (∀ key as, (after.liveOutputs node).find? key = some as ↔ after.ListsUnder node key as) ∧
    (∀ key, (after.liveOutputs node).find? key = none ↔ ∀ a, ¬ after.IsLiveOutput node key a) ∧
    (∀ before e rest, after.events = before ++ e :: rest →
      e.kind = .pendingOutput ∨ e.outputKey = none ∨
        after.artifacts.find? e.artifactId = none ∨ after.executions.find? e.executionId = none →
      (after.withEvents (before ++ rest)).liveOutputs node = after.liveOutputs node) ∧
    (∀ id, after.artifacts.find? id = (s.artifacts.records ++ writes.flatMap (·.artifacts)).findRev?
      fun a => a.id = id) ∧
    (∀ id, after.executions.find? id =
      (s.executions.records ++ writes.flatMap (·.executions)).findRev? fun x => x.id = id) ∧
    after.events = s.events ++ writes.flatMap (·.events) := by
  intro after
  obtain ⟨hartifacts, hexecutions, hevents⟩ := Store.foldl_write s writes
  refine ⟨fun key as => Store.find?_liveOutputs.trans Store.listsUnder_iff.symm, fun key => ?_,
    fun before e rest hsplit h => ?_, fun id => ?_, fun id => ?_, hevents⟩
  · have hnone : (after.liveOutputs node).find? key = none ↔ after.outputs node key = [] := by
      rw [Option.eq_none_iff_forall_ne_some]
      simp only [ne_eq, Store.find?_liveOutputs, not_and, not_not, forall_eq']
    rw [hnone, List.eq_nil_iff_forall_not_mem]
    exact forall_congr' fun a => not_congr Store.mem_outputs_iff_isLiveOutput
  · refine Store.liveOutputs_withEvents hsplit (h.imp_left fun hpending => ?_)
    rw [hpending]
    rfl
  · exact (congrArg (·.find? id) hartifacts).trans (s.artifacts.find?_upsertAll _ id)
  · exact (congrArg (·.find? id) hexecutions).trans (s.executions.find?_upsertAll _ id)

/-- The second model is published first and listed first, with the record that replaced its first
one. The third model is only to be published, another node publishes the first one as a draft, and a
fourth model has no record. -/
theorem moved_model_keeps_its_place :
    let s := Store.ofModels [model 2 "/2", model 1 "/1"]
    let pending := (Event.published ⟨3⟩ ⟨1⟩ "model").withKind .pendingOutput
    let others : List Event := [.published ⟨1⟩ ⟨3⟩ "draft", .published ⟨4⟩ ⟨1⟩ "model",
      .published ⟨2⟩ ⟨1⟩ "model"]
    let writes := .event pending :: others.map .event ++ [.artifact (model 3 "/3"),
      .artifact (model 2 "/moved"), .execution ⟨⟨3⟩, ⟨"pipeline", "reader"⟩, .complete⟩]
    let after := writes.foldl .write s
    after.ListsUnder trainer "model" [model 2 "/moved", model 1 "/1"] ∧
      (∀ a, ¬ after.IsLiveOutput trainer "draft" a) ∧
      after.events = s.events ++ pending :: others ∧
      (after.withEvents (s.events ++ others)).liveOutputs trainer = after.liveOutputs trainer ∧
      after.artifacts.find? ⟨2⟩ = some (model 2 "/moved") := by
  intro s pending others writes after
  obtain ⟨hlisted, habsent, hpending, hartifact, _, hevents⟩ :=
    live_outputs_are_listed s writes trainer
  exact ⟨(hlisted "model" _).mp (by decide +kernel), (habsent "draft").mp (by decide +kernel),
    hevents, hpending s.events pending others hevents (.inl rfl),
    (hartifact ⟨2⟩).trans (by decide +kernel)⟩

end ArtifactGC

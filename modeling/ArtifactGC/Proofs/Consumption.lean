import ArtifactGC.Proofs.Planning
import ArtifactGC.Proofs.Transcripts

/-!
# What the usage filter decides

The usage filter is given candidates and events, and asks a store for executions. The events need
not be those of the store, nor all of them: a store that holds exactly these events and the same
executions decides the same. So the filter fails at the first event that says that a candidate is
consumed by an execution without a record, and otherwise keeps the candidates that no execution
under way consumes. `usage_filter_is_exact` also says what it asks.
-/

namespace ArtifactGC

/-- The event says that one of some artifacts is consumed. -/
def Event.ConsumesAny (ids : List ArtifactId) (e : Event) : Prop :=
  e.Consumes ∧ e.artifactId ∈ ids

instance (ids : List ArtifactId) (e : Event) : Decidable (e.ConsumesAny ids) :=
  inferInstanceAs (Decidable (_ ∧ _))

section Filter

variable {s : Store} {cs : List Artifact} {events : List Event}

/-- All events of a store are on the artifacts that they are on. -/
theorem Store.eventsOn_all (s : Store) (ids : List ArtifactId) :
    s.eventsOn (ids ++ s.events.map (·.artifactId)) = s.events :=
  List.filter_eq_self.mpr fun _ he =>
    decide_eq_true (List.mem_append_right ids (List.mem_map_of_mem he))

theorem mem_consumptions {e : Event} :
    e ∈ consumptions cs events ↔ e ∈ events ∧ e.ConsumesAny (cs.map (·.id)) := by
  simp [consumptions, Event.ConsumesAny]

/-- The usage filter decides as a store would that holds the events that it is given. -/
theorem keeps_retainUnused_verdict (live : NodeUid → LiveOutputs) (groups : GroupFilter) :
    (retainUnused cs events).Keeps (.queries s live groups)
      (· = (s.withEvents events).verdict cs) := by
  have hknows : (Contract.queries s live groups).KnowsExecutions (s.withEvents events) :=
    ⟨fun _ => trivial, Except.ok.inj⟩
  have hcover : cs.map (·.id) ⊆ cs.map (·.id) ++ events.map (·.artifactId) :=
    List.subset_append_left _ _
  have hevents : (s.withEvents events).eventsOn (cs.map (·.id) ++ events.map (·.artifactId)) =
      events := (s.withEvents events).eventsOn_all (cs.map (·.id))
  have hkeeps : (retainUnused cs ((s.withEvents events).eventsOn _)).Keeps
      (.queries s live groups) (· = (s.withEvents events).verdict cs) :=
    keeps_retainUnused hknows hcover rfl nofun
  rwa [hevents] at hkeeps

/-- A verdict is an error at the first event that dangles, if there is one. -/
theorem Store.verdict_eq_error {e : Failure} : s.verdict cs = .error e ↔
    ∃ x, s.firstDangling? (cs.map (·.id)) = some x ∧ e = .missingExecution x.executionId := by
  unfold verdict
  cases s.firstDangling? (cs.map (·.id)) with
  | none => simp
  | some x => simp [eq_comm]

end Filter

/-- The usage filter asks nothing where no candidate is consumed, and otherwise once, for the
executions that consume one. -/
theorem asked_of_yields_retainUnused {cs : List Artifact} {events : List Event}
    {exchanges : List Exchange} {how : Ending (List Artifact)}
    (h : (retainUnused cs events).Yields exchanges how) :
    (consumptions cs events = [] ∧ exchanges = []) ∨
      (consumptions cs events ≠ [] ∧ ∃ answer, exchanges =
        [⟨.executions (ascending ((consumptions cs events).map (·.executionId))), answer⟩]) := by
  unfold retainUnused at h
  by_cases hnil : consumptions cs events = []
  · simp only [hnil, if_true] at h
    exact .inl ⟨hnil, h.1⟩
  · simp only [hnil, if_false] at h
    refine .inr ⟨hnil, ?_⟩
    rcases h with ⟨rfl, _⟩ | ⟨answer, rest, rfl, hrest⟩
    · exact ⟨none, rfl⟩
    · have hrest : rest = [] := by
        cases answer with
        | error e => exact hrest.1
        | ok executions =>
          dsimp only [Procedure.ofStore, Except.mapError, Procedure.ofExcept, Procedure.bind]
            at hrest
          -- whether an execution is missing or not, nothing else is asked
          split at hrest
          · exact hrest.1
          · exact hrest.1
      exact ⟨some answer, by rw [hrest]⟩

/-- With a store in memory the usage filter fails exactly if one of the events says that a candidate
is consumed by an execution without a record, and then with the execution of the first such event,
whatever else is in use. Otherwise it returns, in their order and as often as they are given, the
candidates that no execution that is new or running consumes according to the events. If the events
say that a candidate is consumed, it asks once, namely for the executions that these events name,
each once and in ascending order; if not, it asks nothing. -/
theorem usage_filter_is_exact (cs : List Artifact) (events : List Event) (m : Memory) :
    let run := (retainUnused cs events).run (Memory.services .normal) m
    let ids := cs.map (·.id)
    (∀ e, run.ending = .failed e ↔ ∃ x,
      events.find? (fun x => m.store.Dangles ids x) = some x ∧
        e = .missingExecution x.executionId) ∧
    ((∀ x ∈ events, ¬ m.store.Dangles ids x) → run.ending = .returned (cs.filter fun a =>
      ¬ ∃ x ∈ events, x.artifactId = a.id ∧ x.Consumes ∧ m.store.OfUnderWay x)) ∧
    ((∀ x ∈ events, ¬ x.ConsumesAny ids) → run.exchanges = []) ∧
    ((∃ x ∈ events, x.ConsumesAny ids) → ∃ asked answer,
      run.exchanges = [⟨.executions asked, answer⟩] ∧ asked.Pairwise (compare · · = .lt) ∧
      ∀ id, id ∈ asked ↔ ∃ x ∈ events, x.ConsumesAny ids ∧ x.executionId = id) ∧
    run.state = m := by
  intro run ids
  have hends : run.Ends (.ofExcept ((m.store.withEvents events).verdict cs)) m :=
    (ends_of_keeps_queries Conditions.normal_answersQueries
      (keeps_retainUnused_verdict _ _)).1
  have hasked := asked_of_yields_retainUnused (Procedure.yields_run _ _ m : Procedure.Yields
    (retainUnused cs events) run.exchanges run.ending)
  have hnone : consumptions cs events = [] ↔ ∀ x ∈ events, ¬ x.ConsumesAny ids := by
    simp only [List.eq_nil_iff_forall_not_mem, mem_consumptions, not_and, ids]
  refine ⟨fun e => ?_, fun hknown => ?_, fun hall => ?_, fun ⟨x, hx, hconsumes⟩ => ?_, hends.state⟩
  · have herror : run.ending = .failed e ↔ (m.store.withEvents events).verdict cs = .error e := by
      rw [hends.ending]
      cases (m.store.withEvents events).verdict cs <;> simp [Ending.ofExcept]
    exact herror.trans Store.verdict_eq_error
  · have hfirst : (m.store.withEvents events).firstDangling? ids = none :=
      Store.firstDangling?_eq_none.mpr hknown
    rw [hends.ending, Store.verdict, hfirst]
    rfl
  · rcases hasked with ⟨_, hexchanges⟩ | ⟨hsome, _⟩
    · exact hexchanges
    · exact absurd (hnone.mpr hall) hsome
  · rcases hasked with ⟨hnil, _⟩ | ⟨_, answer, hexchanges⟩
    · exact absurd hconsumes (hnone.mp hnil x hx)
    · refine ⟨_, answer, hexchanges, pairwise_ascending _, fun id => ?_⟩
      simp only [mem_ascending, List.mem_map, mem_consumptions, and_assoc, ids]

/-- Of three models one is consumed by a reader under way and one by an execution that has ended. An
unknown execution consumes another model, which is no candidate, and does not matter; when it also
consumes a candidate, the filter fails. -/
theorem model_of_reader_is_left_out :
    let m : Memory := ⟨(Store.ofModels []).withReader 2 .running, .empty⟩
    let cs := [model 1 "/1", model 2 "/2", model 1 "/1"]
    let events : List Event := [.consumed ⟨2⟩ ⟨2⟩, .consumed ⟨3⟩ ⟨9⟩, .consumed ⟨1⟩ ⟨1⟩,
      .published ⟨1⟩ ⟨2⟩ "model", .consumed ⟨2⟩ ⟨1⟩]
    let lost := events ++ [.consumed ⟨1⟩ ⟨9⟩]
    let run (events : List Event) := (retainUnused cs events).run (Memory.services .normal) m
    (∀ x ∈ events, ¬ m.store.Dangles (cs.map (·.id)) x) ∧
      (run events).ending = .returned [model 1 "/1", model 1 "/1"] ∧
      (∃ x ∈ events, x.ConsumesAny (cs.map (·.id))) ∧
      (∃ asked answer, (run events).exchanges = [⟨.executions asked, answer⟩] ∧
        asked.Pairwise (compare · · = .lt) ∧ ⟨1⟩ ∈ asked ∧ ⟨2⟩ ∈ asked ∧ ⟨9⟩ ∉ asked) ∧
      (run lost).ending = .failed (.missingExecution ⟨9⟩) := by
  intro m cs events lost run
  have hknown : ∀ x ∈ events, ¬ m.store.Dangles (cs.map (·.id)) x := by decide +kernel
  have hconsumed : ∃ x ∈ events, x.ConsumesAny (cs.map (·.id)) := by decide +kernel
  obtain ⟨_, hreturned, _, hasked, _⟩ := usage_filter_is_exact cs events m
  obtain ⟨hfailed, _⟩ := usage_filter_is_exact cs lost m
  obtain ⟨asked, answer, hexchanges, hascends, hmem⟩ := hasked hconsumed
  refine ⟨hknown, (hreturned hknown).trans (by decide +kernel), hconsumed,
    ⟨asked, answer, hexchanges, hascends, (hmem _).mpr (by decide +kernel),
      (hmem _).mpr (by decide +kernel), mt (hmem _).mp (by decide +kernel)⟩,
    (hfailed _).mpr ⟨.consumed ⟨1⟩ ⟨9⟩, by decide +kernel, rfl⟩⟩

end ArtifactGC

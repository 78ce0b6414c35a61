import ArtifactGC.Proofs.ByteOrder
import ArtifactGC.Proofs.Candidates
import ArtifactGC.Proofs.Live
import ArtifactGC.Proofs.Pass
import ArtifactGC.Proofs.Runs
import ArtifactGC.Proofs.Services

/-!
# What a plan lists

With a store in memory that works, a plan asks only queries, changes nothing, and ends as
`Store.selected` says. If the pipeline group filter holds nothing back either, its result can be
read off the records of the store: the plan exists when no event dangles on an artifact that a
policy collects, and it then lists, each once, the collected artifacts that are not in flight.
Otherwise it fails at the first dangling event under the smallest output key that has one.
-/

namespace ArtifactGC

/-! ## Queries to a store that works -/

/-- Nothing goes wrong at the operations of the store by which it is asked. -/
def Conditions.AnswersQueries (c : Conditions) : Prop :=
  ∀ operation, operation ≠ .put → c.fault operation = none

theorem Conditions.normal_answersQueries : Conditions.normal.AnswersQueries := fun _ _ => rfl

/-- Nothing goes wrong at the store, and a function serves as the filter. -/
def Conditions.filtering (groups : GroupFilter) : Conditions := { Conditions.normal with groups }

theorem Conditions.filtering_answersQueries (groups : GroupFilter) :
    (Conditions.filtering groups).AnswersQueries := fun _ _ => rfl

/-- What is answered to the question for live artifacts. -/
def Conditions.live (c : Conditions) (s : Store) (node : NodeUid) : LiveOutputs :=
  c.liveOverride.getD (s.liveOutputs node)

section Answers

variable {c : Conditions} (hc : c.AnswersQueries)
include hc

/-- A question to a store that works is answered as it should. -/
theorem underFault_of_answersQueries {α : Type} (operation : StoreOperation)
    (hne : operation ≠ .put) (answer : α) (before after : Memory) :
    Memory.underFault (c.fault operation) answer before after = (some (.ok answer), after) := by
  rw [hc operation hne]
  rfl

/-- Queries are answered from the records and by the filter, and change nothing. -/
theorem answer_query {request : Request} (hquery : request.IsQuery) (m : Memory) :
    ∃ answer, (Memory.services c).answer request m = (some answer, m) ∧
      ∀ answer', (Contract.queries m.store (c.live m.store) c.groups).answers request answer' ↔
        answer' = answer := by
  cases request with
  | liveOutputs node =>
    exact ⟨_, underFault_of_answersQueries hc .liveOutputs nofun _ _ _, fun _ => Iff.rfl⟩
  | events ids => exact ⟨_, underFault_of_answersQueries hc .events nofun _ _ _, fun _ => Iff.rfl⟩
  | executions ids =>
    exact ⟨_, underFault_of_answersQueries hc .executions nofun _ _ _, fun _ => Iff.rfl⟩
  | unusedInGroups usage cs => exact ⟨_, rfl, fun _ => Iff.rfl⟩
  | put | isDirectory | isPresent | remove | removeRecursive => cases hquery

/-- A store that works honours the contract of fixed answers. -/
theorem services_honours_queries (m : Memory) :
    (Memory.services c).Honours (.queries m.store (c.live m.store) c.groups) (· = m) where
  answers := by
    rintro request _ answer rfl hquery hanswer
    obtain ⟨answer', hanswer', hfixed⟩ := answer_query hc hquery _
    rw [hanswer'] at hanswer
    exact (hfixed answer).mpr (Option.some.inj hanswer).symm
  keeps := by
    rintro request _ rfl hquery
    obtain ⟨answer, hanswer, _⟩ := answer_query hc hquery _
    rw [hanswer]

/-- A procedure that only asks queries, with one way to end for the answers that there are, ends
that way and changes nothing. -/
theorem ends_of_keeps_queries {α : Type} {p : Procedure α} {r : Except Failure α} {m : Memory}
    (h : p.Keeps (.queries m.store (c.live m.store) c.groups) (· = r)) :
    (p.run (Memory.services c) m).Ends (.ofExcept r) m ∧
      ∀ x ∈ (p.run (Memory.services c) m).exchanges, x.request.IsQuery := by
  have hs := services_honours_queries hc m
  obtain ⟨hstate, hasks, hends⟩ := h.run hs rfl
  have hcrash := h.not_crashed hs (fun {request m'} _ hquery => by
    obtain ⟨answer, hanswer, _⟩ := answer_query hc hquery m'
    rw [hanswer]
    exact Option.some_ne_none answer) rfl
  refine ⟨⟨?_, hstate⟩, hasks⟩
  cases hending : (p.run (Memory.services c) m).ending with
  | returned a => rw [← hends (.ok a) hending]; rfl
  | failed e => rw [← hends (.error e) hending]; rfl
  | crashed => exact absurd hending hcrash

end Answers

/-- A plan finds what is selected of the node. -/
theorem keeps_plan_queries {s : Store} {live : NodeUid → LiveOutputs} {groups : GroupFilter}
    {uid : NodeUid} {node : NodeSpec} (hid : uid.nodeId = node.id) :
    (plan uid node).Keeps (.queries s live groups)
      (· = s.selected groups (live uid) node.policies) := by
  refine keeps_plan (fun hne => absurd hid hne) (fun hempty => ?_) fun _ _ =>
    keeps_candidates_queries s live groups uid node.policies
  have hnone : ∀ key ∈ node.policies.keys, liveUnder (live uid) key = [] := by
    have hentries : node.policies.entries = [] := List.isEmpty_iff.mp hempty
    simp [KeyMap.keys, hentries]
  rw [Store.selected_of_no_live hnone]

/-! ## A filter that holds nothing back -/

/-- All of what a policy does not keep is admitted again. -/
theorem admitted_self {notKept : List Artifact} (h : (notKept.map (·.id)).Nodup) :
    admitted notKept notKept = notKept := by
  have hall : notKept.filter (fun a => a.id ∈ notKept.map (·.id)) = notKept :=
    List.filter_eq_self.mpr fun a ha => decide_eq_true (List.mem_map_of_mem ha)
  rw [admitted, hall, distinctOn_of_nodup h]

namespace Store

variable {s : Store} {key : String} {policy : Policy} {live : List Artifact}

/-- The records of the store alone decide what remains. -/
theorem remaining_passThrough {notKept : List Artifact} (h : (notKept.map (·.id)).Nodup) :
    s.remaining .passThrough policy notKept = s.verdict notKept := by
  unfold remaining
  split
  · rename_i hnil
    have hnone : s.firstDangling? [] = none := by
      rw [firstDangling?_eq_none]
      rintro e _ ⟨_, hid, _⟩
      cases hid
    rw [hnil, verdict, List.map_nil, hnone, idle_nil]
  · change s.verdict (admitted notKept notKept) = s.verdict notKept
    rw [admitted_self h]

/-- What is selected under a key whose policy collects some artifacts. -/
theorem selectedUnder_of_collected (hnodup : (live.map (·.id)).Nodup) {collected : List Artifact}
    (h : artifactsToCollect policy live = .ok collected) :
    s.selectedUnder .passThrough key policy live =
      (s.verdict collected).mapError (.outputKey key) := by
  have hsub := (artifactsToCollect_sublist h).map (·.id)
  rw [selectedUnder, h]
  dsimp only
  rw [remaining_passThrough (hnodup.sublist hsub)]

/-- Something is selected under a key when no event dangles on what its policy collects. -/
theorem exists_selectedUnder_eq_ok (hnodup : (live.map (·.id)).Nodup) :
    (∃ part, s.selectedUnder .passThrough key policy live = .ok part) ↔
      ∀ collected, artifactsToCollect policy live = .ok collected →
        s.firstDangling? (collected.map (·.id)) = none := by
  cases hcollect : artifactsToCollect policy live with
  | error cause =>
    rw [selectedUnder, hcollect]
    simp
  | ok collected =>
    rw [selectedUnder_of_collected hnodup hcollect, verdict]
    cases hfirst : s.firstDangling? (collected.map (·.id)) <;> simp [Except.mapError, hfirst]

/-- What is selected under a key was collected by its policy and is not in flight. -/
theorem mem_selectedUnder (hnodup : (live.map (·.id)).Nodup) {part : List Artifact}
    (h : s.selectedUnder .passThrough key policy live = .ok part) {id : ArtifactId} :
    id ∈ part.map (·.id) ↔ ∃ collected, artifactsToCollect policy live = .ok collected ∧
      id ∈ collected.map (·.id) ∧ ¬ s.InFlight id := by
  cases hcollect : artifactsToCollect policy live with
  | error cause =>
    rw [selectedUnder, hcollect] at h
    obtain rfl := Except.ok.inj h
    simp
  | ok collected =>
    rw [selectedUnder_of_collected hnodup hcollect, verdict] at h
    cases hfirst : s.firstDangling? (collected.map (·.id)) with
    | some e =>
      rw [hfirst] at h
      cases h
    | none =>
      rw [hfirst] at h
      obtain rfl := Except.ok.inj h
      simp only [List.mem_map, mem_idle, Except.ok.injEq, exists_eq_left']
      constructor
      · rintro ⟨a, ⟨ha, hidle⟩, rfl⟩
        exact ⟨⟨a, ha, rfl⟩, hidle⟩
      · rintro ⟨⟨a, ha, rfl⟩, hidle⟩
        exact ⟨a, ⟨ha, hidle⟩, rfl⟩

/-- The failure under a key is that of the first event that dangles on what its policy
collects. -/
theorem selectedUnder_eq_error (hnodup : (live.map (·.id)).Nodup) {e : Failure}
    (h : s.selectedUnder .passThrough key policy live = .error e) :
    ∃ collected x, artifactsToCollect policy live = .ok collected ∧
      s.firstDangling? (collected.map (·.id)) = some x ∧
      e = .outputKey key (.missingExecution x.executionId) := by
  cases hcollect : artifactsToCollect policy live with
  | error cause =>
    rw [selectedUnder, hcollect] at h
    cases h
  | ok collected =>
    rw [selectedUnder_of_collected hnodup hcollect, verdict] at h
    cases hfirst : s.firstDangling? (collected.map (·.id)) with
    | some x =>
      rw [hfirst] at h
      exact ⟨collected, x, rfl, hfirst, (Except.error.inj h).symm⟩
    | none =>
      rw [hfirst] at h
      cases h

/-- The policy of an output key collects these of the live artifacts that a node publishes under
it. -/
def Collects (s : Store) (uid : NodeUid) (policies : KeyMap Policy) (key : String)
    (collected : List Artifact) : Prop :=
  ∃ policy, policies.find? key = some policy ∧
    artifactsToCollect policy (s.outputs uid key) = .ok collected

variable {uid : NodeUid} {policies : KeyMap Policy}

/-- What a policy collects are live records of the store. -/
theorem Collects.live? {collected : List Artifact} (h : s.Collects uid policies key collected)
    {a : Artifact} (ha : a ∈ collected) : s.live? a.id = some a := by
  obtain ⟨policy, _, hcollect⟩ := h
  exact (mem_outputs.mp ((artifactsToCollect_sublist hcollect).subset ha)).1

/-- Artifacts that a policy collects are live and published by the node. -/
theorem Collects.live_and_published {collected : List Artifact}
    (h : s.Collects uid policies key collected) {id : ArtifactId}
    (hid : id ∈ collected.map (·.id)) :
    (∃ a, s.artifacts.find? id = some a ∧ a.state = .live) ∧
      ∃ e ∈ s.events, e.artifactId = id ∧ s.Publishes uid key e := by
  obtain ⟨policy, _, hcollect⟩ := h
  obtain ⟨a, ha, rfl⟩ := List.mem_map.mp hid
  obtain ⟨hlive, hpublished⟩ := mem_outputs.mp ((artifactsToCollect_sublist hcollect).subset ha)
  exact ⟨⟨a, live?_eq_some.mp hlive⟩, hpublished⟩

/-- The live outputs of a node can all be selected from when no event dangles on what its policies
collect. -/
theorem exists_selected_outputs :
    (∃ found, s.selected .passThrough (s.liveOutputs uid) policies = .ok found) ↔
      ∀ key collected, s.Collects uid policies key collected →
        ∀ e ∈ s.events, ¬ s.Dangles (collected.map (·.id)) e := by
  rw [exists_selected_eq_ok]
  simp only [liveUnder_liveOutputs, exists_selectedUnder_eq_ok nodup_outputs,
    firstDangling?_eq_none]
  constructor
  · rintro h key collected ⟨policy, hpolicy, hcollect⟩
    exact h key policy hpolicy collected hcollect
  · intro h key policy hpolicy collected hcollect
    exact h key collected ⟨policy, hpolicy, hcollect⟩

/-- What is selected of the live outputs of a node was collected under some key and is not in
flight. -/
theorem mem_selected_outputs {found : List Artifact}
    (h : s.selected .passThrough (s.liveOutputs uid) policies = .ok found) {id : ArtifactId} :
    id ∈ found.map (·.id) ↔ ∃ key collected, s.Collects uid policies key collected ∧
      id ∈ collected.map (·.id) ∧ ¬ s.InFlight id := by
  rw [(ids_of_selected h).2 id]
  simp only [liveUnder_liveOutputs]
  constructor
  · rintro ⟨key, policy, part, hpolicy, hpart, hid⟩
    obtain ⟨collected, hcollect, hmem, hidle⟩ := (mem_selectedUnder nodup_outputs hpart).mp hid
    exact ⟨key, collected, ⟨policy, hpolicy, hcollect⟩, hmem, hidle⟩
  · rintro ⟨key, collected, ⟨policy, hpolicy, hcollect⟩, hmem, hidle⟩
    obtain ⟨part, hpart⟩ := exists_selected_eq_ok.mp ⟨found, h⟩ key policy hpolicy
    rw [liveUnder_liveOutputs] at hpart
    exact ⟨key, policy, part, hpolicy, hpart,
      (mem_selectedUnder nodup_outputs hpart).mpr ⟨collected, hcollect, hmem, hidle⟩⟩

/-- A failure to select from the live outputs of a node is that of the first event that dangles,
under the smallest key that has one. -/
theorem selected_outputs_eq_error {e : Failure}
    (h : s.selected .passThrough (s.liveOutputs uid) policies = .error e) :
    ∃ key collected x, s.Collects uid policies key collected ∧
      s.firstDangling? (collected.map (·.id)) = some x ∧
      e = .outputKey key (.missingExecution x.executionId) ∧
      ∀ key' collected', s.Collects uid policies key' collected' → compare key' key = .lt →
        ∀ x ∈ s.events, ¬ s.Dangles (collected'.map (·.id)) x := by
  obtain ⟨key, policy, hpolicy, hfails, hsmaller⟩ := key_of_selected_eq_error h
  rw [liveUnder_liveOutputs] at hfails
  obtain ⟨collected, x, hcollect, hfirst, rfl⟩ := selectedUnder_eq_error nodup_outputs hfails
  refine ⟨key, collected, x, ⟨policy, hpolicy, hcollect⟩, hfirst, rfl, ?_⟩
  rintro key' collected' ⟨policy', hpolicy', hcollect'⟩ hlt
  have hsucceeds := hsmaller key' policy' hpolicy' hlt
  rw [liveUnder_liveOutputs, exists_selectedUnder_eq_ok nodup_outputs] at hsucceeds
  exact firstDangling?_eq_none.mp (hsucceeds collected' hcollect')

end Store

/-! ## Plans -/

/-- With a store that works a plan of the declared node ends with what is selected of it. -/
theorem ending_of_plan_filtering {groups : GroupFilter} {uid : NodeUid} {node : NodeSpec}
    {m : Memory} (hid : uid.nodeId = node.id) :
    ((plan uid node).run (Memory.services (.filtering groups)) m).ending =
      .ofExcept (m.store.selected groups (m.store.liveOutputs uid) node.policies) :=
  (ends_of_keeps_queries (Conditions.filtering_answersQueries groups)
    (keeps_plan_queries hid)).1.ending

/-- With a store that works and a filter that holds nothing back, a plan ends with what is selected
of the live outputs of its node. -/
theorem ending_of_plan {uid : NodeUid} {node : NodeSpec} (hid : uid.nodeId = node.id)
    (m : Memory) :
    ((plan uid node).run (Memory.services .normal) m).ending =
      .ofExcept (m.store.selected .passThrough (m.store.liveOutputs uid) node.policies) :=
  (ends_of_keeps_queries Conditions.normal_answersQueries (keeps_plan_queries hid)).1.ending

/-- A plan that is returned is one of the declared node and lists what is selected of it. -/
theorem selected_of_plan {uid : NodeUid} {node : NodeSpec} {m : Memory} {found : List Artifact}
    (h : ((plan uid node).run (Memory.services .normal) m).ending = .returned found) :
    uid.nodeId = node.id ∧
      m.store.selected .passThrough (m.store.liveOutputs uid) node.policies = .ok found := by
  by_cases hid : uid.nodeId = node.id
  · rw [ending_of_plan hid m] at h
    refine ⟨hid, ?_⟩
    cases hselected : m.store.selected .passThrough (m.store.liveOutputs uid) node.policies with
    | ok found' =>
      rw [hselected] at h
      cases h
      rfl
    | error e =>
      rw [hselected] at h
      cases h
  · rw [plan_of_mismatch hid] at h
    cases h

/-- A plan of the declared node is returned exactly when no event dangles on an artifact that the
policy of an output key collects. It lists, each once, the artifacts that are live, published by
the node under an output key, collected by the policy of that key and not in flight. Otherwise it
fails at the output key with the smallest bytes that has an event that dangles, and at the first
such event. -/
theorem plan_agrees_with_records (uid : NodeUid) (node : NodeSpec) (m : Memory)
    (hid : uid.nodeId = node.id) :
    let ending := ((plan uid node).run (Memory.services .normal) m).ending
    ((∃ found, ending = .returned found) ↔
      ∀ key collected, m.store.Collects uid node.policies key collected →
        ∀ e ∈ m.store.events, ¬ m.store.Dangles (collected.map (·.id)) e) ∧
    (∀ found, ending = .returned found →
      (found.map (·.id)).Nodup ∧
      ∀ id, id ∈ found.map (·.id) ↔ ∃ key collected,
        ((∃ a, m.store.artifacts.find? id = some a ∧ a.state = .live) ∧
          ∃ e ∈ m.store.events, e.artifactId = id ∧ m.store.Publishes uid key e) ∧
        (m.store.Collects uid node.policies key collected ∧ id ∈ collected.map (·.id)) ∧
        ¬ m.store.InFlight id) ∧
    ((∀ found, ending ≠ .returned found) → ∃ key collected e,
      ending = .failed (.outputKey key (.missingExecution e.executionId)) ∧
      m.store.Collects uid node.policies key collected ∧
      m.store.events.find? (fun e => m.store.Dangles (collected.map (·.id)) e) = some e ∧
      ∀ key' collected', m.store.Collects uid node.policies key' collected' →
        Text.bytes key' < Text.bytes key →
        ∀ e' ∈ m.store.events, ¬ m.store.Dangles (collected'.map (·.id)) e') := by
  intro ending
  have hending : ending = .ofExcept _ := ending_of_plan hid m
  cases hselected : m.store.selected .passThrough (m.store.liveOutputs uid) node.policies with
  | ok found =>
    have hreturned : ending = .returned found := by rw [hending, hselected]; rfl
    rw [hreturned]
    refine ⟨iff_of_true ⟨found, rfl⟩ (Store.exists_selected_outputs.mp ⟨found, hselected⟩), ?_,
      fun hnot => absurd rfl (hnot found)⟩
    rintro _ ⟨⟩
    refine ⟨(Store.ids_of_selected hselected).1, fun id => ?_⟩
    rw [Store.mem_selected_outputs hselected]
    constructor
    · rintro ⟨key, collected, hcollects, hmem, hidle⟩
      exact ⟨key, collected, hcollects.live_and_published hmem, ⟨hcollects, hmem⟩, hidle⟩
    · rintro ⟨key, collected, _, ⟨hcollects, hmem⟩, hidle⟩
      exact ⟨key, collected, hcollects, hmem, hidle⟩
  | error e =>
    have hfailed : ending = .failed e := by rw [hending, hselected]; rfl
    rw [hfailed]
    refine ⟨iff_of_false nofun fun hnone => ?_, nofun, fun _ => ?_⟩
    · obtain ⟨found, hfound⟩ := Store.exists_selected_outputs.mpr hnone
      rw [hselected] at hfound
      cases hfound
    · obtain ⟨key, collected, x, hcollects, hfirst, rfl, hsmaller⟩ :=
        Store.selected_outputs_eq_error hselected
      refine ⟨key, collected, x, rfl, hcollects, hfirst, fun key' collected' hcollects' hbytes => ?_⟩
      exact hsmaller key' collected' hcollects' ((Text.compare_eq_lt_iff_bytes key' key).mpr hbytes)

/-- Of three models the newest is kept and a reader under way consumes the oldest, so the plan
lists the other one; once a lost execution consumes that one as well, there is no plan. -/
theorem plan_of_trainer :
    let s := (Store.ofModels [model 1 "/1", model 2 "/2", model 3 "/3"]).withReader 1 .running
    let lost := s.insertEvent (.consumed ⟨2⟩ ⟨9⟩)
    let spec := trainerSpec (.ofRecency 1)
    let ending (s : Store) := ((plan trainer spec).run (Memory.services .normal) ⟨s, .empty⟩).ending
    trainer.nodeId = spec.id ∧ ending s = .returned [model 2 "/2"] ∧
      (∀ key collected, s.Collects trainer spec.policies key collected →
        ∀ e ∈ s.events, ¬ s.Dangles (collected.map (·.id)) e) ∧
      ending lost = .failed (.outputKey "model" (.missingExecution ⟨9⟩)) ∧
      ∃ key collected e, lost.Collects trainer spec.policies key collected ∧
        lost.events.find? (fun e => lost.Dangles (collected.map (·.id)) e) = some e ∧
        ending lost = .failed (.outputKey key (.missingExecution e.executionId)) := by
  intro s lost spec ending
  have hid : trainer.nodeId = spec.id := by decide +kernel
  have hreturned : ending s = .returned [model 2 "/2"] := by decide +kernel
  have hfailed : ending lost = .failed (.outputKey "model" (.missingExecution ⟨9⟩)) := by
    decide +kernel
  have hplan := plan_agrees_with_records trainer spec ⟨s, .empty⟩ hid
  obtain ⟨key, collected, e, hending, hcollects, hfirst, _⟩ :=
    (plan_agrees_with_records trainer spec ⟨lost, .empty⟩ hid).2.2 fun found hfound => by
      have hfound : ending lost = .returned found := hfound
      rw [hfailed] at hfound
      cases hfound
  exact ⟨hid, hreturned, hplan.1.mp ⟨_, hreturned⟩, hfailed, key, collected, e, hcollects, hfirst,
    hending⟩

end ArtifactGC

import ArtifactGC.Proofs.Candidates
import ArtifactGC.Proofs.Pass
import ArtifactGC.Proofs.Purge
import ArtifactGC.Proofs.Services

/-!
# Inputs in flight are safe

No plan lists an artifact that a new or running execution consumes, no pass reports it deleted,
and no record of it is written. The guarantee does not depend on what the pipeline group filter
answers, nor on what the store answers to the question for live artifacts: the events are asked
for all artifacts that this answer lists, the filter can only pick from what a policy did not
keep of them, and so every candidate is covered by the events that the usage filter looks at.
-/

namespace ArtifactGC

/-- Events and executions are answered as a store holds them, and no record of an artifact in
flight may be written. -/
def Contract.sparing (s : Store) : Contract where
  asks
    | .put batch => ∀ a ∈ batch, ¬ s.InFlight a.id
    | _ => True
  answers
    | .events ids, answer => ∀ events, answer = .ok events → events = s.eventsOn ids
    | .executions ids, answer => ∀ records, answer = .ok records → records = s.executionsOf ids
    | _, _ => True

/-- A contract about sparing what is in flight is truthful. -/
theorem Contract.sparing_truthful (s : Store) : (Contract.sparing s).Truthful s where
  asks _ := trivial
  answers h := h _ rfl
  asksLive _ := trivial
  asksEvents _ := trivial
  asksGroups _ _ := trivial
  events h := h _ rfl

/-- A contract about sparing what is in flight lets storage be used. -/
theorem Contract.sparing_allowsStorage (s : Store) : (Contract.sparing s).AllowsStorage where
  isDirectory _ := trivial
  isPresent _ := trivial
  remove _ := trivial
  removeRecursive _ := trivial

variable {s : Store}

/-- A plan lists no artifact in flight. -/
theorem keeps_plan_sparing (uid : NodeUid) (node : NodeSpec) :
    (plan uid node).Keeps (.sparing s)
      fun r => ∀ found, r = .ok found → ∀ a ∈ found, ¬ s.InFlight a.id :=
  keeps_plan (fun _ => nofun) (fun _ => by simp) fun _ _ =>
    keeps_candidates_spares (Contract.sparing_truthful s) uid node.policies

/-- A purge of artifacts that are not in flight reports and writes none that is. -/
theorem keeps_purge_sparing {as : List Artifact} (h : ∀ a ∈ as, ¬ s.InFlight a.id) :
    (purge as).Keeps (.sparing s) fun r => ∀ report, r = .ok report →
      ∀ id ∈ report.deleted ++ report.markedExternal, ¬ s.InFlight id := by
  have hidle {settled : List (Artifact × Fate)} (hs : settled.map (·.1) = as.filter (·.isLive))
      {a : Artifact} {fate : Fate} (ha : (a, fate) ∈ settled) : ¬ s.InFlight a.id := by
    have hmem : a ∈ as.filter (·.isLive) := hs ▸ List.mem_map_of_mem ha
    exact h a (List.mem_filter.mp hmem).1
  refine keeps_purge (fun a _ _ _ => (Contract.sparing_allowsStorage s).allowsAt a.uri)
    (fun settled hs => ?_) (fun settled hs => ?_) nofun
  · intro r hr
    obtain ⟨a, fate, ha, _, rfl⟩ := mem_changedRecords.mp hr
    have hspared : ¬ s.InFlight a.id := hidle hs ha
    exact hspared
  · rintro report ⟨⟩ id hid
    rcases List.mem_append.mp hid with hid | hid
    · obtain ⟨a, ha, rfl⟩ := mem_withFate.mp hid
      exact hidle hs ha
    · obtain ⟨a, ha, rfl⟩ := mem_withFate.mp hid
      exact hidle hs ha

/-- A pass reports and writes no artifact in flight. -/
theorem keeps_pass_sparing (uid : NodeUid) (node : NodeSpec) :
    (pass uid node).Keeps (.sparing s) fun r => ∀ report, r = .ok (.collected report) →
      ∀ id ∈ report.deleted ++ report.markedExternal, ¬ s.InFlight id := by
  refine keeps_pass (fun _ => nofun) (fun _ => nofun) fun _ _ => ?_
  have hsearch := keeps_candidates_spares (Contract.sparing_truthful s) uid node.policies
  refine hsearch.bind (fun found hfound => ?_) fun e _ => nofun
  refine (keeps_purge_sparing (hfound found rfl)).imp fun r hr => ?_
  cases r with
  | ok report =>
    rintro _ ⟨⟩
    exact hr report rfl
  | error e => nofun

/-- Services in memory, beside any filter, answer events and executions as their store holds
them, for as long as they answer. -/
theorem services_honours_sparing {τ : Type} (c : Conditions) (filter : FilterService τ)
    (s : Store) :
    ((Memory.services c).withFilter filter).Honours (.sparing s) fun state =>
      state.1.store.events = s.events ∧ state.1.store.executions = s.executions where
  answers := by
    rintro request ⟨m, t⟩ answer ⟨hevents, hexecutions⟩ _ hanswer
    cases request with
    | events ids =>
      rintro events rfl
      rw [Memory.eq_of_underFault hanswer, Store.eventsOn, Store.eventsOn, hevents]
    | executions ids =>
      rintro records rfl
      rw [Memory.eq_of_underFault hanswer, Store.executionsOf, Store.executionsOf, hexecutions]
    | _ => trivial
  keeps := by
    rintro request ⟨m, t⟩ ⟨hevents, hexecutions⟩ _
    have hkept := Memory.answer_keeps_records (c := c) request m
    cases request with
    | unusedInGroups usage cs => exact ⟨hevents, hexecutions⟩
    | _ => exact ⟨hkept.1.trans hevents, hkept.2.trans hexecutions⟩

/-- Whatever the filter answers, remembers or fails at, whatever is answered to the question for
live artifacts, and whatever goes wrong in the store: no artifact that a new or running execution
consumes is planned for deletion, reported deleted or marked external by a pass, or among the
records that a pass writes. -/
theorem inputs_in_flight_are_spared {τ : Type} (c : Conditions) (filter : FilterService τ)
    (uid : NodeUid) (node : NodeSpec) (m : Memory) (t : τ) :
    let services := (Memory.services c).withFilter filter
    (∀ found, ((plan uid node).run services (m, t)).ending = .returned found →
      ∀ a ∈ found, ¬ m.store.InFlight a.id) ∧
    (∀ report, ((pass uid node).run services (m, t)).ending = .returned (.collected report) →
      ∀ id ∈ report.deleted ++ report.markedExternal, ¬ m.store.InFlight id) ∧
    ∀ x ∈ ((pass uid node).run services (m, t)).exchanges, ∀ batch, x.request = .put batch →
      ∀ a ∈ batch, ¬ m.store.InFlight a.id := by
  intro services
  have hs := services_honours_sparing c filter m.store
  obtain ⟨_, _, hplan⟩ := (keeps_plan_sparing uid node).run hs (s := (m, t)) ⟨rfl, rfl⟩
  obtain ⟨_, hasks, hpass⟩ := (keeps_pass_sparing uid node).run hs (s := (m, t)) ⟨rfl, rfl⟩
  refine ⟨fun found hfound => hplan (.ok found) hfound found rfl,
    fun report hreport => hpass (.ok (.collected report)) hreport report rfl,
    fun x hx batch hbatch => ?_⟩
  have hask := hasks x hx
  rw [hbatch] at hask
  exact hask

/-- Of two models that a policy does not keep, a reader under way consumes the older one, and the
filter adds it to every answer: it is spared all the same. -/
theorem input_of_reader_is_spared :
    let m : Memory := ⟨(Store.ofModels [model 1 "/1", model 2 "/2", model 3 "/3"]).withReader 1
      .running, .empty⟩
    let filter : FilterService Nat := fun _ cs n => (some (.ok (model 1 "/1" :: cs ++ cs)), n + 1)
    let services := (Memory.services .normal).withFilter filter
    let spec := trainerSpec (.ofRecency 1)
    m.store.InFlight ⟨1⟩ ∧
      ((plan trainer spec).run services (m, 0)).ending = .returned [model 2 "/2"] ∧
      ((pass trainer spec).run services (m, 0)).ending = .returned (.collected ⟨[⟨2⟩], [], []⟩) ∧
      (∀ a ∈ [model 2 "/2"], ¬ m.store.InFlight a.id) ∧
      ∀ id ∈ [(⟨2⟩ : ArtifactId)] ++ [], ¬ m.store.InFlight id := by
  intro m filter services spec
  have hplan : ((plan trainer spec).run services (m, 0)).ending = .returned [model 2 "/2"] := by
    decide +kernel
  have hpass : ((pass trainer spec).run services (m, 0)).ending =
      .returned (.collected ⟨[⟨2⟩], [], []⟩) := by decide +kernel
  obtain ⟨hfound, hreport, _⟩ := inputs_in_flight_are_spared .normal filter trainer spec m 0
  exact ⟨by decide +kernel, hplan, hpass, hfound _ hplan, hreport _ hpass⟩

end ArtifactGC

import ArtifactGC.Memory.Store
import ArtifactGC.Proofs.Collections
import ArtifactGC.Proofs.Contract
import ArtifactGC.Usage

/-!
# Artifacts in flight

What the records of a store say about the use of an artifact: it is in flight when some execution
that is new or under way consumes it, and an event dangles when its execution has no record. The
usage filter sees only the events that it is given and the execution records that it asks for. The
main statement `keeps_retainUnused` says that this is enough: whenever the events cover the
candidates, it fails at the first dangling event on a candidate and otherwise keeps exactly the
candidates that are not in flight.
-/

namespace ArtifactGC

/-- The event says that an execution consumes the artifact. -/
def Event.Consumes (e : Event) : Prop :=
  e.kind = .input ∨ e.kind = .declaredInput ∨ e.kind = .internalInput

instance (e : Event) : Decidable e.Consumes := inferInstanceAs (Decidable (_ ∨ _ ∨ _))

/-- The execution may still read what it consumes. -/
def Execution.UnderWay (x : Execution) : Prop := x.state = .new ∨ x.state = .running

instance (x : Execution) : Decidable x.UnderWay := inferInstanceAs (Decidable (_ ∨ _))

@[simp] theorem EventKind.isInput_iff {e : Event} : e.kind.isInput = true ↔ e.Consumes := by
  unfold Event.Consumes
  cases e.kind <;> simp [EventKind.isInput]

@[simp] theorem Execution.isActive_iff {x : Execution} : x.isActive = true ↔ x.UnderWay := by
  unfold Execution.isActive UnderWay
  cases x.state <;> simp [ExecutionState.isActive]

namespace Store

/-- The event belongs to an execution that is new or running. -/
def OfUnderWay (s : Store) (e : Event) : Prop :=
  ∃ x, s.executions.find? e.executionId = some x ∧ x.UnderWay

/-- Some execution that is new or running consumes the artifact. -/
def InFlight (s : Store) (id : ArtifactId) : Prop :=
  ∃ e ∈ s.events, e.artifactId = id ∧ e.Consumes ∧ s.OfUnderWay e

/-- The event says that one of some artifacts is consumed by an execution without a record. -/
def Dangles (s : Store) (ids : List ArtifactId) (e : Event) : Prop :=
  e.Consumes ∧ e.artifactId ∈ ids ∧ s.executions.find? e.executionId = none

instance (s : Store) (e : Event) : Decidable (s.OfUnderWay e) :=
  decidable_of_iff ((s.executions.find? e.executionId).any fun x => decide x.UnderWay)
    (by simp [OfUnderWay, Option.any_eq_true])

instance (s : Store) (id : ArtifactId) : Decidable (s.InFlight id) :=
  inferInstanceAs (Decidable (∃ e ∈ s.events, _))

instance (s : Store) (ids : List ArtifactId) (e : Event) : Decidable (s.Dangles ids e) :=
  inferInstanceAs (Decidable (_ ∧ _ ∧ _))

/-- The first event of the store that dangles on one of some artifacts. -/
def firstDangling? (s : Store) (ids : List ArtifactId) : Option Event :=
  s.events.find? fun e => s.Dangles ids e

/-- The artifacts that are not in flight, in their order. -/
def idle (s : Store) (artifacts : List Artifact) : List Artifact :=
  artifacts.filter fun a => ¬ s.InFlight a.id

/-- What the records of the store decide on some candidates: those that are not in flight, or the
failure at the first event that dangles on one of them. -/
def verdict (s : Store) (cs : List Artifact) : Except Failure (List Artifact) :=
  match s.firstDangling? (cs.map (·.id)) with
  | some e => .error (.missingExecution e.executionId)
  | none => .ok (s.idle cs)

/-- Without an event that dangles, every event on the artifacts has an execution. -/
theorem firstDangling?_eq_none {s : Store} {ids : List ArtifactId} :
    s.firstDangling? ids = none ↔ ∀ e ∈ s.events, ¬ s.Dangles ids e := by
  simp [firstDangling?]

@[simp] theorem idle_nil (s : Store) : s.idle [] = [] := rfl

@[simp] theorem mem_idle {s : Store} {artifacts : List Artifact} {a : Artifact} :
    a ∈ s.idle artifacts ↔ a ∈ artifacts ∧ ¬ s.InFlight a.id := by
  simp [idle]

/-! ## What the records of executions tell -/

/-- The records that a store answers with are those of the executions that were asked for. -/
theorem mem_executionsOf {s : Store} {ids : List ExecutionId} {x : Execution} :
    x ∈ s.executionsOf ids ↔ x.id ∈ ids ∧ s.executions.find? x.id = some x := by
  have hmem (k : ExecutionId) : k ∈ distinctOn id ids ↔ k ∈ ids := by
    rw [← List.map_id (distinctOn id ids), mem_map_distinctOn, List.map_id]
  simp only [executionsOf, List.mem_filterMap, hmem]
  constructor
  · rintro ⟨k, hk, hx⟩
    have hid : x.id = k := Table.key_of_find? hx
    exact ⟨hid ▸ hk, hid ▸ hx⟩
  · rintro ⟨hid, hx⟩
    exact ⟨x.id, hid, hx⟩

/-- Of an execution that was asked for, the answer tells what its record in the store tells. -/
theorem activity?_executionsOf {s : Store} {ids : List ExecutionId} {id : ExecutionId}
    (h : id ∈ ids) :
    activity? (s.executionsOf ids) id = (s.executions.find? id).map (·.isActive) := by
  unfold activity?
  rw [List.findRev?_eq_find?_reverse]
  cases hf : s.executions.find? id with
  | none =>
    have hnone : (s.executionsOf ids).reverse.find? (fun x => decide (x.id = id)) = none := by
      rw [List.find?_eq_none]
      intro x hx hid
      have hrecord := (mem_executionsOf.mp (List.mem_reverse.mp hx)).2
      rw [of_decide_eq_true hid, hf] at hrecord
      cases hrecord
    rw [hnone]
  | some x =>
    have hx : x ∈ s.executionsOf ids := by
      have hid : x.id = id := Table.key_of_find? hf
      exact mem_executionsOf.mpr ⟨hid ▸ h, hid ▸ hf⟩
    obtain ⟨y, hy⟩ : ∃ y, (s.executionsOf ids).reverse.find? (fun x => decide (x.id = id)) = some y :=
      Option.isSome_iff_exists.mp (List.find?_isSome.mpr
        ⟨x, List.mem_reverse.mpr hx, decide_eq_true (Table.key_of_find? hf)⟩)
    have hid : y.id = id := by simpa using List.find?_some hy
    have hrecord := (mem_executionsOf.mp (List.mem_reverse.mp (List.mem_of_find?_eq_some hy))).2
    rw [hid, hf] at hrecord
    rw [hy, Option.some.inj hrecord]

/-- What the filter sees as the consumption of candidates is what the store holds of it, when the
events that it is given are all those on some artifacts, the candidates among them. -/
theorem mem_consumptions_eventsOn {s : Store} {cs : List Artifact} {ids : List ArtifactId}
    (h : cs.map (·.id) ⊆ ids) {e : Event} :
    e ∈ consumptions cs (s.eventsOn ids) ↔
      e ∈ s.events ∧ e.Consumes ∧ e.artifactId ∈ cs.map (·.id) := by
  simp only [consumptions, eventsOn, List.mem_filter, decide_eq_true_eq, EventKind.isInput_iff]
  constructor
  · rintro ⟨⟨he, _⟩, hkind, hid⟩
    exact ⟨he, hkind, hid⟩
  · rintro ⟨he, hkind, hid⟩
    exact ⟨⟨he, h hid⟩, hkind, hid⟩

variable {s : Store} {cs : List Artifact} {ids : List ArtifactId}

/-- The executions that a filter asks for. -/
private abbrev asked (s : Store) (cs : List Artifact) (ids : List ArtifactId) : List ExecutionId :=
  ascending ((consumptions cs (s.eventsOn ids)).map (·.executionId))

private theorem activity?_asked {e : Event} (he : e ∈ consumptions cs (s.eventsOn ids)) :
    activity? (s.executionsOf (asked s cs ids)) e.executionId =
      (s.executions.find? e.executionId).map (·.isActive) :=
  activity?_executionsOf (mem_ascending.mpr (List.mem_map_of_mem he))

/-- The first event that the filter finds unknown is the first one that dangles. -/
theorem firstUnknown?_eq (h : cs.map (·.id) ⊆ ids) :
    firstUnknown? (s.executionsOf (asked s cs ids)) (consumptions cs (s.eventsOn ids)) =
      s.firstDangling? (cs.map (·.id)) := by
  have hunknown : firstUnknown? (s.executionsOf (asked s cs ids)) (consumptions cs (s.eventsOn ids)) =
      (consumptions cs (s.eventsOn ids)).find? fun e =>
        decide (s.executions.find? e.executionId = none) := by
    rw [firstUnknown?, ← List.head?_filter, ← List.head?_filter]
    congr 1
    refine List.filter_congr fun e he => ?_
    rw [activity?_asked he]
    simp
  rw [hunknown, consumptions, eventsOn, List.find?_filter, List.find?_filter, firstDangling?]
  congr 1
  funext e
  by_cases hid : e.artifactId ∈ cs.map (·.id)
  · have hin : e.artifactId ∈ ids := h hid
    simp [Dangles, hid, hin]
  · simp [Dangles, hid]

/-- What the filter finds in use is what is in flight. -/
theorem mem_artifactsInUse (h : cs.map (·.id) ⊆ ids) {id : ArtifactId} (hid : id ∈ cs.map (·.id)) :
    id ∈ artifactsInUse (s.executionsOf (asked s cs ids)) (consumptions cs (s.eventsOn ids)) ↔
      s.InFlight id := by
  simp only [artifactsInUse, List.mem_map, List.mem_filter, decide_eq_true_eq]
  constructor
  · rintro ⟨e, ⟨he, hactive⟩, rfl⟩
    rw [activity?_asked he] at hactive
    obtain ⟨x, hx, hunder⟩ := Option.map_eq_some_iff.mp hactive
    obtain ⟨hmem, hkind, _⟩ := (mem_consumptions_eventsOn h).mp he
    exact ⟨e, hmem, rfl, hkind, x, hx, Execution.isActive_iff.mp hunder⟩
  · rintro ⟨e, hmem, rfl, hkind, x, hx, hunder⟩
    have he := (mem_consumptions_eventsOn h).mpr ⟨hmem, hkind, hid⟩
    refine ⟨e, ⟨he, ?_⟩, rfl⟩
    rw [activity?_asked he, hx, Option.map_some, Execution.isActive_iff.mpr hunder]

/-- Candidates that nothing consumes are all kept. -/
theorem verdict_of_consumptions_eq_nil (h : cs.map (·.id) ⊆ ids)
    (hnil : consumptions cs (s.eventsOn ids) = []) : s.verdict cs = .ok cs := by
  have hnot (e : Event) (he : e ∈ s.events) (hkind : e.Consumes) :
      e.artifactId ∉ cs.map (·.id) := fun hid => by
    have hmem := (mem_consumptions_eventsOn h).mpr ⟨he, hkind, hid⟩
    rw [hnil] at hmem
    cases hmem
  have hnone : s.firstDangling? (cs.map (·.id)) = none := by
    rw [firstDangling?_eq_none]
    rintro e he ⟨hkind, hid, _⟩
    exact hnot e he hkind hid
  have hidle : s.idle cs = cs := by
    refine List.filter_eq_self.mpr fun a ha => decide_eq_true ?_
    rintro ⟨e, he, hid, hkind, _⟩
    exact hnot e he hkind (hid ▸ List.mem_map_of_mem ha)
  rw [verdict, hnone, hidle]

end Store

/-! ## What the usage filter does -/

/-- Services may be asked for executions, and answer with what a store holds of them if they
answer with records at all. -/
structure Contract.KnowsExecutions (c : Contract) (s : Store) : Prop where
  /-- Executions may be asked for. -/
  asks : ∀ ids, c.asks (.executions ids)
  /-- The records are those of the store. -/
  answers : ∀ {ids executions}, c.answers (.executions ids) (.ok executions) →
    executions = s.executionsOf ids

/-- With all events on some artifacts, the candidates among them, the usage filter decides as the
records of the store do, or passes on the refusal of a store. -/
theorem keeps_retainUnused {c : Contract} {s : Store} (hc : c.KnowsExecutions s)
    {cs : List Artifact} {ids : List ArtifactId} (hcover : cs.map (·.id) ⊆ ids)
    {post : Except Failure (List Artifact) → Prop} (hverdict : post (s.verdict cs))
    (hrefused : ∀ ids e, c.answers (.executions ids) (.error e) → post (.error (.store e))) :
    (retainUnused cs (s.eventsOn ids)).Keeps c post := by
  unfold retainUnused
  by_cases hnil : consumptions cs (s.eventsOn ids) = []
  · rw [Store.verdict_of_consumptions_eq_nil hcover hnil] at hverdict
    simp only [hnil, if_true]
    exact hverdict
  · simp only [hnil, if_false]
    refine ⟨hc.asks _, fun answer hanswer => ?_⟩
    cases answer with
    | error e => exact hrefused _ e hanswer
    | ok executions =>
      obtain rfl := hc.answers hanswer
      change Procedure.Keeps c post (match firstUnknown? (s.executionsOf (s.asked cs ids))
        (consumptions cs (s.eventsOn ids)) with | some e => _ | none => _)
      rw [Store.firstUnknown?_eq hcover]
      rw [Store.verdict] at hverdict
      cases hfirst : s.firstDangling? (cs.map (·.id)) with
      | some e =>
        rw [hfirst] at hverdict
        exact hverdict
      | none =>
        rw [hfirst] at hverdict
        have hkept : cs.filter (fun a => decide (a.id ∉ artifactsInUse
            (s.executionsOf (s.asked cs ids)) (consumptions cs (s.eventsOn ids)))) = s.idle cs := by
          refine List.filter_congr fun a ha => decide_eq_decide.mpr ?_
          exact not_congr (Store.mem_artifactsInUse hcover (List.mem_map_of_mem ha))
        change post (.ok (cs.filter _))
        rw [hkept]
        exact hverdict

end ArtifactGC

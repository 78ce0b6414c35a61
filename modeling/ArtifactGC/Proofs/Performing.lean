import ArtifactGC.Command.Local
import ArtifactGC.Proofs.Effects
import ArtifactGC.Proofs.Machines

/-!
# Passes over a snapshot and local files, step by step

A store in memory and the storage of a machine answer all requests. Whatever the machine does, a
search ends as the records of the store say and leaves the store alone, and a pass of the declared
node ends with an outcome and has marked in the store what that outcome reports. The machine itself
is used at locations of artifacts of the store only. `performs_pass` says so.
-/

namespace ArtifactGC

namespace Command

/-! ## Sequences -/

section Sequences

variable {σ α β : Type} {storage : LocalStorage} {host : Host (StateM σ)} {store store' : Store}
  {s s' : σ} {p : Procedure α} {f : α → Procedure β}

/-- After a result the second procedure goes on. -/
theorem performLocally_bind_of_ok {a : α}
    (h : performLocally storage host p store s = ((.ok a, store'), s')) :
    performLocally storage host (p >>= f) store s =
      performLocally storage host (f a) store' s' := by
  induction p generalizing store s with
  | returned b => cases h; rfl
  | failed e => cases h
  | ask request next ih => exact ih _ h
  | note entry rest ih => exact ih h

/-- After a failure nothing else happens. -/
theorem performLocally_bind_of_error {e : Failure}
    (h : performLocally storage host p store s = ((.error e, store'), s')) :
    performLocally storage host (p >>= f) store s = ((.error e, store'), s') := by
  induction p generalizing store s with
  | returned b => cases h
  | failed e' => cases h; rfl
  | ask request next ih => exact ih _ h
  | note entry rest ih => exact ih h

/-- Going on with a failure makes it the result. -/
theorem performLocally_attempt {r : Except Failure α}
    (h : performLocally storage host p store s = ((r, store'), s')) :
    performLocally storage host p.attempt store s = ((.ok r, store'), s') := by
  induction p generalizing store s with
  | returned b => cases h; rfl
  | failed e => cases h; rfl
  | ask request next ih => exact ih _ h
  | note entry rest ih => exact ih h

end Sequences

/-! ## Recorded calls -/

section Recorded

variable {σ α : Type} (storage : LocalStorage) (host : Host (StateM σ))

/-- Answers are the same when the calls of the machine are recorded. -/
theorem records_answerLocally (request : Request) (store : Store) :
    Records (answerLocally storage host.recorded request store)
      (answerLocally storage host request store) := by
  intro s calls
  cases request with
  | _ => exact ⟨_, rfl⟩

/-- Procedures are carried out the same when the calls of the machine are recorded. -/
theorem records_performLocally (p : Procedure α) (store : Store) :
    Records (performLocally storage host.recorded p store)
      (performLocally storage host p store) := by
  induction p generalizing store with
  | returned a => exact records_pure (Except.ok a, store)
  | failed e => exact records_pure (Except.error e, store)
  | note entry rest ih => exact (records_remembering (.note entry) _).bind fun _ => ih store
  | ask request next ih =>
    exact (records_answerLocally storage host request store).bind fun r => ih r.1 r.2

end Recorded

/-! ## Answers -/

section Answers

variable {σ α : Type} (storage : LocalStorage) (host : Host (StateM σ)) {c : Contract}
  {post : Except Failure α → Prop}

/-- A procedure that keeps a contract stays inside an invariant and ends in an allowed way, when
permitted requests are answered as agreed and neither answers nor log entries leave the
invariant. -/
theorem performs_of_keeps {p : Procedure α} (h : p.Keeps c post) (inv : Store → σ → Prop)
    (hanswers : ∀ {request store s}, c.asks request → inv store s →
      c.answers request (answerLocally storage host request store s).1.1 ∧
        inv (answerLocally storage host request store s).1.2
          (answerLocally storage host request store s).2)
    (hnotes : ∀ {entry store s}, inv store s → inv store (host.note entry s).2)
    {store : Store} {s : σ} (hi : inv store s) :
    ∃ r store' s', performLocally storage host p store s = ((r, store'), s') ∧
      post r ∧ inv store' s' := by
  induction p generalizing store s with
  | returned a => exact ⟨.ok a, store, s, rfl, h, hi⟩
  | failed e => exact ⟨.error e, store, s, rfl, h, hi⟩
  | note entry rest ih => exact ih h (hnotes hi)
  | ask request next ih =>
    obtain ⟨hask, hnext⟩ := h
    obtain ⟨hagreed, hkept⟩ := hanswers hask hi
    exact ih _ (hnext _ hagreed) hkept

/-- Queries are answered from the records of the store, and change nothing. -/
theorem answerLocally_query {request : Request} (hquery : request.IsQuery) (store : Store) (s : σ) :
    ∃ answer, answerLocally storage host request store s = ((answer, store), s) ∧
      (Contract.queries store store.liveOutputs .passThrough).answers request answer := by
  cases request with
  | liveOutputs | events | executions | unusedInGroups => exact ⟨_, rfl, rfl⟩
  | put | isDirectory | isPresent | remove | removeRecursive => cases hquery

variable {host} {paths : String → Prop} {J : σ → Prop} (hJ : host.Preserves paths J)
include hJ

/-- A procedure that only asks queries ends as the records of the store say, and changes none. -/
theorem performs_queries {p : Procedure α} {store : Store} {r : Except Failure α}
    (h : p.Keeps (.queries store store.liveOutputs .passThrough) (· = r)) {s : σ} (hs : J s) :
    ∃ s', performLocally storage host p store s = ((r, store), s') ∧ J s' := by
  obtain ⟨_, _, s', hperformed, rfl, rfl, hs'⟩ := performs_of_keeps storage host h
    (fun store' s => store' = store ∧ J s) (fun {request _ s} hquery hi => by
      obtain ⟨rfl, hs⟩ := hi
      obtain ⟨answer, hanswer, hagreed⟩ := answerLocally_query storage host hquery _ s
      rw [hanswer]
      exact ⟨hagreed, rfl, hs⟩) (fun hi => ⟨hi.1, hJ.note hi.2⟩) ⟨rfl, hs⟩
  exact ⟨s', hperformed, hs'⟩

variable {storage}

/-- Storage at a location changes no record, and preserves what the machine preserves there. -/
theorem answerLocally_location {request : Request} {uri : String}
    (hlocation : request.location? = some uri) (hpath : paths (storage.locate uri)) (store : Store)
    {s : σ} (hs : J s) :
    (answerLocally storage host request store s).1.2 = store ∧
      J (answerLocally storage host request store s).2 := by
  cases request with
  | liveOutputs | events | executions | put | unusedInGroups => cases hlocation
  | isDirectory | isPresent =>
    cases hlocation
    exact ⟨rfl, hJ.kindAt hpath hs⟩
  | remove =>
    cases hlocation
    exact ⟨rfl, hJ.removeFile hpath hs⟩
  | removeRecursive =>
    cases hlocation
    exact ⟨rfl, hJ.removeTree hpath hs⟩

/-- The fates of artifacts are settled without a change to any record. -/
theorem performs_settleAll {as : List Artifact} (has : ∀ a ∈ as, paths (storage.locate a.uri))
    (store : Store) {s : σ} (hs : J s) :
    ∃ settled s', performLocally storage host (settleAll as) store s = ((.ok settled, store), s') ∧
      settled.map (·.1) = as ∧ J s' := by
  let asks (request : Request) : Prop :=
    ∃ uri, request.location? = some uri ∧ paths (storage.locate uri)
  have hkeeps : (settleAll as).Keeps (.ofAsks asks)
      fun r => ∃ settled, r = .ok settled ∧ settled.map (·.1) = as :=
    keeps_settleAll fun a ha _ => ⟨⟨a.uri, rfl, has a ha⟩, ⟨a.uri, rfl, has a ha⟩,
      ⟨a.uri, rfl, has a ha⟩, ⟨a.uri, rfl, has a ha⟩⟩
  obtain ⟨_, _, s', hperformed, ⟨settled, rfl, hsettled⟩, rfl, hs'⟩ :=
    performs_of_keeps storage host hkeeps (fun store' s => store' = store ∧ J s)
      (fun hask hi => by
        obtain ⟨uri, hlocation, hpath⟩ := hask
        obtain ⟨hstore, hs⟩ := answerLocally_location hJ hlocation hpath _ hi.2
        exact ⟨trivial, hstore.trans hi.1, hs⟩) (fun hi => ⟨hi.1, hJ.note hi.2⟩) ⟨rfl, hs⟩
  exact ⟨settled, s', hperformed, hsettled, hs'⟩

/-- A purge reports the fates of its artifacts, which are live, and records them. -/
theorem performs_purge {as : List Artifact} (has : ∀ a ∈ as, paths (storage.locate a.uri))
    (hlive : ∀ a ∈ as, a.isLive = true) (store : Store) {s : σ} (hs : J s) :
    ∃ settled s', performLocally storage host (purge as) store s =
        ((.ok (reportOf settled), store.record settled), s') ∧
      settled.map (·.1) = as ∧ J s' := by
  obtain ⟨settled, s', hperformed, hsettled, hs'⟩ := performs_settleAll hJ has store hs
  refine ⟨settled, s', ?_, hsettled, hs'⟩
  unfold purge
  rw [List.filter_eq_self.mpr hlive, performLocally_bind_of_ok hperformed]
  unfold Store.record
  dsimp only
  split
  · rfl
  · rfl

/-- What is found by a search is purged, and nothing else of the store is changed. -/
theorem performs_pass {store : Store}
    (hpaths : ∀ a ∈ store.artifacts.records, paths (storage.locate a.uri)) {uid : NodeUid}
    {node : NodeSpec} (hid : uid.nodeId = node.id) {s : σ} (hs : J s) :
    ∃ outcome s', performLocally storage host (pass uid node) store s =
        ((.ok outcome, store.mark (markedBy (.ok outcome))), s') ∧
      (∀ id ∈ markedBy (.ok outcome), ∃ a, store.live? id = some a) ∧ J s' := by
  cases hpolicies : node.policies.isEmpty with
  | true =>
    rw [pass_of_isEmpty hid hpolicies]
    exact ⟨.noPolicy, s, rfl, nofun, hs⟩
  | false =>
    rw [pass_eq hid hpolicies]
    obtain ⟨s₁, hsearched, hs₁⟩ := performs_queries storage hJ
      (keeps_candidates_queries store store.liveOutputs .passThrough uid node.policies) hs
    cases hselected : store.selected .passThrough (store.liveOutputs uid) node.policies with
    | error e =>
      rw [hselected] at hsearched
      have hpurged := performLocally_attempt (performLocally_bind_of_error (f := purge) hsearched)
      refine ⟨.aborted e.kind e.message, (host.note (.passAborted e) s₁).2, ?_, nofun,
        hJ.note hs₁⟩
      rw [performLocally_bind_of_ok hpurged]
      rfl
    | ok found =>
      rw [hselected] at hsearched
      have hlive (a : Artifact) (ha : a ∈ found) : store.live? a.id = some a :=
        Store.live?_of_selected hselected ha
      have hstored (a : Artifact) (ha : a ∈ found) :
          store.artifacts.find? a.id = some a ∧ a.state = .live :=
        Store.live?_eq_some.mp (hlive a ha)
      obtain ⟨settled, s₂, hpurge, hsettled, hs₂⟩ := performs_purge hJ
        (fun a ha => hpaths a (Table.find?_eq_some.mp (hstored a ha).1).1)
        (fun a ha => by simp [Artifact.isLive, (hstored a ha).2]) store hs₁
      have hpurged := performLocally_attempt ((performLocally_bind_of_ok hsearched).trans hpurge)
      have hmem (x : Artifact × Fate) (hx : x ∈ settled) : x.1 ∈ found :=
        hsettled ▸ List.mem_map_of_mem hx
      refine ⟨.collected (reportOf settled), s₂, ?_, fun id hid => ?_, hs₂⟩
      · have hrecord : store.record settled = store.mark (reportOf settled).marked :=
          Store.record_eq_mark fun x hx => (hstored x.1 (hmem x hx)).1
        rw [performLocally_bind_of_ok hpurged, hrecord]
        rfl
      · obtain ⟨a, fate, ha, _, rfl⟩ := mem_marked_reportOf.mp hid
        exact ⟨a, hlive a (hmem _ ha)⟩

/-- A plan ends without a change to any record, and does not use storage. -/
theorem performs_plan (storage : LocalStorage) (store : Store) {uid : NodeUid} {node : NodeSpec}
    (hid : uid.nodeId = node.id) {s : σ} (hs : J s) :
    ∃ r s', performLocally storage host (plan uid node) store s = ((r, store), s') ∧ J s' := by
  have hkeeps : (plan uid node).Keeps (.queries store store.liveOutputs .passThrough)
      (· = store.selected .passThrough (store.liveOutputs uid) node.policies) :=
    keeps_plan_queries hid
  obtain ⟨s', hplanned, hs'⟩ := performs_queries storage hJ hkeeps hs
  exact ⟨_, s', hplanned, hs'⟩

end Answers

end Command

end ArtifactGC

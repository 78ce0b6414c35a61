import ArtifactGC.Proofs.Ledger
import ArtifactGC.Proofs.Services

/-!
# Stores and their snapshots

A store is written to record by record and batch by batch, and its snapshot is all that is saved of
it. `Ledgers` is a store that keeps its records in maps beside lists of their identifiers, as a
`Ledger` does. It is written, loaded and saved with no regard to whether map and list agree.
`snapshot_captures_store` says that they always do, so that a snapshot passes over no record, and
that a store that is loaded from it cannot be told from the one that was saved.
-/

namespace ArtifactGC

/-! ## Writing -/

/-- What is written into a store. -/
inductive StoreWrite where
  /-- An artifact record. -/
  | artifact (a : Artifact)
  /-- An execution record. -/
  | execution (e : Execution)
  /-- An event. -/
  | event (e : Event)
  /-- Artifact records, all in one batch. -/
  | batch (artifacts : List Artifact)
deriving DecidableEq, Repr

namespace StoreWrite

/-- The artifact records that are written. -/
def artifacts : StoreWrite → List Artifact
  | .artifact a => [a]
  | .batch as => as
  | _ => []

/-- The execution records that are written. -/
def executions : StoreWrite → List Execution
  | .execution e => [e]
  | _ => []

/-- The events that are written. -/
def events : StoreWrite → List Event
  | .event e => [e]
  | _ => []

end StoreWrite

/-- The store after something is written. -/
def Store.write (s : Store) : StoreWrite → Store
  | .artifact a => s.insertArtifact a
  | .execution e => s.insertExecution e
  | .event e => s.insertEvent e
  | .batch as => s.put as

/-- A store that keeps its records in maps beside lists of their identifiers. -/
structure Ledgers where
  /-- Artifact records. -/
  artifacts : Ledger Artifact.id
  /-- Execution records. -/
  executions : Ledger Execution.id
  /-- Events, oldest first. -/
  events : List Event
  /-- How many batches of artifact records were written. -/
  batches : Nat

namespace Ledgers

/-- The store after something is written. -/
def write (l : Ledgers) : StoreWrite → Ledgers
  | .artifact a => { l with artifacts := l.artifacts.write a }
  | .execution e => { l with executions := l.executions.write e }
  | .event e => { l with events := l.events ++ [e] }
  | .batch as => { l with artifacts := as.foldl .write l.artifacts, batches := l.batches + 1 }

/-- The content of the store: what the maps find under the listed identifiers. -/
def snapshot (l : Ledgers) : Snapshot := ⟨l.artifacts.listing, l.executions.listing, l.events⟩

/-- The ledger after artifact records are inserted whose identifiers it must not know. -/
def load : List Artifact → Ledger Artifact.id → Except StoreError (Ledger Artifact.id)
  | [], l => .ok l
  | a :: as, l =>
    if (l.index a.id).isSome then .error (.duplicateArtifact a.id) else load as (l.write a)

/-- The store with a given content. -/
def ofSnapshot (s : Snapshot) : Except StoreError Ledgers := do
  let artifacts ← load s.artifacts .empty
  return ⟨artifacts, s.executions.foldl .write .empty, s.events, 0⟩

end Ledgers

/-- A store as maps beside lists. -/
def Store.ledgers (s : Store) : Ledgers :=
  ⟨s.artifacts.ledger, s.executions.ledger, s.events, s.batches⟩

namespace Table

variable {α κ : Type} [DecidableEq κ] {key : α → κ}

/-- To write records into a table is to insert them into its ledger. -/
theorem ledger_upsertAll (t : Table key) (xs : List α) :
    (t.upsertAll xs).ledger = xs.foldl .write t.ledger := by
  induction xs generalizing t with
  | nil => rfl
  | cons x xs ih => rw [upsertAll_cons, ih, ledger_upsert, List.foldl_cons]

/-- Lists of records that are written one after another are written as one. -/
theorem upsertAll_append (t : Table key) (xs ys : List α) :
    t.upsertAll (xs ++ ys) = (t.upsertAll xs).upsertAll ys := List.foldl_append

end Table

namespace Store

/-- Maps and lists are written to as the store is. -/
theorem ledgers_write (s : Store) (w : StoreWrite) : (s.write w).ledgers = s.ledgers.write w := by
  cases w with
  | artifact a => rw [ledgers, write, insertArtifact, Table.ledger_upsert]; rfl
  | execution e => rw [ledgers, write, insertExecution, Table.ledger_upsert]; rfl
  | event e => rfl
  | batch as => rw [ledgers, write, put, Table.ledger_upsertAll]; rfl

/-- Maps and lists after several writes are those of the store after them. -/
theorem ledgers_foldl_write (s : Store) (writes : List StoreWrite) :
    (writes.foldl write s).ledgers = writes.foldl .write s.ledgers := by
  induction writes generalizing s with
  | nil => rfl
  | cons w writes ih => rw [List.foldl_cons, ih, ledgers_write, List.foldl_cons]

/-- What several writes leave of artifacts, executions and events. -/
theorem foldl_write (s : Store) (writes : List StoreWrite) :
    let after := writes.foldl write s
    after.artifacts = s.artifacts.upsertAll (writes.flatMap (·.artifacts)) ∧
      after.executions = s.executions.upsertAll (writes.flatMap (·.executions)) ∧
      after.events = s.events ++ writes.flatMap (·.events) := by
  induction writes generalizing s with
  | nil => exact ⟨rfl, rfl, (List.append_nil _).symm⟩
  | cons w writes ih =>
    obtain ⟨hartifacts, hexecutions, hevents⟩ := ih (s.write w)
    simp only [List.foldl_cons, List.flatMap_cons, Table.upsertAll_append]
    rw [hartifacts, hexecutions, hevents]
    cases w with
    | artifact a => exact ⟨rfl, rfl, rfl⟩
    | execution e => exact ⟨rfl, rfl, rfl⟩
    | event e => exact ⟨rfl, rfl, List.append_assoc _ _ _⟩
    | batch as => exact ⟨rfl, rfl, rfl⟩

end Store

/-! ## Loading -/

namespace Store

/-- No identifier is repeated when the identifiers differ and are none of the earlier ones. -/
theorem firstRepeated?_eq_none {as : List Artifact} {earlier : List ArtifactId} :
    firstRepeated? as earlier = none ↔
      (as.map (·.id)).Nodup ∧ ∀ a ∈ as, a.id ∉ earlier := by
  induction as generalizing earlier with
  | nil => simp [firstRepeated?]
  | cons a as ih =>
    rw [firstRepeated?, List.map_cons, List.nodup_cons, List.forall_mem_cons]
    by_cases h : a.id ∈ earlier
    · simp [h]
    · rw [if_neg h, ih]
      simp only [List.mem_cons, not_or, List.mem_map, not_exists, not_and]
      constructor
      · rintro ⟨hnodup, hothers⟩
        exact ⟨⟨fun b hb => (hothers b hb).1, hnodup⟩, h, fun b hb => (hothers b hb).2⟩
      · rintro ⟨⟨hhead, hnodup⟩, _, hothers⟩
        exact ⟨hnodup, fun b hb => ⟨hhead b hb, hothers b hb⟩⟩

/-- The first identifier that is repeated is that of an artifact before which none is. -/
theorem firstRepeated?_eq_some {as : List Artifact} {earlier : List ArtifactId} {id : ArtifactId} :
    firstRepeated? as earlier = some id ↔
      ∃ before a after, as = before ++ a :: after ∧ firstRepeated? before earlier = none ∧
        (a.id ∈ before.map (·.id) ∨ a.id ∈ earlier) ∧ a.id = id := by
  induction as generalizing earlier with
  | nil => simp [firstRepeated?]
  | cons a as ih =>
    rw [firstRepeated?]
    by_cases h : a.id ∈ earlier
    · rw [if_pos h]
      constructor
      · intro hid
        exact ⟨[], a, as, rfl, rfl, .inr h, Option.some.inj hid⟩
      · rintro ⟨_ | ⟨b, before⟩, a', after, heq, hbefore, _, rfl⟩
        · rw [(List.cons.inj heq).1]
        · -- the artifact at the head is repeated already
          obtain ⟨rfl, rfl⟩ := List.cons.inj heq
          rw [firstRepeated?, if_pos h] at hbefore
          cases hbefore
    · rw [if_neg h, ih]
      constructor
      · rintro ⟨before, a', after, rfl, hbefore, hrepeated, hid⟩
        refine ⟨a :: before, a', after, rfl, ?_, ?_, hid⟩
        · rwa [firstRepeated?, if_neg h]
        · simpa [or_assoc, or_left_comm] using hrepeated
      · rintro ⟨_ | ⟨b, before⟩, a', after, heq, hbefore, hrepeated, hid⟩
        · obtain ⟨rfl, rfl⟩ := List.cons.inj heq
          simp [h] at hrepeated
        · obtain ⟨rfl, rfl⟩ := List.cons.inj heq
          rw [firstRepeated?, if_neg h] at hbefore
          exact ⟨before, a', after, rfl, hbefore,
            by simpa [or_assoc, or_left_comm] using hrepeated, hid⟩

/-- Loading fails at the first artifact with the identifier of an earlier one, which it names. -/
theorem ofSnapshot_eq_error {s : Snapshot} {e : StoreError} :
    ofSnapshot s = .error e ↔ ∃ before a after, s.artifacts = before ++ a :: after ∧
      (before.map (·.id)).Nodup ∧ a.id ∈ before.map (·.id) ∧ e = .duplicateArtifact a.id := by
  have hrepeated (id : ArtifactId) : firstRepeated? s.artifacts [] = some id ↔
      ∃ before a after, s.artifacts = before ++ a :: after ∧ (before.map (·.id)).Nodup ∧
        a.id ∈ before.map (·.id) ∧ a.id = id := by
    simp only [firstRepeated?_eq_some, firstRepeated?_eq_none, List.not_mem_nil, or_false,
      not_false_eq_true, implies_true, and_true]
  rw [ofSnapshot]
  cases hfirst : firstRepeated? s.artifacts [] with
  | none =>
    refine iff_of_false nofun ?_
    rintro ⟨before, a, after, heq, hnodup, hmem, _⟩
    rw [(hrepeated a.id).mpr ⟨before, a, after, heq, hnodup, hmem, rfl⟩] at hfirst
    cases hfirst
  | some id =>
    obtain ⟨before, a, after, heq, hnodup, hmem, rfl⟩ := (hrepeated id).mp hfirst
    constructor
    · rintro ⟨⟩
      exact ⟨before, a, after, heq, hnodup, hmem, rfl⟩
    · rintro ⟨before', a', after', heq', hnodup', hmem', rfl⟩
      have hsame := (hrepeated a'.id).mpr ⟨before', a', after', heq', hnodup', hmem', rfl⟩
      rw [hfirst] at hsame
      rw [Option.some.inj hsame]

/-- Loading succeeds where no artifact identifier is repeated, with all records written in their
order. -/
theorem ofSnapshot_eq_ok {t : Snapshot} {s : Store} :
    ofSnapshot t = .ok s ↔ (t.artifacts.map (·.id)).Nodup ∧
      s = ⟨.ofList t.artifacts, .ofList t.executions, t.events, 0⟩ := by
  have hnone : firstRepeated? t.artifacts [] = none ↔ (t.artifacts.map (·.id)).Nodup := by
    simp [firstRepeated?_eq_none]
  rw [← hnone, ofSnapshot]
  cases firstRepeated? t.artifacts [] with
  | none => simp [eq_comm]
  | some id => simp

end Store

/-- Loading into maps and lists fails or succeeds as it does into the store. -/
theorem Ledgers.load_ledger (as : List Artifact) (t : Table Artifact.id)
    {earlier : List ArtifactId} (h : ∀ id, id ∈ earlier ↔ id ∈ t.keys) :
    load as t.ledger = match Store.firstRepeated? as earlier with
      | some id => .error (.duplicateArtifact id)
      | none => .ok (t.upsertAll as).ledger := by
  induction as generalizing t earlier with
  | nil => rfl
  | cons a as ih =>
    have hknown : (t.ledger.index a.id).isSome ↔ a.id ∈ earlier :=
      Table.isSome_find?.trans (h a.id).symm
    rw [load, Store.firstRepeated?]
    by_cases hmem : a.id ∈ earlier
    · rw [if_pos hmem, if_pos (hknown.mpr hmem)]
    · rw [if_neg hmem, if_neg (mt hknown.mp hmem), ← Table.ledger_upsert]
      refine ih (t.upsert a) fun id => ?_
      rw [Table.keys_upsert, if_neg (mt (h a.id).mpr hmem)]
      simp [h, or_comm]

/-- Loading into maps and lists is loading into the store. -/
theorem Ledgers.ofSnapshot_eq (s : Snapshot) :
    ofSnapshot s = (Store.ofSnapshot s).map Store.ledgers := by
  have hnone : ∀ id, id ∈ ([] : List ArtifactId) ↔ id ∈ (Table.empty : Table Artifact.id).keys :=
    fun _ => Iff.rfl
  have hload := load_ledger s.artifacts .empty hnone
  have hexecutions : (Table.ofList s.executions : Table Execution.id).ledger =
      s.executions.foldl .write .empty := Table.ledger_upsertAll .empty s.executions
  rw [ofSnapshot, Store.ofSnapshot]
  have hempty : (Table.empty : Table Artifact.id).ledger = .empty := rfl
  rw [← hempty, hload, ← hexecutions]
  cases Store.firstRepeated? s.artifacts [] with
  | none => rfl
  | some id => rfl

/-! ## Saving -/

/-- Two stores give the same answers to all questions. -/
structure Store.AnswersAs (s s' : Store) : Prop where
  /-- The same artifacts are live outputs of a node. -/
  liveOutputs : ∀ uid, s.liveOutputs uid = s'.liveOutputs uid
  /-- The same events are on some artifacts. -/
  eventsOn : ∀ ids, s.eventsOn ids = s'.eventsOn ids
  /-- The same executions have some identifiers. -/
  executionsOf : ∀ ids, s.executionsOf ids = s'.executionsOf ids
  /-- The same record is that of an artifact. -/
  artifact : ∀ id, s.artifact? id = s'.artifact? id

/-- A store that is loaded from the snapshot of another one differs from it in the number of batches
only. -/
theorem Store.ofSnapshot_snapshot (s : Store) :
    ofSnapshot s.snapshot = .ok { s with batches := 0 } := by
  refine ofSnapshot_eq_ok.mpr ⟨s.artifacts.nodup, ?_⟩
  change _ = Store.mk (.ofList s.artifacts.records) (.ofList s.executions.records) s.events 0
  rw [Table.ofList_records, Table.ofList_records]

/-- The snapshot of the maps and lists is that of the store. -/
theorem Store.snapshot_ledgers (s : Store) : s.ledgers.snapshot = s.snapshot := by
  rw [Ledgers.snapshot, ledgers, Table.listing_ledger, Table.listing_ledger]
  rfl

/-- Where no key is repeated, the last record of every key is the only one. -/
theorem latest_of_nodup {α κ : Type} [DecidableEq κ] {key : α → κ} {records : List α}
    (h : (records.map key).Nodup) : latest key records = records := by
  let t : Table key := ⟨records, h⟩
  have hlists := Table.lists_ledger t []
  rw [List.append_nil] at hlists
  exact hlists.listing.symm.trans t.listing_ledger

/-- What maps, lists and snapshot hold after several writes into a store that was loaded. -/
theorem Store.lists_of_loaded {start : Snapshot} {loaded : Store}
    (hloaded : ofSnapshot start = .ok loaded) (writes : List StoreWrite) :
    let s := writes.foldl write loaded
    let artifacts := start.artifacts ++ writes.flatMap (·.artifacts)
    let executions := start.executions ++ writes.flatMap (·.executions)
    s.ledgers.artifacts.Lists artifacts ∧ s.ledgers.executions.Lists executions ∧
      s.snapshot = ⟨latest Artifact.id artifacts, latest Execution.id executions,
        start.events ++ writes.flatMap (·.events)⟩ := by
  intro s artifacts executions
  obtain ⟨_, rfl⟩ := ofSnapshot_eq_ok.mp hloaded
  obtain ⟨hartifacts, hexecutions, hevents⟩ := foldl_write
    ⟨.ofList start.artifacts, .ofList start.executions, start.events, 0⟩ writes
  have hstored : s.artifacts = .ofList artifacts :=
    hartifacts.trans (Table.upsertAll_append .empty _ _).symm
  have hknown : s.executions = .ofList executions :=
    hexecutions.trans (Table.upsertAll_append .empty _ _).symm
  have hallArtifacts : s.ledgers.artifacts.Lists artifacts := by
    rw [ledgers, hstored]
    exact Table.lists_ledger .empty artifacts
  have hallExecutions : s.ledgers.executions.Lists executions := by
    rw [ledgers, hknown]
    exact Table.lists_ledger .empty executions
  refine ⟨hallArtifacts, hallExecutions, ?_⟩
  rw [← s.snapshot_ledgers, Ledgers.snapshot, hallArtifacts.listing, hallExecutions.listing]
  exact congrArg _ hevents

/-- A loaded store has the content of the snapshot, with the last of several executions that share
an identifier in place of the first. -/
theorem Store.snapshot_of_loaded {start : Snapshot} {loaded : Store}
    (hloaded : ofSnapshot start = .ok loaded) :
    loaded.snapshot = ⟨start.artifacts, latest Execution.id start.executions, start.events⟩ := by
  obtain ⟨_, _, hstart⟩ := lists_of_loaded hloaded []
  simp only [List.foldl_nil, List.flatMap_nil, List.append_nil] at hstart
  rw [hstart, latest_of_nodup (ofSnapshot_eq_ok.mp hloaded).1]

/-- A snapshot is loaded unless an artifact has the identifier of an earlier one. The first such
artifact is named then, and otherwise the store has the content of the snapshot, with the last of
several executions that share an identifier in place of the first. Maps and lists are loaded in the
same way, and the snapshot without records gives the empty store.

When records, events and batches are written into a loaded store, in any number and order, the maps
and the lists beside them agree: the lists have every identifier that was written, once and in the
order of its first insertion, and no other one has a record; the maps have the last record of every
identifier. So the snapshot has every record, once, in that order and as it was last written. It can
be loaded, and a store that is loaded from it has the same snapshot and gives the same answers. -/
theorem snapshot_captures_store (start : Snapshot) (writes : List StoreWrite) :
    ((∀ e, Store.ofSnapshot start = .error e ↔ ∃ before a after,
        start.artifacts = before ++ a :: after ∧ (before.map (·.id)).Nodup ∧
          a.id ∈ before.map (·.id) ∧ e = .duplicateArtifact a.id) ∧
      ((start.artifacts.map (·.id)).Nodup ↔ ∃ loaded, Store.ofSnapshot start = .ok loaded) ∧
      Store.ofSnapshot ⟨[], [], []⟩ = .ok .empty ∧
      Ledgers.ofSnapshot start = (Store.ofSnapshot start).map Store.ledgers) ∧
    ∀ loaded, Store.ofSnapshot start = .ok loaded →
      let s := writes.foldl .write loaded
      let ledgers := writes.foldl .write loaded.ledgers
      let artifacts := start.artifacts ++ writes.flatMap (·.artifacts)
      let executions := start.executions ++ writes.flatMap (·.executions)
      loaded.snapshot =
        ⟨start.artifacts, latest Execution.id start.executions, start.events⟩ ∧
      (ledgers = s.ledgers ∧ ledgers.artifacts.Lists artifacts ∧
        ledgers.executions.Lists executions ∧ ledgers.snapshot = s.snapshot) ∧
      s.snapshot = ⟨latest Artifact.id artifacts, latest Execution.id executions,
        start.events ++ writes.flatMap (·.events)⟩ ∧
      ∃ reloaded, Store.ofSnapshot s.snapshot = .ok reloaded ∧
        reloaded.snapshot = s.snapshot ∧ reloaded.AnswersAs s := by
  refine ⟨⟨fun e => Store.ofSnapshot_eq_error, ?_, rfl, Ledgers.ofSnapshot_eq start⟩, ?_⟩
  · simp only [Store.ofSnapshot_eq_ok, exists_and_left, exists_eq, and_true]
  intro loaded hloaded s ledgers artifacts executions
  have hledgers : ledgers = s.ledgers := (loaded.ledgers_foldl_write writes).symm
  obtain ⟨hartifacts, hexecutions, hsnapshot⟩ := Store.lists_of_loaded hloaded writes
  refine ⟨Store.snapshot_of_loaded hloaded, ?_, hsnapshot, ?_⟩
  · rw [hledgers]
    exact ⟨rfl, hartifacts, hexecutions, s.snapshot_ledgers⟩
  · exact ⟨{ s with batches := 0 }, s.ofSnapshot_snapshot, rfl,
      ⟨fun _ => rfl, fun _ => rfl, fun _ => rfl, fun _ => rfl⟩⟩

/-- A snapshot with two records of one execution is loaded with the last one. Then a model is
written, and a batch replaces both models. The store lists the first model first. -/
theorem replaced_models_keep_their_places :
    let start : Snapshot :=
      ⟨[model 2 "/2"], [⟨⟨1⟩, trainer, .running⟩, ⟨⟨1⟩, trainer, .complete⟩], []⟩
    let loaded : Store := ⟨.ofList [model 2 "/2"], .ofList [⟨⟨1⟩, trainer, .complete⟩], [], 0⟩
    let writes : List StoreWrite := [.event (.published ⟨2⟩ ⟨1⟩ "model"), .artifact (model 1 "/1"),
      .batch [(model 1 "/1").markDeleted, (model 2 "/2").markDeleted]]
    let s := writes.foldl .write loaded
    Store.ofSnapshot start = .ok loaded ∧
      s.snapshot = ⟨[(model 2 "/2").markDeleted, (model 1 "/1").markDeleted],
        [⟨⟨1⟩, trainer, .complete⟩], [.published ⟨2⟩ ⟨1⟩ "model"]⟩ ∧
      (writes.foldl .write loaded.ledgers).artifacts.order = [⟨2⟩, ⟨1⟩] ∧
      (writes.foldl .write loaded.ledgers).snapshot = s.snapshot ∧
      ∃ reloaded, Store.ofSnapshot s.snapshot = .ok reloaded ∧ reloaded.AnswersAs s := by
  intro start loaded writes s
  have hloaded : Store.ofSnapshot start = .ok loaded := by decide +kernel
  obtain ⟨_, hsaved⟩ := snapshot_captures_store start writes
  obtain ⟨_, ⟨_, _, _, hsame⟩, _, reloaded, hreloaded, _, hanswers⟩ := hsaved loaded hloaded
  exact ⟨hloaded, by decide +kernel, by decide +kernel, hsame, reloaded, hreloaded, hanswers⟩

end ArtifactGC

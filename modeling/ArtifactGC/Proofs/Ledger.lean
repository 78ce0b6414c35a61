import ArtifactGC.Memory.Store
import ArtifactGC.Proofs.Collections

/-!
# Maps that remember the order of insertion

A store may hold its records in a map from identifiers beside a list of the identifiers in the order
of their first insertion, and list its records by looking up one identifier of that list after
another. A `Ledger` is such a pair. Nothing in its type ties the two together, so an identifier
could be listed twice, or without a record, which the listing would pass over. `lists_ledger` says
that this does not happen: the ledger of a table into which records are written lists every key that
was written once, in the order of the first record that has it, and finds the last one.
-/

namespace ArtifactGC

variable {α κ : Type} [DecidableEq κ] {key : α → κ}

/-- The last record of every key, in the order of the first record that has the key. -/
def latest (key : α → κ) (records : List α) : List α :=
  (distinctOn id (records.map key)).filterMap fun k => records.findRev? fun r => key r = k

/-- A map from keys to records, and beside it a list of keys. -/
structure Ledger {α κ : Type} (key : α → κ) where
  /-- The record of a key, if there is one. -/
  index : κ → Option α
  /-- The keys in the order of their first insertion. -/
  order : List κ

namespace Ledger

omit [DecidableEq κ] in
/-- The ledger without records. -/
def empty : Ledger key := ⟨fun _ => none, []⟩

/-- The ledger after a record is inserted: the map finds it under its key, which is listed if the
map had nothing there before. -/
def write (l : Ledger key) (x : α) : Ledger key where
  index k := if k = key x then some x else l.index k
  order := if (l.index (key x)).isNone then l.order ++ [key x] else l.order

omit [DecidableEq κ] in
/-- The records that the map finds under the listed keys. -/
def listing (l : Ledger key) : List α := l.order.filterMap l.index

/-- The ledger holds what is left of some records that were written one after another. -/
structure Lists (l : Ledger key) (written : List α) : Prop where
  /-- The keys are listed in the order of their first insertion. -/
  order : l.order = distinctOn id (written.map key)
  /-- No key is listed twice. -/
  nodup : l.order.Nodup
  /-- The keys that are listed are those that have a record. -/
  mem_order : ∀ k, k ∈ l.order ↔ (l.index k).isSome
  /-- The record of a key is the last one. -/
  index : ∀ k, l.index k = written.findRev? fun r => key r = k
  /-- Every listed key has its record in the listing. -/
  keys : l.listing.map key = l.order
  /-- The listing has the last record of every key. -/
  listing : l.listing = latest key written

end Ledger

namespace Table

/-- A table as a ledger. -/
def ledger (t : Table key) : Ledger key := ⟨t.find?, t.keys⟩

/-- A key has a record if and only if it is one of the keys. -/
theorem isSome_find? {t : Table key} {k : κ} : (t.find? k).isSome ↔ k ∈ t.keys := by
  rw [Option.isSome_iff_exists, keys, List.mem_map]
  exact exists_congr fun r => find?_eq_some

/-- To write a record into a table is to insert it into its ledger. -/
theorem ledger_upsert (t : Table key) (x : α) : (t.upsert x).ledger = t.ledger.write x := by
  have hindex : (t.upsert x).find? = fun k => if k = key x then some x else t.find? k :=
    funext fun k => find?_upsert t x k
  have horder : (t.upsert x).keys =
      if (t.find? (key x)).isNone then t.keys ++ [key x] else t.keys := by
    rw [keys_upsert]
    by_cases h : key x ∈ t.keys
    · rw [if_pos h, if_neg]
      rw [Option.isNone_iff_eq_none, ← Option.not_isSome_iff_eq_none, not_not]
      exact isSome_find?.mpr h
    · rw [if_neg h, if_pos]
      rw [Option.isNone_iff_eq_none, ← Option.not_isSome_iff_eq_none]
      exact fun hsome => h (isSome_find?.mp hsome)
  rw [ledger, hindex, horder]
  rfl

/-- The listing of the ledger of a table is its records. -/
theorem listing_ledger (t : Table key) : t.ledger.listing = t.records := by
  have hfound : ∀ r ∈ t.records, (t.find? ∘ key) r = some r := fun r hr =>
    find?_eq_some.mpr ⟨hr, rfl⟩
  change (t.records.map key).filterMap t.find? = t.records
  rw [List.filterMap_map, List.filterMap_congr hfound, List.filterMap_some]

/-- Of the keys of a table none is dropped. -/
theorem distinctOn_keys (t : Table key) : distinctOn id t.keys = t.keys :=
  distinctOn_of_nodup (by rw [List.map_id]; exact t.nodup)

/-- The keys of records that are written after others are listed after those. -/
theorem keys_upsertAll_eq (t : Table key) (xs : List α) :
    (t.upsertAll xs).keys = distinctOn id (t.keys ++ xs.map key) := by
  induction xs generalizing t with
  | nil => rw [upsertAll_nil, List.map_nil, List.append_nil, distinctOn_keys]
  | cons x xs ih =>
    have hwritten : (t.upsert x).keys = distinctOn id (t.keys ++ [key x]) := by
      rw [keys_upsert, distinctOn_concat, distinctOn_keys, List.map_id]
      rfl
    rw [upsertAll_cons, ih, hwritten, distinctOn_distinctOn_append, List.map_cons,
      List.append_cons t.keys (key x) (xs.map key)]

/-- The keys differ, so a record is the last one with its key. -/
theorem findRev?_records (t : Table key) (k : κ) :
    (t.records.findRev? fun r => key r = k) = t.find? k := by
  refine Option.ext fun r => ?_
  rw [List.findRev?_eq_find?_reverse, find?_eq_some]
  constructor
  · intro h
    exact ⟨List.mem_reverse.mp (List.mem_of_find?_eq_some h), by simpa using List.find?_some h⟩
  · rintro ⟨hr, rfl⟩
    have hnodup : (t.records.reverse.map key).Nodup := by
      rw [List.map_reverse, List.nodup_reverse]
      exact t.nodup
    exact find?_eq_some (t := ⟨t.records.reverse, hnodup⟩).mpr ⟨List.mem_reverse.mpr hr, rfl⟩

/-- A lookup finds the last record that was written under a key, or else what was there. -/
theorem find?_upsertAll (t : Table key) (xs : List α) (k : κ) :
    (t.upsertAll xs).find? k = (t.records ++ xs).findRev? fun r => key r = k := by
  induction xs generalizing t with
  | nil => rw [upsertAll_nil, List.append_nil, findRev?_records]
  | cons x xs ih =>
    have hx := findRev?_records (t.upsert x) k
    rw [List.findRev?_eq_find?_reverse, find?_upsert] at hx
    have ht := findRev?_records t k
    rw [List.findRev?_eq_find?_reverse] at ht
    rw [upsertAll_cons, ih]
    simp only [List.findRev?_eq_find?_reverse, List.reverse_append, List.reverse_cons,
      List.find?_append, hx, ht]
    by_cases h : k = key x
    · simp [h]
    · simp [h, Ne.symm h]

/-- A table is what its own records leave. -/
theorem ofList_records (t : Table key) : ofList t.records = t := by
  refine ext_find? ?_ fun k => ?_
  · rw [ofList, keys_upsertAll_eq]
    exact distinctOn_keys t
  · rw [ofList, find?_upsertAll]
    exact findRev?_records t k

/-- The ledger of a table holds what is left of its records and those that are written after
them. -/
theorem lists_ledger (t : Table key) (written : List α) :
    (t.upsertAll written).ledger.Lists (t.records ++ written) where
  order := by
    rw [List.map_append]
    exact keys_upsertAll_eq t written
  nodup := (t.upsertAll written).nodup
  mem_order k := isSome_find?.symm
  index := find?_upsertAll t written
  keys := by
    rw [listing_ledger]
    rfl
  listing := by
    have horder : (t.upsertAll written).keys = distinctOn id ((t.records ++ written).map key) := by
      rw [List.map_append]
      exact keys_upsertAll_eq t written
    rw [Ledger.listing, latest, ledger, horder]
    exact List.filterMap_congr fun k _ => find?_upsertAll t written k

end Table

end ArtifactGC

/-!
# Records in the order of their first insertion

A metadata store holds at most one record per identifier and lists its records in the order in
which their identifiers were first written. `Table key` is such a list together with the fact
that no key repeats. Writing a record with a known key replaces it in place; a new key goes to
the end. The main statements are `find?_upsert`, which says what a lookup sees after a write,
and `keys_upsert`, which says how a write changes the order.
-/

namespace ArtifactGC

/-- Records with pairwise different keys, in the order of first insertion. -/
structure Table {α κ : Type} (key : α → κ) where
  /-- The records. -/
  records : List α
  /-- No key repeats. -/
  nodup : (records.map key).Nodup

namespace Table

variable {α κ : Type} [DecidableEq κ] {key : α → κ}

omit [DecidableEq κ] in
/-- Tables are equal when their records are. -/
@[ext] theorem ext {t u : Table key} (h : t.records = u.records) : t = u := by
  cases t; cases u; cases h; rfl

instance [DecidableEq α] : DecidableEq (Table key) := fun t u =>
  decidable_of_iff (t.records = u.records) ⟨ext, fun h => h ▸ rfl⟩

instance [Repr α] : Repr (Table key) := ⟨fun t n => reprPrec t.records n⟩

/-- The table without records. -/
def empty : Table key := ⟨[], .nil⟩

instance : Inhabited (Table key) := ⟨empty⟩

/-- The keys in the order of their first insertion. -/
def keys (t : Table key) : List κ := t.records.map key

/-- The record of a key, if there is one. -/
def find? (t : Table key) (k : κ) : Option α := t.records.find? (fun r => key r = k)

/-- Whether a key has a record. -/
def contains (t : Table key) (k : κ) : Bool := t.records.any (fun r => key r = k)

/-- A table has a key when some record carries it. -/
theorem contains_iff {t : Table key} {k : κ} : t.contains k = true ↔ k ∈ t.keys := by
  simp [contains, keys]

private theorem map_key_replace (x : α) (rs : List α) :
    (rs.map fun r => if key r = key x then x else r).map key = rs.map key := by
  rw [List.map_map]
  refine List.map_congr_left fun r _ => ?_
  by_cases h : key r = key x <;> simp [h]

/-- The table after a record is written: in place of the one with its key, or at the end. -/
def upsert (t : Table key) (x : α) : Table key :=
  if h : t.contains (key x) then
    ⟨t.records.map fun r => if key r = key x then x else r, by
      rw [map_key_replace]; exact t.nodup⟩
  else
    ⟨t.records ++ [x], by
      have hx : key x ∉ t.keys := fun hk => h (contains_iff.mpr hk)
      rw [List.map_append, List.nodup_append]
      refine ⟨t.nodup, by simp, fun a ha b hb => ?_⟩
      have hb : b = key x := by simpa using hb
      rintro rfl
      exact hx (hb ▸ ha)⟩

/-- The table after a list of records is written one after another. -/
def upsertAll (t : Table key) (xs : List α) : Table key :=
  xs.foldl upsert t

/-- The table that a list of records leaves when they are written into an empty one. -/
def ofList (xs : List α) : Table key := empty.upsertAll xs

@[simp] theorem upsertAll_nil (t : Table key) : t.upsertAll [] = t := rfl

@[simp] theorem upsertAll_cons (t : Table key) (x : α) (xs : List α) :
    t.upsertAll (x :: xs) = (t.upsert x).upsertAll xs := rfl

/-- A write leaves the order alone when the key is known and appends a new key. -/
theorem keys_upsert (t : Table key) (x : α) :
    (t.upsert x).keys = if key x ∈ t.keys then t.keys else t.keys ++ [key x] := by
  by_cases h : t.contains (key x)
  · rw [if_pos (contains_iff.mp h)]
    simp only [upsert, h, dite_true, keys]
    exact map_key_replace x t.records
  · rw [if_neg fun hk => h (contains_iff.mpr hk)]
    simp [upsert, h, keys]

private theorem find?_replace (x : α) (k : κ) (rs : List α) :
    (rs.map fun r => if key r = key x then x else r).find? (fun r => key r = k) =
      if k = key x ∧ key x ∈ rs.map key then some x else rs.find? (fun r => key r = k) := by
  induction rs with
  | nil => simp
  | cons r rs ih =>
    by_cases hk : k = key x
    · subst hk
      by_cases hr : key r = key x
      · simp [hr]
      · have hr' : ¬ key x = key r := fun h => hr h.symm
        simpa [hr, hr'] using ih
    · have hk' : ¬ key x = k := fun h => hk h.symm
      by_cases hr : key r = key x
      · simpa [hr, hk', hk] using ih
      · by_cases hrk : key r = k
        · simp [hrk, hk]
        · simpa [hr, hk, hrk] using ih

/-- A lookup sees the written record at its key and the old table elsewhere. -/
@[simp] theorem find?_upsert (t : Table key) (x : α) (k : κ) :
    (t.upsert x).find? k = if k = key x then some x else t.find? k := by
  by_cases h : t.contains (key x)
  · have hx := contains_iff.mp h
    simp only [upsert, h, dite_true, find?]
    rw [find?_replace]
    by_cases hk : k = key x
    · rw [if_pos ⟨hk, hx⟩, if_pos hk]
    · rw [if_neg fun hc => hk hc.1, if_neg hk]
  · simp only [upsert, h, find?]
    by_cases hk : k = key x
    · subst hk
      have hnone : t.records.find? (fun r => key r = key x) = none := by
        rw [List.find?_eq_none]
        intro r hr he
        exact h (contains_iff.mpr (List.mem_map.mpr ⟨r, hr, by simpa using he⟩))
      simp [hnone]
    · have hk' : ¬ key x = k := fun he => hk he.symm
      simp [hk, hk']

end Table

end ArtifactGC

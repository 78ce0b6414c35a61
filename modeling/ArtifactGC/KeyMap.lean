/-!
# Maps from text keys in key order

Properties, outputs and live artifacts are tables from a text key to a value. A `KeyMap` holds
its entries strictly ascending in the key, so that two maps with the same entries are equal and
every walk over a map goes through the keys in the order of their code points. Later insertions
win. The main statements are `find?_insert`, which says what a lookup sees after an insertion,
and `ofList_entries`, which says that rebuilding a map from its own entries changes nothing.
-/

namespace ArtifactGC

/-- A map from text keys to values, held in ascending key order. -/
structure KeyMap (β : Type) where
  /-- The entries, one per key. -/
  entries : List (String × β)
  /-- Keys ascend strictly. -/
  sorted : entries.Pairwise (fun a b => compare a.1 b.1 = .lt)

namespace KeyMap

variable {β γ : Type}

/-- Maps are equal when their entries are. -/
@[ext] theorem ext {m n : KeyMap β} (h : m.entries = n.entries) : m = n := by
  cases m; cases n; cases h; rfl

instance [DecidableEq β] : DecidableEq (KeyMap β) := fun m n =>
  decidable_of_iff (m.entries = n.entries) ⟨ext, fun h => h ▸ rfl⟩

instance [Repr β] : Repr (KeyMap β) := ⟨fun m n => reprPrec m.entries n⟩

/-- The map without entries. -/
def empty : KeyMap β := ⟨[], .nil⟩

instance : Inhabited (KeyMap β) := ⟨empty⟩

/-- The keys in ascending order. -/
def keys (m : KeyMap β) : List String := m.entries.map (·.1)

/-- The values in the order of their keys. -/
def values (m : KeyMap β) : List β := m.entries.map (·.2)

/-- Whether the map has no entry. -/
def isEmpty (m : KeyMap β) : Bool := m.entries.isEmpty

/-- The value of a key, if it has one. -/
def find? (m : KeyMap β) (key : String) : Option β := m.entries.lookup key

/-- Insertion into an ascending list of entries; the value of an equal key is replaced. -/
def insertEntry (key : String) (value : β) : List (String × β) → List (String × β)
  | [] => [(key, value)]
  | e :: es =>
    match compare key e.1 with
    | .lt => (key, value) :: e :: es
    | .eq => (key, value) :: es
    | .gt => e :: insertEntry key value es

private theorem key_of_mem_insertEntry {key : String} {value : β} {es : List (String × β)}
    {a : String × β} (h : a ∈ insertEntry key value es) : a.1 = key ∨ a ∈ es := by
  induction es with
  | nil => simp_all [insertEntry]
  | cons e es ih =>
    unfold insertEntry at h
    split at h
    · rcases List.mem_cons.mp h with rfl | h
      · exact .inl rfl
      · exact .inr h
    · rcases List.mem_cons.mp h with rfl | h
      · exact .inl rfl
      · exact .inr (List.mem_cons_of_mem _ h)
    · rcases List.mem_cons.mp h with rfl | h
      · exact .inr List.mem_cons_self
      · exact (ih h).imp_right (List.mem_cons_of_mem _)

/-- Insertion keeps the keys strictly ascending. -/
theorem pairwise_insertEntry (key : String) (value : β) {es : List (String × β)}
    (h : es.Pairwise (fun a b => compare a.1 b.1 = .lt)) :
    (insertEntry key value es).Pairwise (fun a b => compare a.1 b.1 = .lt) := by
  induction es with
  | nil => simp [insertEntry]
  | cons e es ih =>
    obtain ⟨he, hes⟩ := List.pairwise_cons.mp h
    unfold insertEntry
    split
    · rename_i hk
      refine List.pairwise_cons.mpr ⟨fun a ha => ?_, h⟩
      rcases List.mem_cons.mp ha with rfl | ha
      · exact hk
      · exact Std.TransCmp.lt_trans hk (he a ha)
    · rename_i hk
      have hk : key = e.1 := Std.LawfulEqOrd.eq_of_compare hk
      exact List.pairwise_cons.mpr ⟨fun a ha => hk ▸ he a ha, hes⟩
    · rename_i hk
      refine List.pairwise_cons.mpr ⟨fun a ha => ?_, ih hes⟩
      rcases key_of_mem_insertEntry ha with hkey | ha
      · exact hkey ▸ Std.OrientedCmp.lt_of_gt hk
      · exact he a ha

/-- The map with one value set. -/
def insert (m : KeyMap β) (key : String) (value : β) : KeyMap β :=
  ⟨insertEntry key value m.entries, pairwise_insertEntry key value m.sorted⟩

/-- The map of a list of entries; of two entries with one key the later wins. -/
def ofList (es : List (String × β)) : KeyMap β :=
  es.foldl (fun m e => m.insert e.1 e.2) empty

/-- The map with every value replaced by a function of it that may have no result. -/
def filterMap (f : β → Option γ) (m : KeyMap β) : KeyMap γ where
  entries := m.entries.filterMap fun e => (f e.2).map (e.1, ·)
  sorted := by
    refine List.Pairwise.filterMap _ (fun a b hab x hx y hy => ?_) m.sorted
    simp only [Option.map_eq_some_iff] at hx hy
    obtain ⟨_, _, rfl⟩ := hx
    obtain ⟨_, _, rfl⟩ := hy
    exact hab

private theorem lookup_cons_if (k : String) (e : String × β) (es : List (String × β)) :
    (e :: es).lookup k = if k = e.1 then some e.2 else es.lookup k := by
  rw [List.lookup_cons]
  by_cases h : k = e.1
  · simp [h]
  · simp [h, beq_eq_false_iff_ne.mpr h]

private theorem lookup_insertEntry (key : String) (value : β) (es : List (String × β))
    (k : String) :
    (insertEntry key value es).lookup k = if k = key then some value else es.lookup k := by
  induction es with
  | nil => rw [insertEntry, lookup_cons_if]
  | cons e es ih =>
    unfold insertEntry
    split
    · rw [lookup_cons_if]
    · rename_i hk
      have hk : key = e.1 := Std.LawfulEqOrd.eq_of_compare hk
      subst hk
      rw [lookup_cons_if, lookup_cons_if]
      split <;> simp_all
    · rename_i hk
      rw [lookup_cons_if, lookup_cons_if, ih]
      by_cases h : k = e.1
      · have hne : k ≠ key := by rintro rfl; subst h; simp at hk
        rw [if_pos h, if_neg hne, if_pos h]
      · rw [if_neg h, if_neg h]

/-- A lookup sees the inserted value at its key and the old map elsewhere. -/
@[simp] theorem find?_insert (m : KeyMap β) (key : String) (value : β) (k : String) :
    (m.insert key value).find? k = if k = key then some value else m.find? k :=
  lookup_insertEntry key value m.entries k

private theorem insertEntry_of_all_lt {key : String} {value : β} {es : List (String × β)}
    (h : ∀ e ∈ es, compare e.1 key = .lt) : insertEntry key value es = es ++ [(key, value)] := by
  induction es with
  | nil => rfl
  | cons e es ih =>
    have he := Std.OrientedCmp.gt_of_lt (h e List.mem_cons_self)
    simp [insertEntry, he, ih fun a ha => h a (List.mem_cons_of_mem _ ha)]

private theorem entries_foldl_insert (es : List (String × β)) (m : KeyMap β)
    (h : (m.entries ++ es).Pairwise (fun a b => compare a.1 b.1 = .lt)) :
    (es.foldl (fun m e => m.insert e.1 e.2) m).entries = m.entries ++ es := by
  induction es generalizing m with
  | nil => simp
  | cons e es ih =>
    have hlt : ∀ a ∈ m.entries, compare a.1 e.1 = .lt := fun a ha =>
      (List.pairwise_append.mp h).2.2 a ha e List.mem_cons_self
    have hins : (m.insert e.1 e.2).entries = m.entries ++ [e] := insertEntry_of_all_lt hlt
    simp only [List.foldl_cons]
    rw [ih _ (by simpa [hins] using h), hins]
    simp

/-- A map is the map of its own entries. -/
@[simp] theorem ofList_entries (m : KeyMap β) : ofList m.entries = m :=
  ext <| by simpa [ofList, empty] using entries_foldl_insert m.entries empty m.sorted

end KeyMap

end ArtifactGC

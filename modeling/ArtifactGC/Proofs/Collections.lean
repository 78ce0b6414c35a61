import ArtifactGC.Distinct
import ArtifactGC.KeyMap
import ArtifactGC.Table
import Mathlib.Data.List.Nodup
import Mathlib.Data.Option.Basic

/-!
# Laws of the collections

Lookups in tables and maps are membership: a key determines its record. A list with ascending keys
is determined by its elements. Keeping the first element of every key commutes with dropping keys,
and grows at the end of a list by at most one element. A list is mapped by a function that may fail
as far as its first failure.
-/

namespace ArtifactGC

namespace Table

variable {α κ : Type} [DecidableEq κ] {key : α → κ}

/-- A lookup finds exactly the record that carries the key. -/
theorem find?_eq_some {t : Table key} {k : κ} {r : α} :
    t.find? k = some r ↔ r ∈ t.records ∧ key r = k := by
  constructor
  · intro h
    exact ⟨List.mem_of_find?_eq_some h, by simpa using List.find?_some h⟩
  · rintro ⟨hr, rfl⟩
    cases hf : t.find? (key r) with
    | none => simpa using List.find?_eq_none.mp hf r hr
    | some r' =>
      have hkey : key r' = key r := by simpa using List.find?_some hf
      have hr' : r' ∈ t.records := List.mem_of_find?_eq_some hf
      rw [List.inj_on_of_nodup_map t.nodup hr' hr hkey]

/-- The record that a lookup finds carries the key. -/
theorem key_of_find? {t : Table key} {k : κ} {r : α} (h : t.find? k = some r) : key r = k :=
  (find?_eq_some.mp h).2

/-- A key that is not written keeps its record. -/
theorem find?_upsertAll_of_notMem {t : Table key} {xs : List α} {k : κ} (h : k ∉ xs.map key) :
    (t.upsertAll xs).find? k = t.find? k := by
  induction xs generalizing t with
  | nil => rfl
  | cons x xs ih =>
    rw [List.map_cons, List.mem_cons, not_or] at h
    rw [upsertAll_cons, ih h.2, find?_upsert, if_neg h.1]

/-- A key that is written has one of the written records. -/
theorem find?_upsertAll_of_mem {t : Table key} {xs : List α} {k : κ} (h : k ∈ xs.map key) :
    ∃ x ∈ xs, (t.upsertAll xs).find? k = some x := by
  induction xs generalizing t with
  | nil => cases h
  | cons x xs ih =>
    rw [upsertAll_cons]
    by_cases hk : k ∈ xs.map key
    · obtain ⟨y, hy, hfind⟩ := ih (t := t.upsert x) hk
      exact ⟨y, List.mem_cons_of_mem _ hy, hfind⟩
    · have hx : k = key x := (List.mem_cons.mp h).resolve_right hk
      refine ⟨x, List.mem_cons_self, ?_⟩
      rw [find?_upsertAll_of_notMem hk, find?_upsert, if_pos hx]

/-- Writing records of known keys leaves the order alone. -/
theorem keys_upsertAll {t : Table key} {xs : List α} (h : ∀ x ∈ xs, key x ∈ t.keys) :
    (t.upsertAll xs).keys = t.keys := by
  induction xs generalizing t with
  | nil => rfl
  | cons x xs ih =>
    obtain ⟨hx, hxs⟩ := List.forall_mem_cons.mp h
    have hkeys : (t.upsert x).keys = t.keys := by rw [keys_upsert, if_pos hx]
    rw [upsertAll_cons, ih (by rw [hkeys]; exact hxs), hkeys]

/-- The records are what lookups find, in the order of the keys. -/
private theorem map_find?_keys (t : Table key) : t.keys.map t.find? = t.records.map some := by
  rw [keys, List.map_map]
  exact List.map_congr_left fun r hr => find?_eq_some.mpr ⟨hr, rfl⟩

/-- Tables with the same order and the same lookups are equal. -/
theorem ext_find? {t u : Table key} (hkeys : t.keys = u.keys)
    (hfind : ∀ k, t.find? k = u.find? k) : t = u := by
  have hsome : t.records.map some = u.records.map some := by
    rw [← map_find?_keys, ← map_find?_keys, hkeys, funext hfind]
  exact ext ((Option.some_injective α).list_map hsome)

omit [DecidableEq κ] in
/-- The table with every record changed in place. -/
def mapRecords (t : Table key) (f : α → α) (hf : ∀ a, key (f a) = key a) : Table key where
  records := t.records.map f
  nodup := by
    have hsame : key ∘ f = key := funext hf
    rw [List.map_map, hsame]
    exact t.nodup

omit [DecidableEq κ] in
@[simp] theorem keys_mapRecords (t : Table key) (f : α → α) (hf : ∀ a, key (f a) = key a) :
    (t.mapRecords f hf).keys = t.keys := by
  have hsame : key ∘ f = key := funext hf
  rw [keys, keys, mapRecords, List.map_map, hsame]

/-- A lookup finds the changed record. -/
@[simp] theorem find?_mapRecords (t : Table key) (f : α → α) (hf : ∀ a, key (f a) = key a)
    (k : κ) : (t.mapRecords f hf).find? k = (t.find? k).map f := by
  rw [find?, find?, mapRecords, List.find?_map]
  congr 2
  funext a
  simp [hf a]

end Table

namespace KeyMap

variable {β γ : Type}

private theorem fst_ne_of_sorted {e : String × β} {es : List (String × β)}
    (h : (e :: es).Pairwise (fun a b => compare a.1 b.1 = .lt)) {a : String × β} (ha : a ∈ es) :
    a.1 ≠ e.1 := by
  intro he
  have hlt := (List.pairwise_cons.mp h).1 a ha
  rw [he] at hlt
  simp at hlt

private theorem lookup_eq_some {es : List (String × β)}
    (h : es.Pairwise (fun a b => compare a.1 b.1 = .lt)) {k : String} {v : β} :
    es.lookup k = some v ↔ (k, v) ∈ es := by
  induction es with
  | nil => simp
  | cons e es ih =>
    obtain ⟨k', v'⟩ := e
    have htail := ih (List.pairwise_cons.mp h).2
    rw [List.lookup_cons]
    by_cases hk : k = k'
    · subst hk
      have hnot : (k, v) ∉ es := fun hmem => fst_ne_of_sorted h hmem rfl
      simp [hnot, eq_comm]
    · simp [beq_eq_false_iff_ne.mpr hk, htail, hk]

/-- A lookup finds exactly the value that stands beside the key. -/
theorem find?_eq_some {m : KeyMap β} {k : String} {v : β} :
    m.find? k = some v ↔ (k, v) ∈ m.entries := lookup_eq_some m.sorted

/-- The keys are those that a lookup finds. -/
theorem mem_keys {m : KeyMap β} {k : String} : k ∈ m.keys ↔ ∃ v, m.find? k = some v := by
  simp only [keys, List.mem_map, find?_eq_some]
  exact ⟨fun ⟨e, he, hk⟩ => ⟨e.2, hk ▸ he⟩, fun ⟨v, hv⟩ => ⟨(k, v), hv, rfl⟩⟩

/-- The new values are those of the old ones that have one. -/
theorem find?_filterMap {m : KeyMap β} {f : β → Option γ} {k : String} {y : γ} :
    (m.filterMap f).find? k = some y ↔ ∃ x, m.find? k = some x ∧ f x = some y := by
  simp only [find?_eq_some, filterMap, List.mem_filterMap, Option.map_eq_some_iff, Prod.mk.injEq]
  constructor
  · rintro ⟨⟨_, x⟩, hx, _, hy, rfl, rfl⟩
    exact ⟨x, hx, hy⟩
  · rintro ⟨x, hx, hy⟩
    exact ⟨(k, x), hx, y, hy, rfl, rfl⟩

/-- An entry with a smaller key stands before. -/
theorem mem_before {m : KeyMap β} {before after : List (String × β)} {e e' : String × β}
    (h : m.entries = before ++ e :: after) (he : e' ∈ m.entries)
    (hlt : compare e'.1 e.1 = .lt) : e' ∈ before := by
  rw [h] at he
  rcases List.mem_append.mp he with hbefore | hafter
  · exact hbefore
  · have hsorted := m.sorted
    rw [h] at hsorted
    have htail := (List.pairwise_cons.mp (List.pairwise_append.mp hsorted).2.1).1
    rcases List.mem_cons.mp hafter with rfl | hmem
    · simp at hlt
    · have hgt := Std.OrientedCmp.gt_of_lt (htail e' hmem)
      rw [hgt] at hlt
      cases hlt

/-- Entries with other keys are not lost when a key is filtered out. -/
private theorem filter_fst_ne_of_forall {f : β → Option γ} {key : String}
    {es : List (String × β)} (h : ∀ e ∈ es, e.1 ≠ key) :
    (es.filterMap fun e => (f e.2).map (e.1, ·)).filter (fun e => e.1 ≠ key) =
      es.filterMap fun e => (f e.2).map (e.1, ·) := by
  refine List.filter_eq_self.mpr fun x hx => decide_eq_true ?_
  obtain ⟨e, he, hex⟩ := List.mem_filterMap.mp hx
  obtain ⟨y, _, rfl⟩ := Option.map_eq_some_iff.mp hex
  exact h e he

private theorem filterMap_insertEntry_of_none {f : β → Option γ} {key : String} {value : β}
    (hvalue : f value = none) {es : List (String × β)}
    (h : es.Pairwise (fun a b => compare a.1 b.1 = .lt)) :
    (insertEntry key value es).filterMap (fun e => (f e.2).map (e.1, ·)) =
      (es.filterMap fun e => (f e.2).map (e.1, ·)).filter fun e => e.1 ≠ key := by
  induction es with
  | nil => simp [insertEntry, hvalue]
  | cons e es ih =>
    obtain ⟨hhead, htail⟩ := List.pairwise_cons.mp h
    unfold insertEntry
    split
    · rename_i hlt
      have hother : ∀ a ∈ e :: es, a.1 ≠ key := by
        rintro a ha rfl
        rcases List.mem_cons.mp ha with rfl | ha
        · simp at hlt
        · simp [Std.OrientedCmp.gt_of_lt (hhead a ha)] at hlt
      rw [filter_fst_ne_of_forall hother, List.filterMap_cons]
      simp [hvalue]
    · rename_i heq
      obtain rfl : key = e.1 := Std.LawfulEqOrd.eq_of_compare heq
      have hother : ∀ a ∈ es, a.1 ≠ e.1 := fun a ha => fst_ne_of_sorted h ha
      have hdrop : ((e :: es).filterMap fun e => (f e.2).map (e.1, ·)).filter (·.1 ≠ e.1) =
          (es.filterMap fun e => (f e.2).map (e.1, ·)).filter (·.1 ≠ e.1) := by
        cases hf : f e.2 <;> simp [hf]
      rw [hdrop, filter_fst_ne_of_forall hother, List.filterMap_cons]
      simp [hvalue]
    · rename_i hgt
      have hne : e.1 ≠ key := by
        rintro rfl
        simp at hgt
      cases hf : f e.2 <;> simp [hf, hne, ih htail]

/-- A key whose new value has no image is filtered out. -/
theorem entries_filterMap_insert_of_none {m : KeyMap β} {f : β → Option γ} {key : String}
    {value : β} (hvalue : f value = none) :
    ((m.insert key value).filterMap f).entries =
      (m.filterMap f).entries.filter fun e => e.1 ≠ key :=
  filterMap_insertEntry_of_none hvalue m.sorted

end KeyMap

section Ascending

variable {α κ : Type} [Ord κ] [Std.TransOrd κ] (key : α → κ) {xs ys : List α}

/-- No element is listed twice where the keys ascend. -/
theorem nodup_of_ascends (h : xs.Pairwise fun a b => compare (key a) (key b) = .lt) : xs.Nodup := by
  refine h.imp fun hlt heq => ?_
  subst heq
  simp at hlt

/-- Where the keys ascend, lists with the same elements are equal. -/
theorem eq_of_ascends (hxs : xs.Pairwise fun a b => compare (key a) (key b) = .lt)
    (hys : ys.Pairwise fun a b => compare (key a) (key b) = .lt)
    (hmem : ∀ a, a ∈ xs ↔ a ∈ ys) : xs = ys := by
  have hperm : xs.Perm ys :=
    (List.perm_ext_iff_of_nodup (nodup_of_ascends key hxs) (nodup_of_ascends key hys)).mpr hmem
  refine hperm.eq_of_pairwise (fun a b _ _ hab hba => ?_) hxs hys
  simp [Std.OrientedCmp.gt_of_lt hab] at hba

end Ascending

section Distinct

variable {α κ : Type} [DecidableEq κ] {key : α → κ}

/-- Elements with different keys are all kept. -/
theorem distinctOn_of_nodup {xs : List α} (h : (xs.map key).Nodup) : distinctOn key xs = xs := by
  induction xs with
  | nil => rfl
  | cons x xs ih =>
    obtain ⟨hx, hxs⟩ := List.nodup_cons.mp h
    rw [distinctOn, ih hxs, List.filter_eq_self.mpr]
    intro y hy
    have hne : key y ≠ key x := fun he => hx (he ▸ List.mem_map_of_mem hy)
    simpa using hne

/-- Whether a key is dropped before or after repetitions are dropped makes no difference. -/
theorem distinctOn_filter (p : κ → Bool) (xs : List α) :
    distinctOn key (xs.filter fun x => p (key x)) =
      (distinctOn key xs).filter fun x => p (key x) := by
  induction xs with
  | nil => rfl
  | cons x xs ih =>
    by_cases hx : p (key x) = true
    · have hkeep : (x :: xs).filter (fun x => p (key x)) = x :: xs.filter fun x => p (key x) :=
        List.filter_cons_of_pos hx
      rw [hkeep, distinctOn, distinctOn, ih, List.filter_cons, if_pos hx, List.filter_filter,
        List.filter_filter]
      simp only [Bool.and_comm]
    · have hdrop : (x :: xs).filter (fun x => p (key x)) = xs.filter fun x => p (key x) :=
        List.filter_cons_of_neg hx
      rw [hdrop, distinctOn, ih, List.filter_cons, if_neg hx, List.filter_filter]
      refine List.filter_congr fun y _ => ?_
      by_cases hy : key y = key x
      · simp [hy, hx]
      · simp [hy]

/-- One more element at the end is kept unless its key was met before. -/
theorem distinctOn_concat (xs : List α) (x : α) :
    distinctOn key (xs ++ [x]) =
      if key x ∈ xs.map key then distinctOn key xs else distinctOn key xs ++ [x] := by
  induction xs with
  | nil => simp [distinctOn]
  | cons y ys ih =>
    rw [List.cons_append, distinctOn, distinctOn, ih, List.map_cons]
    by_cases hmem : key x ∈ ys.map key
    · rw [if_pos hmem, if_pos (List.mem_cons_of_mem _ hmem)]
    · rw [if_neg hmem, List.filter_append]
      by_cases hxy : key x = key y
      · rw [if_pos (hxy ▸ List.mem_cons_self)]
        simp [hxy]
      · rw [if_neg fun h => (List.mem_cons.mp h).elim hxy hmem]
        simp [hxy]

/-- Of a second list only what the first one has no key of is kept. -/
theorem distinctOn_append (xs ys : List α) :
    distinctOn key (xs ++ ys) =
      distinctOn key xs ++ (distinctOn key ys).filter fun y => key y ∉ xs.map key := by
  induction xs with
  | nil => simp
  | cons x xs ih =>
    rw [List.cons_append, distinctOn, distinctOn, ih, List.filter_append, List.filter_filter,
      List.cons_append]
    simp [not_or]

/-- Whether repetitions in the first of two lists are dropped before makes no difference. -/
theorem distinctOn_distinctOn_append (xs ys : List α) :
    distinctOn key (distinctOn key xs ++ ys) = distinctOn key (xs ++ ys) := by
  rw [distinctOn_append, distinctOn_append, distinctOn_of_nodup (nodup_map_distinctOn key xs)]
  simp only [mem_map_distinctOn]

/-- Whether repetitions are dropped list by list first makes no difference. -/
theorem distinctOn_flatten_map (lists : List (List α)) :
    distinctOn key (lists.map (distinctOn key)).flatten = distinctOn key lists.flatten := by
  induction lists with
  | nil => rfl
  | cons xs lists ih =>
    rw [List.map_cons, List.flatten_cons, List.flatten_cons, distinctOn_distinctOn_append,
      distinctOn_append, distinctOn_append, ih]

/-- Every element that is kept was there. -/
theorem mem_of_mem_distinctOn {xs : List α} {x : α} (h : x ∈ distinctOn key xs) : x ∈ xs :=
  (distinctOn_sublist key xs).subset h

/-- Kept are the elements that are the first ones with their key. -/
theorem mem_distinctOn {xs : List α} {x : α} :
    x ∈ distinctOn key xs ↔ xs.find? (fun y => key y = key x) = some x := by
  induction xs with
  | nil => simp
  | cons y ys ih =>
    rw [distinctOn, List.mem_cons, List.mem_filter, ih, List.find?_cons]
    by_cases hkey : key y = key x
    · simp [hkey, eq_comm]
    · have hne : x ≠ y := fun heq => hkey (heq ▸ rfl)
      simp [hkey, hne, Ne.symm hkey]

end Distinct

section Failing

variable {α β ε : Type} {f : α → Except ε β}

/-- A relation between lists may be replaced for the elements that they have. -/
theorem forall₂_of_mem {γ : Type} {R S : α → γ → Prop} {xs : List α} {ys : List γ}
    (h : List.Forall₂ R xs ys) (himp : ∀ x ∈ xs, ∀ y, R x y → S x y) : List.Forall₂ S xs ys := by
  induction h with
  | nil => exact .nil
  | cons hx _ ih =>
    obtain ⟨hhead, htail⟩ := List.forall_mem_cons.mp himp
    exact .cons (hhead _ hx) (ih htail)

/-- A changed result comes from a result. -/
theorem exceptMap_eq_ok {x : Except ε α} {g : α → β} {b : β} :
    x.map g = .ok b ↔ ∃ a, x = .ok a ∧ g a = b := by
  cases x <;> simp [Except.map]

/-- A change of the result leaves failures alone. -/
theorem exceptMap_eq_error {x : Except ε α} {g : α → β} {e : ε} :
    x.map g = .error e ↔ x = .error e := by
  cases x <;> simp [Except.map]

/-- Mapping goes on after a result. -/
theorem mapM_cons_of_ok {x : α} {xs : List α} {b : β} (h : f x = .ok b) :
    (x :: xs).mapM f = (xs.mapM f).map (b :: ·) := by
  rw [List.mapM_cons, h]
  cases xs.mapM f <;> rfl

/-- Mapping stops at a failure. -/
theorem mapM_cons_of_error {x : α} {xs : List α} {e : ε} (h : f x = .error e) :
    (x :: xs).mapM f = .error e := by
  rw [List.mapM_cons, h]
  rfl

/-- Mapping succeeds with the results of all elements. -/
theorem mapM_eq_ok {xs : List α} {ys : List β} :
    xs.mapM f = .ok ys ↔ List.Forall₂ (fun x y => f x = .ok y) xs ys := by
  induction xs generalizing ys with
  | nil => cases ys <;> simp [pure, Except.pure]
  | cons x xs ih =>
    cases hx : f x with
    | error e =>
      rw [mapM_cons_of_error hx]
      constructor
      · nofun
      · rintro ⟨⟩
        simp_all
    | ok b =>
      rw [mapM_cons_of_ok hx, exceptMap_eq_ok]
      constructor
      · rintro ⟨zs, hzs, rfl⟩
        exact .cons hx (ih.mp hzs)
      · rintro (_ | ⟨hb, hys⟩)
        rw [hx] at hb
        cases hb
        exact ⟨_, ih.mpr hys, rfl⟩

/-- The results are those of the elements. -/
theorem mem_of_mapM_eq_ok {xs : List α} {ys : List β} (h : xs.mapM f = .ok ys) {y : β} :
    y ∈ ys ↔ ∃ x ∈ xs, f x = .ok y := by
  induction mapM_eq_ok.mp h with
  | nil => simp
  | cons hx hxs ih =>
    rename_i x y' xs ys
    rw [List.mem_cons, ih (mapM_eq_ok.mpr hxs)]
    constructor
    · rintro (rfl | ⟨z, hz, hy⟩)
      · exact ⟨x, List.mem_cons_self, hx⟩
      · exact ⟨z, List.mem_cons_of_mem _ hz, hy⟩
    · rintro ⟨z, hz, hy⟩
      rcases List.mem_cons.mp hz with rfl | hz
      · rw [hx] at hy
        exact .inl (Except.ok.inj hy).symm
      · exact .inr ⟨z, hz, hy⟩

/-- Mapping succeeds when no element fails. -/
theorem exists_mapM_eq_ok {xs : List α} :
    (∃ ys, xs.mapM f = .ok ys) ↔ ∀ x ∈ xs, ∃ y, f x = .ok y := by
  induction xs with
  | nil => simp [pure, Except.pure]
  | cons x xs ih =>
    cases hx : f x with
    | error e =>
      rw [mapM_cons_of_error hx]
      simp [hx]
    | ok b =>
      rw [mapM_cons_of_ok hx]
      simp only [exceptMap_eq_ok, List.forall_mem_cons, ← ih, hx, Except.ok.injEq]
      constructor
      · rintro ⟨_, ys, hys, _⟩
        exact ⟨⟨b, rfl⟩, ys, hys⟩
      · rintro ⟨_, ys, hys⟩
        exact ⟨_, ys, hys, rfl⟩

/-- Mapping fails with the failure of an element before which no other fails. -/
theorem mapM_eq_error {xs : List α} {e : ε} :
    xs.mapM f = .error e ↔ ∃ before x after, xs = before ++ x :: after ∧
      (∀ y ∈ before, ∃ b, f y = .ok b) ∧ f x = .error e := by
  induction xs with
  | nil => simp [pure, Except.pure]
  | cons x xs ih =>
    cases hx : f x with
    | error e' =>
      rw [mapM_cons_of_error hx]
      constructor
      · intro h
        exact ⟨[], x, xs, rfl, by simp, hx.trans (by rw [Except.error.inj h])⟩
      · rintro ⟨_ | ⟨y, before⟩, x', after, heq, hbefore, hx'⟩
        · obtain ⟨rfl, rfl⟩ := List.cons.inj heq
          rw [hx] at hx'
          rw [Except.error.inj hx']
        · obtain ⟨rfl, rfl⟩ := List.cons.inj heq
          obtain ⟨b, hb⟩ := hbefore x List.mem_cons_self
          simp [hx] at hb
    | ok b =>
      rw [mapM_cons_of_ok hx, exceptMap_eq_error, ih]
      constructor
      · rintro ⟨before, x', after, rfl, hbefore, hx'⟩
        exact ⟨x :: before, x', after, rfl, List.forall_mem_cons.mpr ⟨⟨b, hx⟩, hbefore⟩, hx'⟩
      · rintro ⟨_ | ⟨y, before⟩, x', after, heq, hbefore, hx'⟩
        · obtain ⟨rfl, rfl⟩ := List.cons.inj heq
          simp [hx] at hx'
        · obtain ⟨rfl, rfl⟩ := List.cons.inj heq
          exact ⟨before, x', after, rfl, fun y hy => hbefore y (List.mem_cons_of_mem _ hy), hx'⟩

/-- Elements that yield nothing can be left out. -/
theorem flatten_mapM_filter {f : α → Except ε (List β)} {p : α → Bool} {xs : List α}
    (h : ∀ x ∈ xs, p x = false → f x = .ok []) :
    ((xs.filter p).mapM f).map List.flatten = (xs.mapM f).map List.flatten := by
  induction xs with
  | nil => rfl
  | cons x xs ih =>
    have hrest := ih fun y hy => h y (List.mem_cons_of_mem _ hy)
    have hmap (ys : List β) (r : Except ε (List (List β))) :
        (r.map (ys :: ·)).map List.flatten = (r.map List.flatten).map (ys ++ ·) := by
      cases r <;> rfl
    cases hp : p x with
    | true =>
      rw [List.filter_cons_of_pos hp]
      cases hx : f x with
      | ok ys => rw [mapM_cons_of_ok hx, mapM_cons_of_ok hx, hmap, hmap, hrest]
      | error e => rw [mapM_cons_of_error hx, mapM_cons_of_error hx]
    | false =>
      rw [List.filter_cons_of_neg (by simp [hp]), hrest,
        mapM_cons_of_ok (h x List.mem_cons_self hp), hmap]
      cases xs.mapM f <;> rfl

end Failing

end ArtifactGC

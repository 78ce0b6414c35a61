import ArtifactGC.Proofs.Collections
import ArtifactGC.Proofs.PropertyValue
import ArtifactGC.Retention.Buckets
import Std.Data.HashSet.Lemmas
import Std.Data.TreeMap.Lemmas

/-!
# What ordered maps and hash sets make of values

An ordered map knows values by their comparison, a hash set by their hash and by whether they count
as equal. Both keep apart exactly the values that differ: `toList_ofList` says which buckets the
items of a list are sorted into, and `countHashedBy_eq` that a hash set holds as many elements as
there are buckets, whatever its hasher. Sorting a group of artifacts in one walk is therefore the
same as picking the artifacts of each of its values, `toList_ofGroup`.
-/

namespace ArtifactGC

namespace Buckets

variable {α : Type} {buckets : Buckets α} {items : List (PropertyValue × α)} {v w : PropertyValue}

/-- The items behind a value, in their order. -/
def itemsWith (v : PropertyValue) (items : List (PropertyValue × α)) : List α :=
  (items.filter (·.1 = v)).map (·.2)

theorem itemsWith_cons (item : PropertyValue × α) (items : List (PropertyValue × α)) :
    itemsWith v (item :: items) =
      if item.1 = v then item.2 :: itemsWith v items else itemsWith v items := by
  by_cases h : item.1 = v <;> simp [itemsWith, h]

/-- There are items behind the values of the list. -/
theorem itemsWith_ne_nil : itemsWith v items ≠ [] ↔ v ∈ items.map (·.1) := by
  induction items with
  | nil => simp [itemsWith]
  | cons item items ih =>
    rw [itemsWith_cons, List.map_cons, List.mem_cons, ← ih]
    by_cases h : item.1 = v
    · simp [h]
    · simp [h, Ne.symm h]

/-- An item goes into the bucket of its value and leaves the others alone. -/
theorem getElem?_push (item : α) :
    (buckets.push v item)[w]? =
      if v = w then some (buckets[v]?.getD [] ++ [item]) else buckets[w]? := by
  rw [push, Std.TreeMap.getElem?_alter]
  simp only [Std.LawfulEqCmp.compare_eq_iff_eq]

/-- The items of a list go to the ends of the buckets of their values. -/
theorem getElem?_foldl_push (items : List (PropertyValue × α)) (buckets : Buckets α) :
    (items.foldl (fun buckets item => buckets.push item.1 item.2) buckets)[v]? =
      if itemsWith v items = [] then buckets[v]?
      else some (buckets[v]?.getD [] ++ itemsWith v items) := by
  induction items generalizing buckets with
  | nil => rfl
  | cons item items ih =>
    rw [List.foldl_cons, ih, getElem?_push, itemsWith_cons]
    by_cases h : item.1 = v
    · by_cases hnil : itemsWith v items = [] <;> simp [h, hnil]
    · simp [h]

/-- The values of the list have buckets, which hold the items behind them. -/
theorem getElem?_ofList {bucket : List α} :
    (ofList items)[v]? = some bucket ↔ v ∈ items.map (·.1) ∧ bucket = itemsWith v items := by
  rw [ofList, getElem?_foldl_push, Std.TreeMap.getElem?_emptyc, ← itemsWith_ne_nil]
  by_cases h : itemsWith v items = []
  · simp [h]
  · simp [h, eq_comm]

/-- The buckets ascend with their values. -/
theorem toList_ofList (items : List (PropertyValue × α)) :
    (ofList items).toList = (ascending (items.map (·.1))).map fun v => (v, itemsWith v items) := by
  refine eq_of_ascends Prod.fst Std.TreeMap.ordered_keys_toList ?_ fun entry => ?_
  · exact List.pairwise_map.mpr (pairwise_ascending _)
  · obtain ⟨v, bucket⟩ := entry
    rw [Std.TreeMap.mem_toList_iff_getElem?_eq_some, getElem?_ofList]
    refine Iff.trans ?_ List.mem_map.symm
    constructor
    · rintro ⟨hv, rfl⟩
      exact ⟨v, mem_ascending.mpr hv, rfl⟩
    · rintro ⟨w, hw, hentry⟩
      cases hentry
      exact ⟨mem_ascending.mp hw, rfl⟩

/-- There are as many buckets as different values. -/
theorem size_ofList (items : List (PropertyValue × α)) :
    (ofList items).size = PropertyValue.countOrdered (items.map (·.1)) := by
  rw [← Std.TreeMap.length_toList, toList_ofList, List.length_map]
  rfl

/-- Behind a value stand its own occurrences when every value stands behind itself. -/
theorem itemsWith_diagonal (values : List PropertyValue) :
    itemsWith v (values.map fun v => (v, v)) = values.filter (· == v) := by
  rw [itemsWith, List.filter_map, List.map_map]
  refine (List.map_id _).trans (List.filter_congr fun w _ => ?_)
  exact (beq_eq_decide w v).symm

theorem map_fst_valued (property : String) (group : List Artifact) :
    (valued property group).map (·.1) = valuesOf property group := by
  rw [valued, List.map_filterMap, valuesOf]
  refine List.filterMap_congr fun a _ => ?_
  cases a.property? property <;> rfl

theorem itemsWith_valued (v : PropertyValue) (property : String) (group : List Artifact) :
    itemsWith v (valued property group) = bucket property group (some v) := by
  induction group with
  | nil => rfl
  | cons a group ih =>
    cases hvalue : a.property? property with
    | none => simpa [valued, bucket, hvalue] using ih
    | some w =>
      have hcons : valued property (a :: group) = (w, a) :: valued property group := by
        simp [valued, hvalue]
      rw [hcons, itemsWith_cons, ih]
      by_cases h : w = v <;> simp [bucket, hvalue, h]

/-- A walk over a group sorts its artifacts into the buckets of its values. -/
theorem toList_ofGroup (property : String) (group : List Artifact) :
    (ofGroup property group).toList =
      (ascending (valuesOf property group)).map fun v => (v, bucket property group (some v)) := by
  rw [ofGroup, toList_ofList, map_fst_valued]
  refine List.map_congr_left fun v _ => ?_
  rw [itemsWith_valued]

end Buckets

/-- A hash set holds every value once, whatever its hasher. -/
theorem PropertyValue.countHashedBy_eq (hasher : Hasher) (values : List PropertyValue) :
    countHashedBy hasher values = countOrdered values := by
  let _ : Hashable PropertyValue := ⟨hashBy hasher⟩
  have hnodup : (Std.HashSet.ofList values).toList.Nodup :=
    Std.HashSet.distinct_toList.imp fun hne heq => by simp [heq] at hne
  have hascending : (ascending values).Nodup := nodup_of_ascends id (pairwise_ascending _)
  have hmem : ∀ v, v ∈ (Std.HashSet.ofList values).toList ↔ v ∈ ascending values := by
    intro v
    rw [Std.HashSet.mem_toList, Std.HashSet.mem_ofList, List.contains_iff_mem, mem_ascending]
  calc countHashedBy hasher values = (Std.HashSet.ofList values).toList.length :=
        Std.HashSet.length_toList.symm
    _ = countOrdered values :=
        ((List.perm_ext_iff_of_nodup hnodup hascending).mpr hmem).length_eq

end ArtifactGC

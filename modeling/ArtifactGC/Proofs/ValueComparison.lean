import ArtifactGC.Proofs.Buckets
import ArtifactGC.Proofs.FiniteDoubles

/-!
# Comparing, equating and hashing property values

Values count as equal when their comparison does not tell them apart, and they are hashed by a rule
of its own. Retention relies on the agreement of the two with the content of a value: a comparison
that overlooked some bits would merge the artifacts of different values in one bucket, and one that
were not transitive would split those of one value. `order_agrees_with_equality_and_hash` says that
the comparison is a total order which sees every bit of a value, as the hash does, and what follows
for the collections that are built on either.
-/

namespace ArtifactGC

/-- A comparison is a total order. -/
structure OrdersTotally {α : Type} (cmp : α → α → Ordering) : Prop where
  /-- Everything is equal to itself. -/
  refl : ∀ a, cmp a a = .eq
  /-- Exchanging the two turns the answer around. -/
  swap : ∀ a b, cmp b a = (cmp a b).swap
  /-- Two that are not greater than each other are the same. -/
  antisymm : ∀ a b, (cmp a b).isLE → (cmp b a).isLE → a = b
  /-- Not being greater is passed on. -/
  trans : ∀ a b c, (cmp a b).isLE → (cmp b c).isLE → (cmp a c).isLE
  /-- Of any two one is not greater than the other. -/
  total : ∀ a b, (cmp a b).isLE ∨ (cmp b a).isLE

/-- The comparison of a lawfully ordered type is a total order. -/
theorem ordersTotally_compare {α : Type} [Ord α] [Std.TransOrd α] [Std.LawfulEqOrd α] :
    OrdersTotally (compare : α → α → Ordering) where
  refl _ := Std.ReflCmp.compare_self
  swap _ _ := Std.OrientedCmp.eq_swap
  antisymm _ _ hab hba := Std.LawfulEqCmp.eq_of_compare (Std.OrientedCmp.isLE_antisymm hab hba)
  trans _ _ _ hab hbc := Std.TransCmp.isLE_trans hab hbc
  total a b := by
    have hswap : compare b a = (compare a b).swap := Std.OrientedCmp.eq_swap
    rw [hswap]
    cases compare a b <;> simp

namespace PropertyValue

variable {v w : PropertyValue}

/-- A value of an earlier kind is smaller. -/
theorem compare_of_rank_lt (h : v.kind.rank < w.kind.rank) : Ord.compare v w = .lt := by
  have hkind : v.kind ≠ w.kind := fun heq => absurd (congrArg ValueKind.rank heq) (Nat.ne_of_lt h)
  rw [compare_of_kind_ne hkind]
  exact Nat.compare_eq_lt.mpr h

/-- A value is determined by its kind and the bits of its content. -/
theorem content_inj (hkind : v.kind = w.kind) (h : v.content = w.content) : v = w := by
  cases v <;> cases w <;> first | (cases hkind; done) | skip
  case int.int m n =>
    cases m; cases n
    exact congrArg (fun bits => int ⟨bits⟩) (Chunk.word.inj h)
  case double.double a b =>
    cases a; cases b
    exact congrArg (fun bits => double ⟨bits⟩) (Chunk.word.inj h)
  case string.string s t =>
    exact congrArg string (String.toByteArray_inj.mp (Chunk.text.inj h))
  case bool.bool a b =>
    cases a <;> cases b <;> first | rfl | cases h

/-- Values count as equal exactly when they have the same kind and the same content. -/
theorem beq_iff_content : (v == w) = true ↔ v.kind = w.kind ∧ v.content = w.content := by
  rw [beq_iff_eq]
  constructor
  · rintro rfl
    exact ⟨rfl, rfl⟩
  · rintro ⟨hkind, hcontent⟩
    exact content_inj hkind hcontent

/-- Values count as equal exactly when the same is hashed of them. -/
theorem beq_iff_chunks : (v == w) = true ↔ v.chunks = w.chunks := by
  rw [beq_iff_content, chunks, chunks, List.cons.injEq, List.cons.injEq, Chunk.position.injEq]
  constructor
  · rintro ⟨hkind, hcontent⟩
    exact ⟨congrArg ValueKind.rank hkind, hcontent, rfl⟩
  · rintro ⟨hrank, hcontent, _⟩
    exact ⟨kind_of_rank_eq hrank, hcontent⟩

/-- Doubles are in the order of their values, the negative zero before the other one. -/
theorem compare_double_eq_lt {a b : Double} :
    Ord.compare (double a) (double b) = .lt ↔
      a.value < b.value ∨ (a = .negativeZero ∧ b = .zero) := by
  rw [compare_double, ← Double.orderKey_lt_orderKey]
  exact Int.compare_eq_lt

end PropertyValue

/-- Property values are totally ordered: by kind, and the finite doubles among them by their value,
of the two zeros the negative one first. Two values count as equal exactly when they have the same
kind and the same content, bit for bit, and equal values have the same hash under every hasher. So
a hash set of some values holds as many elements as an ordered map of them holds buckets; the bucket
of a value holds its occurrences and no other value. The artifacts that retention picks for the
values of a property, in ascending order, are the buckets of such a map. -/
theorem order_agrees_with_equality_and_hash :
    OrdersTotally (compare : PropertyValue → PropertyValue → Ordering) ∧
    ([ValueKind.int, .double, .string, .bool].Pairwise fun k l =>
      ∀ v w : PropertyValue, v.kind = k → w.kind = l → compare v w = .lt) ∧
    (∀ a b : Double, a.isFinite → b.isFinite →
      (compare (PropertyValue.double a) (.double b) = .lt ↔
        a.value < b.value ∨ (a = .negativeZero ∧ b = .zero))) ∧
    (∀ v w : PropertyValue, v == w ↔ v.kind = w.kind ∧ v.content = w.content) ∧
    (∀ v w : PropertyValue, v == w ↔ v.chunks = w.chunks) ∧
    (∀ v w : PropertyValue, v == w → ∀ hasher, v.hashBy hasher = w.hashBy hasher) ∧
    (∀ values : List PropertyValue,
      let buckets := Buckets.ofList (values.map fun v => (v, v))
      (∀ hasher, PropertyValue.countHashedBy hasher values = buckets.size) ∧
      ∀ v bucket, buckets[v]? = some bucket ↔ v ∈ values ∧ bucket = values.filter (· == v)) ∧
    ∀ property group, (Buckets.ofGroup property group).toList =
      (ascending (valuesOf property group)).map fun v => (v, bucket property group (some v)) := by
  refine ⟨ordersTotally_compare, ?_, ?_, ?_, ?_, ?_, ?_, Buckets.toList_ofGroup⟩
  · have hranks : [ValueKind.int, .double, .string, .bool].Pairwise (·.rank < ·.rank) := by decide
    refine hranks.imp fun hlt v w hv hw => PropertyValue.compare_of_rank_lt ?_
    rwa [hv, hw]
  · intro a b _ _
    exact PropertyValue.compare_double_eq_lt
  · intro v w
    exact PropertyValue.beq_iff_content
  · intro v w
    exact PropertyValue.beq_iff_chunks
  · intro v w h hasher
    rw [PropertyValue.hashBy, PropertyValue.hashBy, PropertyValue.beq_iff_chunks.mp h]
  · intro values buckets
    have hvalues : (values.map fun v => (v, v)).map (·.1) = values := by
      rw [List.map_map]
      exact List.map_id values
    constructor
    · intro hasher
      rw [PropertyValue.countHashedBy_eq, Buckets.size_ofList, hvalues]
    · intro v bucket
      rw [Buckets.getElem?_ofList, hvalues, Buckets.itemsWith_diagonal]

/-- Of eight values seven are different: the two zeros, two NaNs, and an integer, a text and a truth
value that all stand for one. Only the integer is there twice. -/
theorem zeros_and_payloads_are_kept_apart :
    let one : PropertyValue := .int 1
    let text : PropertyValue := .string "1"
    let negative : PropertyValue := .double .negativeZero
    let positive : PropertyValue := .double .zero
    let nan : PropertyValue := .double ⟨0x7ff8000000000000⟩
    let payload : PropertyValue := .double ⟨0x7ff8000000000001⟩
    let values := [positive, one, nan, text, negative, payload, .bool true, one]
    Double.negativeZero.isFinite ∧ Double.zero.isFinite ∧ compare negative positive = .lt ∧
      (compare nan payload).isLE ∧ (compare payload text).isLE ∧ (compare nan text).isLE ∧
      nan ≠ payload ∧ one == .int (3 - 2) ∧
      (∀ hasher, one.hashBy hasher = (PropertyValue.int (3 - 2)).hashBy hasher) ∧
      (∀ hasher, PropertyValue.countHashedBy hasher values = 7) ∧
      (Buckets.ofList (values.map fun v => (v, v)))[one]? = some [one, one] := by
  intro one text negative positive nan payload values
  obtain ⟨horder, _, hfinite, _, _, hhash, hcollections, _⟩ := order_agrees_with_equality_and_hash
  obtain ⟨hcount, hbuckets⟩ := hcollections values
  have hpayload : (compare nan payload).isLE := by decide
  have htext : (compare payload text).isLE := by decide
  have hequal : one == .int (3 - 2) := by decide
  refine ⟨by decide, by decide, ?_, hpayload, htext, horder.trans _ _ _ hpayload htext, by decide,
    hequal, hhash _ _ hequal, fun hasher => ?_, ?_⟩
  · exact (hfinite _ _ (by decide) (by decide)).mpr (.inr ⟨rfl, rfl⟩)
  · rw [hcount hasher, Buckets.size_ofList]
    decide +kernel
  · exact (hbuckets one [one, one]).mpr (by decide +kernel)

end ArtifactGC

import Mathlib.Data.String.Basic

/-!
# The order of texts is the order of their bytes

Texts are compared by their code points. Written in UTF-8 they are compared by their bytes with
the same result, because a smaller code point has the smaller first byte that differs.
-/

namespace ArtifactGC

namespace Text

/-- The bytes of a text in UTF-8. -/
def bytes (text : String) : List UInt8 := text.toUTF8.data.toList

/-- The bytes of a text are those of its characters. -/
theorem bytes_eq_flatMap (text : String) :
    bytes text = text.toList.flatMap String.utf8EncodeChar := by
  rw [bytes, String.toUTF8_eq_toByteArray, ← String.utf8Encode_toList, List.utf8Encode]
  simp

/-- The first of two lists has the smaller byte where they first differ. -/
private inductive Precedes : List UInt8 → List UInt8 → Prop
  | head {x y : UInt8} {xs ys : List UInt8} (h : x < y) : Precedes (x :: xs) (y :: ys)
  | tail {x : UInt8} {xs ys : List UInt8} (h : Precedes xs ys) : Precedes (x :: xs) (x :: ys)

/-- Whatever follows does not change which of two lists precedes the other. -/
private theorem Precedes.append_lt {xs ys : List UInt8} (h : Precedes xs ys) (us vs : List UInt8) :
    xs ++ us < ys ++ vs := by
  induction h with
  | head h => exact List.cons_lt_cons_iff.mpr (.inl h)
  | tail _ ih => exact List.cons_lt_cons_iff.mpr (.inr ⟨rfl, ih⟩)

/-- Lists are compared at their second bytes when their first ones agree. -/
private theorem Precedes.cons {m n : Nat} {xs ys : List UInt8} (hle : m ≤ n) (hn : n < 256)
    (htail : m = n → Precedes xs ys) : Precedes (.ofNat m :: xs) (.ofNat n :: ys) := by
  rcases Nat.lt_or_eq_of_le hle with hlt | rfl
  · refine .head ?_
    rw [UInt8.lt_iff_toNat_lt, UInt8.toNat_ofNat', UInt8.toNat_ofNat']
    omega
  · exact .tail (htail rfl)

/-- The bytes of a smaller character precede those of a larger one. -/
private theorem precedes_utf8EncodeChar {c d : Char} (h : c < d) :
    Precedes (String.utf8EncodeChar c) (String.utf8EncodeChar d) := by
  have hlt : c.val.toNat < d.val.toNat := h
  have hd : d.val.toNat < 0x110000 := by
    rcases d.valid with hvalid | ⟨_, hvalid⟩ <;> omega
  unfold String.utf8EncodeChar
  generalize c.val.toNat = v at hlt
  generalize d.val.toNat = w at hlt hd
  dsimp only
  -- Of two encodings of different lengths the first bytes already differ.
  split_ifs <;> repeat' (refine .cons (by omega) (by omega) fun _ => ?_)
  all_goals omega

/-- What is encoded has a first byte. -/
private theorem utf8EncodeChar_eq_cons (c : Char) :
    ∃ x xs, String.utf8EncodeChar c = x :: xs := by
  unfold String.utf8EncodeChar
  dsimp only
  split_ifs <;> exact ⟨_, _, rfl⟩

/-- Comparing characters one after another compares their bytes one after another. -/
private theorem flatMap_lt_flatMap {cs ds : List Char} (h : cs < ds) :
    cs.flatMap String.utf8EncodeChar < ds.flatMap String.utf8EncodeChar := by
  induction h with
  | @nil d ds =>
    obtain ⟨x, xs, hencode⟩ := utf8EncodeChar_eq_cons d
    rw [List.flatMap_nil, List.flatMap_cons, hencode]
    exact .nil
  | rel h => exact (precedes_utf8EncodeChar h).append_lt _ _
  | cons _ ih => exact List.append_left_lt ih

/-- A smaller text has smaller bytes. -/
theorem bytes_lt_bytes {a b : String} (h : a < b) : bytes a < bytes b := by
  rw [bytes_eq_flatMap, bytes_eq_flatMap]
  exact flatMap_lt_flatMap (String.lt_iff.mp h)

/-- The smaller of two texts is the one with the smaller bytes. -/
theorem compare_eq_lt_iff_bytes (a b : String) : compare a b = .lt ↔ bytes a < bytes b := by
  have hcompare : compare a b = .lt ↔ a < b := compareOfLessAndEq_eq_lt
  rw [hcompare]
  refine ⟨bytes_lt_bytes, fun hbytes => ?_⟩
  rcases lt_trichotomy a b with hlt | rfl | hgt
  · exact hlt
  · exact absurd hbytes (List.lt_irrefl _)
  · exact absurd hbytes (List.lt_asymm (bytes_lt_bytes hgt))

end Text

end ArtifactGC

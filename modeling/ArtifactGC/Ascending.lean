/-!
# Strictly ascending lists

Identifiers are asked for in strictly increasing order and value buckets are walked from the
smallest value to the largest. Both are lists without repetition that ascend in the order of
their type. `insertAscending` puts one element into such a list and `ascending` sorts any list
into one. The main statements are `mem_ascending`, which says that sorting keeps exactly the
elements that were there, and `pairwise_ascending`, which says that the result ascends strictly.
-/

namespace ArtifactGC

variable {α : Type} [Ord α]

/-- Insertion into an ascending list; an element that is already present is left alone. -/
def insertAscending (x : α) : List α → List α
  | [] => [x]
  | y :: ys =>
    match compare x y with
    | .lt => x :: y :: ys
    | .eq => y :: ys
    | .gt => y :: insertAscending x ys

/-- The elements of a list, each once, in ascending order. -/
def ascending (xs : List α) : List α :=
  xs.foldr insertAscending []

@[simp] theorem ascending_nil : ascending ([] : List α) = [] := rfl

@[simp] theorem ascending_cons (x : α) (xs : List α) :
    ascending (x :: xs) = insertAscending x (ascending xs) := rfl

/-- Insertion adds the new element and keeps the others. -/
@[simp] theorem mem_insertAscending [Std.LawfulEqOrd α] {x a : α} {xs : List α} :
    a ∈ insertAscending x xs ↔ a = x ∨ a ∈ xs := by
  induction xs with
  | nil => simp [insertAscending]
  | cons y ys ih =>
    unfold insertAscending
    split
    · simp
    · rename_i h
      have : x = y := Std.LawfulEqOrd.eq_of_compare h
      subst this
      simp
    · simp [ih, or_left_comm]

/-- Sorting keeps exactly the elements of the list. -/
@[simp] theorem mem_ascending [Std.LawfulEqOrd α] {a : α} {xs : List α} :
    a ∈ ascending xs ↔ a ∈ xs := by
  induction xs with
  | nil => simp
  | cons x xs ih => simp [ih]

/-- Insertion keeps a strictly ascending list strictly ascending. -/
theorem pairwise_insertAscending [Std.TransOrd α] [Std.LawfulEqOrd α] (x : α) {xs : List α}
    (h : xs.Pairwise (compare · · = .lt)) :
    (insertAscending x xs).Pairwise (compare · · = .lt) := by
  induction xs with
  | nil => simp [insertAscending]
  | cons y ys ih =>
    have hys := (List.pairwise_cons.mp h).2
    have hy := (List.pairwise_cons.mp h).1
    unfold insertAscending
    split
    · rename_i hxy
      refine List.pairwise_cons.mpr ⟨?_, h⟩
      intro a ha
      rcases List.mem_cons.mp ha with rfl | ha
      · exact hxy
      · exact Std.TransCmp.lt_trans hxy (hy a ha)
    · exact h
    · rename_i hxy
      refine List.pairwise_cons.mpr ⟨?_, ih hys⟩
      intro a ha
      rcases mem_insertAscending.mp ha with rfl | ha
      · exact Std.OrientedCmp.lt_of_gt hxy
      · exact hy a ha

/-- Sorting yields a strictly ascending list. -/
theorem pairwise_ascending [Std.TransOrd α] [Std.LawfulEqOrd α] (xs : List α) :
    (ascending xs).Pairwise (compare · · = .lt) := by
  induction xs with
  | nil => exact .nil
  | cons x xs ih => exact pairwise_insertAscending x ih

end ArtifactGC

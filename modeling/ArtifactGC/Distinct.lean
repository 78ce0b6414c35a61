/-!
# The first element of every key

Several answers list a record once although it was met repeatedly. `distinctOn key` keeps, for
every value of `key`, the first element that has it, in the order of the list.
-/

namespace ArtifactGC

variable {α κ : Type} [DecidableEq κ]

/-- The elements of a list without those whose key an earlier element already has. -/
def distinctOn (key : α → κ) : List α → List α
  | [] => []
  | x :: xs => x :: (distinctOn key xs).filter (fun y => key y ≠ key x)

@[simp] theorem distinctOn_nil (key : α → κ) : distinctOn key ([] : List α) = [] := rfl

/-- Only elements of the list are kept, in their order. -/
theorem distinctOn_sublist (key : α → κ) (xs : List α) : (distinctOn key xs).Sublist xs := by
  induction xs with
  | nil => exact .slnil
  | cons x xs ih => exact (List.filter_sublist.trans ih).cons_cons x

/-- No key is kept twice. -/
theorem nodup_map_distinctOn (key : α → κ) (xs : List α) :
    ((distinctOn key xs).map key).Nodup := by
  induction xs with
  | nil => exact .nil
  | cons x xs ih =>
    refine List.nodup_cons.mpr ⟨?_, ?_⟩
    · simp only [List.mem_map, List.mem_filter, decide_eq_true_eq]
      rintro ⟨y, ⟨_, hne⟩, heq⟩
      exact hne heq
    · exact ih.sublist (List.filter_sublist.map key)

/-- Every key of the list is kept. -/
@[simp] theorem mem_map_distinctOn {key : α → κ} {xs : List α} {k : κ} :
    k ∈ (distinctOn key xs).map key ↔ k ∈ xs.map key := by
  induction xs with
  | nil => simp
  | cons x xs ih =>
    by_cases h : k = key x
    · simp [distinctOn, h]
    · have : (∃ a, (a ∈ distinctOn key xs ∧ ¬key a = key x) ∧ key a = k) ↔
          k ∈ (distinctOn key xs).map key := by
        simp only [List.mem_map]
        constructor
        · rintro ⟨a, ⟨ha, _⟩, hk⟩
          exact ⟨a, ha, hk⟩
        · rintro ⟨a, ha, hk⟩
          exact ⟨a, ⟨ha, fun he => h (hk ▸ he)⟩, hk⟩
      simp [distinctOn, h, this, ih]

end ArtifactGC

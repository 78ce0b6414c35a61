import ArtifactGC.PropertyValue

/-!
# The order of property values

Property values are compared by kind and then by content. The comparison is a total order that
agrees with equality, so the values of a property can be listed strictly ascending.
-/

namespace ArtifactGC

instance : Std.TransOrd Double where
  eq_swap {a b} := by
    have hswap : compare a.orderKey b.orderKey = (compare b.orderKey a.orderKey).swap :=
      Std.OrientedCmp.eq_swap
    exact hswap
  isLE_trans {a b c} h h' := by
    have htrans : (compare a.orderKey c.orderKey).isLE = true :=
      Std.TransCmp.isLE_trans (b := b.orderKey) h h'
    exact htrans

instance : Std.LawfulEqOrd Double where
  eq_of_compare {a b} h := by
    have hkeys : a.orderKey = b.orderKey := Std.LawfulEqOrd.eq_of_compare h
    exact Double.orderKey_inj hkeys

namespace PropertyValue

/-- Values of different kinds are compared by their kinds. -/
theorem compare_of_kind_ne {v w : PropertyValue} (h : v.kind ≠ w.kind) :
    Ord.compare v w = Ord.compare v.kind.rank w.kind.rank := by
  cases v <;> cases w <;> first | exact absurd rfl h | rfl

/-- The position of a kind determines the kind. -/
theorem kind_of_rank_eq {k l : ValueKind} (h : k.rank = l.rank) : k = l := by
  cases k <;> cases l <;> first | rfl | cases h

@[simp] theorem compare_int (a b : Int64) :
    Ord.compare (int a) (int b) = Ord.compare a b := rfl

@[simp] theorem compare_double (a b : Double) :
    Ord.compare (double a) (double b) = Ord.compare a b := rfl

@[simp] theorem compare_string (a b : String) :
    Ord.compare (string a) (string b) = Ord.compare a b := rfl

@[simp] theorem compare_bool (a b : Bool) :
    Ord.compare (bool a) (bool b) = Ord.compare a b := rfl

private theorem rank_le_of_isLE {v w : PropertyValue} (h : (Ord.compare v w).isLE = true) :
    v.kind.rank ≤ w.kind.rank := by
  by_cases hkind : v.kind = w.kind
  · exact Nat.le_of_eq (congrArg ValueKind.rank hkind)
  · rw [compare_of_kind_ne hkind] at h
    exact Nat.isLE_compare.mp h

instance : Std.TransOrd PropertyValue where
  eq_swap {v w} := by
    by_cases hkind : v.kind = w.kind
    · cases v <;> cases w <;> first
        | (cases hkind; done)
        | simp only [compare_int, compare_double, compare_string, compare_bool]
          exact Std.OrientedCmp.eq_swap
    · rw [compare_of_kind_ne hkind, compare_of_kind_ne (Ne.symm hkind)]
      exact Std.OrientedCmp.eq_swap
  isLE_trans {u v w} h h' := by
    have huv := rank_le_of_isLE h
    have hvw := rank_le_of_isLE h'
    by_cases hkind : u.kind = w.kind
    · have hmid : u.kind = v.kind := kind_of_rank_eq (by rw [hkind] at huv ⊢; omega)
      cases u <;> cases v <;> first | (cases hmid; done) | skip
      all_goals
        cases w <;> first
          | (cases hkind; done)
          | simp only [compare_int, compare_double, compare_string, compare_bool] at h h' ⊢
            exact Std.TransCmp.isLE_trans h h'
    · rw [compare_of_kind_ne hkind]
      exact Nat.isLE_compare.mpr (Nat.le_trans huv hvw)

instance : Std.LawfulEqOrd PropertyValue where
  eq_of_compare {v w} h := by
    by_cases hkind : v.kind = w.kind
    · cases v <;> cases w <;> first
        | (cases hkind; done)
        | simp only [compare_int, compare_double, compare_string, compare_bool] at h
          exact congrArg _ (Std.LawfulEqOrd.eq_of_compare h)
    · rw [compare_of_kind_ne hkind] at h
      exact absurd (kind_of_rank_eq (Std.LawfulEqOrd.eq_of_compare h)) hkind

instance : LawfulBEq PropertyValue where
  rfl := Ordering.isEq_iff_eq_eq.mpr Std.ReflCmp.compare_self
  eq_of_beq h := Std.LawfulEqOrd.eq_of_compare (Ordering.isEq_iff_eq_eq.mp h)

end PropertyValue

end ArtifactGC

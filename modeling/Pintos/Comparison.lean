import Mathlib

/-!
# Three-way comparisons

C's sorting and searching routines take a comparison function with a strcmp-type
result: negative, zero or positive.  `ordering` reads such a result as an `Ordering`,
so that the comparison is a total preorder exactly when `Std.TransCmp (ordering compare)`
holds, and the lemmas of `Std.TransCmp` apply.  The lemmas below restate the ones the
proofs use on the integers themselves.  `Sorted` is a sequence in nondecreasing order.
-/

namespace Pintos.Comparison

variable {α : Type} (compare : α → α → Int) {a b c : α}

/-- The ordering a strcmp-type result stands for. -/
def ordering (a b : α) : Ordering := Ord.compare (compare a b) 0

@[simp]
theorem ordering_eq_lt : ordering compare a b = .lt ↔ compare a b < 0 := Int.compare_eq_lt

@[simp]
theorem ordering_eq_gt : ordering compare a b = .gt ↔ 0 < compare a b := Int.compare_eq_gt

@[simp]
theorem ordering_isLE : (ordering compare a b).isLE ↔ compare a b ≤ 0 := Int.isLE_compare

@[simp]
theorem ordering_isGE : (ordering compare a b).isGE ↔ 0 ≤ compare a b := Int.isGE_compare

theorem ordering_sub (key : α → Int) : ordering (fun a b => key a - key b) = compareOn key := by
  funext a b
  simp only [ordering, compareOn]
  rcases Int.lt_trichotomy (key a) (key b) with less | same | more
  · rw [Int.compare_eq_lt.mpr (by omega), Int.compare_eq_lt.mpr less]
  · rw [same, Int.sub_self, Int.compare_eq_eq.mpr rfl, Int.compare_eq_eq.mpr rfl]
  · rw [Int.compare_eq_gt.mpr (by omega), Int.compare_eq_gt.mpr more]

instance transCmp_sub (key : α → Int) : Std.TransCmp (ordering fun a b => key a - key b) := by
  rw [ordering_sub]
  infer_instance

/-- `values` is in nondecreasing order under `compare`. -/
def Sorted (values : List α) : Prop := values.Pairwise fun a b => compare a b ≤ 0

instance (values : List α) : Decidable (Sorted compare values) :=
  inferInstanceAs (Decidable (values.Pairwise fun a b => compare a b ≤ 0))

section Preorder

variable {compare} [Std.TransCmp (ordering compare)]

theorem self_nonpos : compare a a ≤ 0 := by
  have same : ordering compare a a = .eq := Std.ReflCmp.compare_self
  simp only [ordering, Int.compare_eq_eq] at same
  omega

theorem neg_of_pos (positive : 0 < compare a b) : compare b a < 0 :=
  (ordering_eq_lt compare).mp (Std.OrientedCmp.gt_iff_lt.mp ((ordering_eq_gt compare).mpr positive))

theorem pos_of_neg (negative : compare a b < 0) : 0 < compare b a :=
  (ordering_eq_gt compare).mp (Std.OrientedCmp.gt_iff_lt.mpr ((ordering_eq_lt compare).mpr negative))

theorem nonneg_of_nonpos (nonpos : compare a b ≤ 0) : 0 ≤ compare b a := by
  rcases Int.lt_or_le (compare b a) 0 with negative | nonneg
  · have := pos_of_neg negative
    omega
  · exact nonneg

theorem nonpos_trans (first : compare a b ≤ 0) (second : compare b c ≤ 0) : compare a c ≤ 0 :=
  (ordering_isLE compare).mp <|
    Std.TransCmp.isLE_trans ((ordering_isLE compare).mpr first) ((ordering_isLE compare).mpr second)

theorem neg_of_neg_of_nonpos (first : compare a b < 0) (second : compare b c ≤ 0) :
    compare a c < 0 :=
  (ordering_eq_lt compare).mp <|
    Std.TransCmp.lt_of_lt_of_isLE ((ordering_eq_lt compare).mpr first)
      ((ordering_isLE compare).mpr second)

theorem neg_of_nonpos_of_neg (first : compare a b ≤ 0) (second : compare b c < 0) :
    compare a c < 0 :=
  (ordering_eq_lt compare).mp <|
    Std.TransCmp.lt_of_isLE_of_lt ((ordering_isLE compare).mpr first)
      ((ordering_eq_lt compare).mpr second)

theorem pos_of_pos_of_nonneg (first : 0 < compare a b) (second : 0 ≤ compare b c) :
    0 < compare a c :=
  (ordering_eq_gt compare).mp <|
    Std.TransCmp.gt_of_gt_of_isGE ((ordering_eq_gt compare).mpr first)
      ((ordering_isGE compare).mpr second)

theorem pos_trans (first : 0 < compare a b) (second : 0 < compare b c) : 0 < compare a c :=
  pos_of_pos_of_nonneg first (Int.le_of_lt second)

theorem Sorted.nonpos {values : List α} (sorted : Sorted compare values) {i j : Nat}
    (iInside : i < values.length) (jInside : j < values.length) (le : i ≤ j) :
    compare values[i] values[j] ≤ 0 := by
  rcases Nat.lt_or_eq_of_le le with less | rfl
  · exact List.pairwise_iff_getElem.mp sorted i j iInside jInside less
  · exact self_nonpos

end Preorder

end Pintos.Comparison

import Mathlib

/-!
# Clearing the lowest set bit

`x &&& (x - 1)` is `x` with its lowest set bit cleared: it is zero exactly for the powers of
two, and otherwise keeps the highest bit of `x`.  Clearing bits until a power of two remains
therefore ends at `2 ^ Nat.log 2 x`.  The proofs split `x` into its last bit and the rest.
-/

namespace Pintos.LowBit

theorem and_pred_odd (n : Nat) : (2 * n + 1) &&& (2 * n + 1 - 1) = 2 * n := by
  have split := Nat.land_bit true n false n
  simp only [Nat.bit_val, Bool.toNat_true, Bool.toNat_false, Bool.and_false, Nat.and_self,
    Nat.add_zero] at split
  simpa using split

theorem and_pred_double {n : Nat} (positive : 0 < n) :
    (2 * n) &&& (2 * n - 1) = 2 * (n &&& (n - 1)) := by
  have split := Nat.land_bit false n true (n - 1)
  simp only [Nat.bit_val, Bool.toNat_true, Bool.toNat_false, Bool.false_and, Nat.add_zero] at split
  rwa [show 2 * (n - 1) + 1 = 2 * n - 1 by omega] at split

theorem and_pred_lt {x : Nat} (positive : 0 < x) : x &&& (x - 1) < x :=
  Nat.lt_of_le_of_lt Nat.and_le_right (by omega)

theorem and_pred_eq_zero_iff {x : Nat} (positive : 0 < x) : x &&& (x - 1) = 0 ↔ ∃ k, x = 2 ^ k := by
  induction x using Nat.strong_induction_on with
  | _ x inductionHypothesis =>
    obtain ⟨n, rfl | rfl⟩ := Nat.even_or_odd' x
    · have half : 0 < n := by omega
      rw [and_pred_double half, Nat.mul_eq_zero, inductionHypothesis n (by omega) half]
      constructor
      · rintro (two | ⟨k, rfl⟩)
        · cases two
        · exact ⟨k + 1, by rw [Nat.pow_succ, Nat.mul_comm]⟩
      · rintro ⟨k, double⟩
        -- an even power of two is twice a power of two
        cases k with
        | zero => rw [Nat.pow_zero] at double; omega
        | succ k => exact .inr ⟨k, by rw [Nat.pow_succ] at double; omega⟩
    · rw [and_pred_odd]
      constructor
      · intro zero
        exact ⟨0, by omega⟩
      · rintro ⟨k, odd⟩
        cases k with
        | zero => simp at odd; omega
        | succ k => rw [Nat.pow_succ] at odd; omega

theorem log_double {n : Nat} (positive : 0 < n) : Nat.log 2 (2 * n) = Nat.log 2 n + 1 := by
  rw [Nat.log_of_one_lt_of_le (by decide) (by omega)]
  congr 2
  omega

theorem log_double_add_one {n : Nat} (positive : 0 < n) :
    Nat.log 2 (2 * n + 1) = Nat.log 2 n + 1 := by
  rw [Nat.log_of_one_lt_of_le (by decide) (by omega)]
  congr 2
  omega

theorem log_and_pred {x : Nat} (nonzero : x &&& (x - 1) ≠ 0) :
    Nat.log 2 (x &&& (x - 1)) = Nat.log 2 x := by
  induction x using Nat.strong_induction_on with
  | _ x inductionHypothesis =>
    obtain ⟨n, rfl | rfl⟩ := Nat.even_or_odd' x
    · have half : 0 < n := by
        rcases Nat.eq_zero_or_pos n with rfl | positive
        · simp at nonzero
        · exact positive
      rw [and_pred_double half] at nonzero ⊢
      have rest : n &&& (n - 1) ≠ 0 := by omega
      rw [log_double (Nat.pos_of_ne_zero rest), log_double half,
        inductionHypothesis n (by omega) rest]
    · rw [and_pred_odd] at nonzero ⊢
      have half : 0 < n := by omega
      rw [log_double half, log_double_add_one half]

end Pintos.LowBit

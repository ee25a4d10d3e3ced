import Mathlib

/-!
# Fixed-width numerals

The digits of a value in a base, most significant first, padded on the left
with zeros to a width; the value that the loop `acc := acc * base + digit`
reads back from such digits; and digits with a separator between groups.
-/

namespace Pintos.Numeral

variable {base : Nat}

/-- The digits of `value`, most significant first, after enough zeros to make
`width` digits. -/
def padded (base width value : Nat) : List Nat :=
  List.replicate (width - (Nat.digits base value).length) 0 ++ (Nat.digits base value).reverse

/-- What the loop `acc := acc * base + digit` over `digits` leaves in `acc`. -/
def readFrom (base acc : Nat) (digits : List Nat) : Nat :=
  digits.foldl (fun acc digit => acc * base + digit) acc

theorem readFrom_eq (acc : Nat) (digits : List Nat) :
    readFrom base acc digits = acc * base ^ digits.length + Nat.ofDigits base digits.reverse := by
  induction digits generalizing acc with
  | nil => simp [readFrom]
  | cons digit digits ih =>
      simp only [readFrom, List.foldl_cons] at ih ⊢
      rw [ih, Nat.ofDigits_reverse_cons, List.length_cons, Nat.pow_succ]
      ring

theorem le_readFrom (acc : Nat) (digits : List Nat) :
    acc * base ^ digits.length ≤ readFrom base acc digits := by
  rw [readFrom_eq]
  exact Nat.le_add_right _ _

theorem readFrom_padded (width value : Nat) : readFrom base 0 (padded base width value) = value := by
  rw [readFrom_eq, padded, List.reverse_append, List.reverse_reverse, List.reverse_replicate,
    Nat.ofDigits_append_replicate_zero, Nat.ofDigits_digits]
  simp

theorem length_padded (large : 1 < base) {width value : Nat} (fits : value < base ^ width) :
    (padded base width value).length = width := by
  have short := (Nat.digits_length_le_iff large value).mpr fits
  simp only [padded, List.length_append, List.length_replicate, List.length_reverse]
  omega

theorem lt_of_mem_padded (large : 1 < base) {width value digit : Nat}
    (member : digit ∈ padded base width value) : digit < base := by
  rcases List.mem_append.mp member with zero | ofValue
  · rw [(List.mem_replicate.mp zero).2]
    omega
  · exact Nat.digits_lt_base large (List.mem_reverse.mp ofValue)

/-- `xs` with `sep` in front of each element whose position, counted from `start`, is a positive
multiple of `g`: digits written least significant first, with a separator between groups. -/
def separated {α : Type*} (sep : α) (g : Nat) : Nat → List α → List α
  | _, [] => []
  | start, x :: xs => (if 0 < start ∧ start % g = 0 then [sep, x] else [x]) ++ separated sep g (start + 1) xs

section Separated

variable {α : Type*} (sep : α) (g : Nat)

@[simp]
theorem separated_nil (start : Nat) : separated sep g start ([] : List α) = [] := rfl

theorem separated_cons (start : Nat) (x : α) (xs : List α) :
    separated sep g start (x :: xs) =
      (if 0 < start ∧ start % g = 0 then [sep, x] else [x]) ++ separated sep g (start + 1) xs := rfl

@[simp]
theorem separated_eq_nil_iff {start : Nat} {xs : List α} : separated sep g start xs = [] ↔ xs = [] := by
  cases xs with
  | nil => simp
  | cons x xs =>
    rw [separated_cons]
    split <;> simp

end Separated

end Pintos.Numeral

import Mathlib

/-!
# 64-bit division

`lib/arithmetic.c`: the routines GCC calls for 64-bit division on x86, built on the
`divl` instruction, which divides a 64-bit dividend by a 32-bit divisor and traps
with a divide error when the quotient does not fit in 32 bits.  Unsigned values
are `Nat`s and signed ones `Int`s, each wrapped to its C type where the source's
arithmetic wraps.
-/

namespace Pintos.Arithmetic

/-- `uint64_t` arithmetic. -/
def u64 (x : Nat) : Nat := x % 2 ^ 64

/-- The `int64_t` with the bits of `x`. -/
def s64 (x : Int) : Int := if x % 2 ^ 64 < 2 ^ 63 then x % 2 ^ 64 else x % 2 ^ 64 - 2 ^ 64

/-- The `int32_t` with the low 32 bits of `x`. -/
def s32 (x : Int) : Int := if x % 2 ^ 32 < 2 ^ 31 then x % 2 ^ 32 else x % 2 ^ 32 - 2 ^ 32

/-- The `uint64_t` with the bits of the `int64_t` `x`. -/
def toU64 (x : Int) : Nat := (x % 2 ^ 64).toNat

/-- `divl (n, d)`: `edx:eax` holds `n >> 32` and the low word of `n`. -/
def divl (n d : Nat) : Except String Nat :=
  let n1 := n / 2 ^ 32 % 2 ^ 32
  let n0 := n % 2 ^ 32
  let dividend := n1 * 2 ^ 32 + n0
  if d = 0 ∨ 2 ^ 32 ≤ dividend / d then .error "divide error" else .ok (dividend / d)

/-- One step of `nlz`: if `x` is at most `bound`, count `shift` zeros and shift
them out. -/
def nlzStep (bound shift : Nat) (state : Nat × Nat) : Nat × Nat :=
  if state.2 ≤ bound then (state.1 + shift, state.2 * 2 ^ shift % 2 ^ 32) else state

/-- `nlz (x)`: the leading zero bits of the 32-bit `x`. -/
def nlz (x : Nat) : Nat :=
  (nlzStep 0x7FFFFFFF 1 <| nlzStep 0x3FFFFFFF 2 <| nlzStep 0x0FFFFFFF 4 <|
    nlzStep 0x00FFFFFF 8 <| nlzStep 0x0000FFFF 16 (0, x)).1

/-- `udiv64 (n, d)`. -/
def udiv64 (n d : Nat) : Except String Nat :=
  if d / 2 ^ 32 = 0 then do
    let b := 2 ^ 32
    let n1 := n / 2 ^ 32 % 2 ^ 32
    let n0 := n % 2 ^ 32
    let d0 := d % 2 ^ 32
    let low ← divl (u64 (b * (n1 % d0) + n0)) d0
    return u64 (low + b * (n1 / d0))
  else if n < d then .ok 0
  else do
    let d1 := d / 2 ^ 32 % 2 ^ 32
    let s := nlz d1
    let q1 ← divl (n / 2) (u64 (d * 2 ^ s) / 2 ^ 32)
    let q := q1 / 2 ^ (31 - s)
    let below := u64 (q + 2 ^ 64 - 1)
    return if u64 (n + 2 ^ 64 - u64 (below * d)) < d then below else q

/-- `umod64 (n, d)`, whose `uint32_t` result keeps the low word. -/
def umod64 (n d : Nat) : Except String Nat := do
  let q ← udiv64 n d
  return u64 (n + 2 ^ 64 - u64 (d * q)) % 2 ^ 32

/-- `sdiv64 (n, d)`. -/
def sdiv64 (n d : Int) : Except String Int := do
  let nAbs := if 0 ≤ n then toU64 n else u64 (2 ^ 64 - toU64 n)
  let dAbs := if 0 ≤ d then toU64 d else u64 (2 ^ 64 - toU64 d)
  let qAbs ← udiv64 nAbs dAbs
  return if decide (n < 0) = decide (d < 0) then s64 qAbs else s64 (-s64 qAbs)

/-- `smod64 (n, d)`, whose `int32_t` result keeps the low word. -/
def smod64 (n d : Int) : Except String Int := do
  let q ← sdiv64 n d
  return s32 (s64 (n - d * q))

def divdi3 (n d : Int) : Except String Int := sdiv64 n d

def moddi3 (n d : Int) : Except String Int := smod64 n d

def udivdi3 (n d : Nat) : Except String Nat := udiv64 n d

def umoddi3 (n d : Nat) : Except String Nat := umod64 n d

/-! ## `divl` and `nlz` -/

theorem divl_eq {n d : Nat} (fits : n < 2 ^ 64) (positive : 0 < d) (small : n / d < 2 ^ 32) :
    divl n d = .ok (n / d) := by
  have whole : n / 2 ^ 32 % 2 ^ 32 * 2 ^ 32 + n % 2 ^ 32 = n := by omega
  simp only [divl, whole, Nat.pos_iff_ne_zero.mp positive, false_or, Nat.not_le.mpr small, if_false]

/-- A step of `nlz` keeps `x` shifted by the zeros counted and below `2 ^ 32`, and
leaves it at least `2 ^ (32 - shift)` if it was at least `2 ^ (32 - 2 shift)`. -/
theorem nlzStep_spec (bound shift : Nat) {x : Nat} {state : Nat × Nat}
    (bounded : bound + 1 = 2 ^ (32 - shift)) (fits : 2 * shift ≤ 32)
    (lower : 2 ^ (32 - 2 * shift) ≤ state.2) (upper : state.2 < 2 ^ 32)
    (counted : state.2 = x * 2 ^ state.1) :
    2 ^ (32 - shift) ≤ (nlzStep bound shift state).2 ∧ (nlzStep bound shift state).2 < 2 ^ 32 ∧
      (nlzStep bound shift state).2 = x * 2 ^ (nlzStep bound shift state).1 := by
  have split : 2 ^ (32 - shift) = 2 ^ (32 - 2 * shift) * 2 ^ shift := by
    rw [← Nat.pow_add]
    congr 1
    omega
  have whole : 2 ^ 32 = 2 ^ (32 - shift) * 2 ^ shift := by
    rw [← Nat.pow_add]
    congr 1
    omega
  have positive : 0 < 2 ^ shift := Nat.two_pow_pos shift
  unfold nlzStep
  split_ifs with small
  · have shifted : state.2 * 2 ^ shift < 2 ^ 32 := by
      rw [whole]
      exact Nat.mul_lt_mul_of_pos_right (by omega) positive
    simp only [Nat.mod_eq_of_lt shifted]
    refine ⟨?_, shifted, ?_⟩
    · rw [split]
      exact Nat.mul_le_mul_right _ lower
    · rw [counted, Nat.pow_add, Nat.mul_assoc]
  · exact ⟨by omega, upper, counted⟩

theorem nlz_spec {x : Nat} (positive : 0 < x) (fits : x < 2 ^ 32) :
    nlz x ≤ 31 ∧ 2 ^ 31 ≤ x * 2 ^ nlz x ∧ x * 2 ^ nlz x < 2 ^ 32 := by
  have start : (0, x).2 = x * 2 ^ (0, x).1 := by simp
  obtain ⟨l16, u16, e16⟩ := nlzStep_spec 0x0000FFFF 16 (by decide) (by decide)
    (by simp; omega) fits start
  obtain ⟨l8, u8, e8⟩ := nlzStep_spec 0x00FFFFFF 8 (by decide) (by decide) l16 u16 e16
  obtain ⟨l4, u4, e4⟩ := nlzStep_spec 0x0FFFFFFF 4 (by decide) (by decide) l8 u8 e8
  obtain ⟨l2, u2, e2⟩ := nlzStep_spec 0x3FFFFFFF 2 (by decide) (by decide) l4 u4 e4
  obtain ⟨l1, u1, e1⟩ := nlzStep_spec 0x7FFFFFFF 1 (by decide) (by decide) l2 u2 e2
  have shifted : x * 2 ^ nlz x = _ := e1.symm
  rw [shifted]
  refine ⟨?_, l1, u1⟩
  -- the top bit of `x` survives the shift
  have below : 2 ^ nlz x < 2 ^ 32 := calc
    2 ^ nlz x ≤ x * 2 ^ nlz x := Nat.le_mul_of_pos_left _ positive
    _ < 2 ^ 32 := by rw [shifted]; exact u1
  have := (Nat.pow_lt_pow_iff_right (by decide)).mp below
  omega

/-! ## `udiv64` -/

theorem udiv64_small {n d : Nat} (fits : n < 2 ^ 64) (positive : 0 < d) (small : d < 2 ^ 32) :
    udiv64 n d = .ok (n / d) := by
  have high : d / 2 ^ 32 = 0 := Nat.div_eq_of_lt small
  have d0 : d % 2 ^ 32 = d := Nat.mod_eq_of_lt small
  have n1 : n / 2 ^ 32 % 2 ^ 32 = n / 2 ^ 32 := Nat.mod_eq_of_lt (by omega)
  have remainder : n / 2 ^ 32 % d < d := Nat.mod_lt _ positive
  -- the dividend of the second `divl` is the remainder of the first, and the low word
  have dividend : u64 (2 ^ 32 * (n / 2 ^ 32 % d) + n % 2 ^ 32) =
      2 ^ 32 * (n / 2 ^ 32 % d) + n % 2 ^ 32 := by
    unfold u64
    apply Nat.mod_eq_of_lt
    have : n / 2 ^ 32 % d + 1 ≤ 2 ^ 32 := by omega
    calc 2 ^ 32 * (n / 2 ^ 32 % d) + n % 2 ^ 32
        < 2 ^ 32 * (n / 2 ^ 32 % d) + 2 ^ 32 := by omega
      _ = 2 ^ 32 * (n / 2 ^ 32 % d + 1) := by ring
      _ ≤ 2 ^ 32 * 2 ^ 32 := Nat.mul_le_mul_left _ this
      _ = 2 ^ 64 := by norm_num
  have lowFits : (2 ^ 32 * (n / 2 ^ 32 % d) + n % 2 ^ 32) / d < 2 ^ 32 := by
    apply Nat.div_lt_of_lt_mul
    calc 2 ^ 32 * (n / 2 ^ 32 % d) + n % 2 ^ 32
        < 2 ^ 32 * (n / 2 ^ 32 % d) + 2 ^ 32 := by omega
      _ = 2 ^ 32 * (n / 2 ^ 32 % d + 1) := by ring
      _ ≤ 2 ^ 32 * d := Nat.mul_le_mul_left _ remainder
      _ = d * 2 ^ 32 := Nat.mul_comm _ _
  -- `n / d` split at the high word of `n`
  have whole : n / d = (2 ^ 32 * (n / 2 ^ 32 % d) + n % 2 ^ 32) / d + 2 ^ 32 * (n / 2 ^ 32 / d) := by
    have split : n = (2 ^ 32 * (n / 2 ^ 32 % d) + n % 2 ^ 32) + d * (2 ^ 32 * (n / 2 ^ 32 / d)) := by
      have := Nat.div_add_mod (n / 2 ^ 32) d
      have := Nat.div_add_mod n (2 ^ 32)
      nlinarith
    conv_lhs => rw [split]
    rw [Nat.add_mul_div_left _ _ positive]
  have quotientFits : n / d < 2 ^ 64 := lt_of_le_of_lt (Nat.div_le_self n d) fits
  simp only [udiv64, high, if_true, d0, n1, dividend, divl_eq (by omega) positive lowFits, bind,
    Except.bind, pure, Except.pure, Except.ok.injEq]
  rw [← whole]
  exact Nat.mod_eq_of_lt quotientFits

/-- The estimate of Hacker's Delight: half of `n` divided by `v1`, the top word of the
divisor shifted so that its top bit is set, and shifted back, is `n / d` or one more. -/
theorem estimate_bounds {n d v1 k : Nat} (kPos : 1 ≤ k) (lowerV : v1 * 2 ^ k ≤ d)
    (upperV : d < (v1 + 1) * 2 ^ k) (top : 2 ^ 31 ≤ v1) (big : 2 ^ 32 ≤ d) (fits : n < 2 ^ 64) :
    n / d ≤ n / 2 / (v1 * 2 ^ (k - 1)) ∧ n / 2 / (v1 * 2 ^ (k - 1)) ≤ n / d + 1 := by
  have halve : n / 2 / (v1 * 2 ^ (k - 1)) = n / (v1 * 2 ^ k) := by
    obtain ⟨j, rfl⟩ : ∃ j, k = j + 1 := ⟨k - 1, by omega⟩
    rw [Nat.div_div_eq_div_mul, Nat.add_sub_cancel, Nat.pow_succ]
    congr 1
    ring
  rw [halve]
  have dPos : 0 < d := by omega
  refine ⟨Nat.div_le_div_left lowerV (Nat.mul_pos (by omega) (Nat.two_pow_pos k)), ?_⟩
  apply Nat.le_of_not_lt
  intro exceeds
  have qBelow : n / (v1 * 2 ^ k) * (v1 * 2 ^ k) ≤ n := Nat.div_mul_le_self n _
  have QAbove : n < (n / d + 1) * d := by
    have := Nat.lt_div_mul_add (a := n) dPos
    linarith
  have squeezed : (n / d + 2) * (v1 * 2 ^ k) < (n / d + 1) * ((v1 + 1) * 2 ^ k) := calc
    (n / d + 2) * (v1 * 2 ^ k) ≤ n / (v1 * 2 ^ k) * (v1 * 2 ^ k) := Nat.mul_le_mul_right _ exceeds
    _ ≤ n := qBelow
    _ < (n / d + 1) * d := QAbove
    _ ≤ (n / d + 1) * ((v1 + 1) * 2 ^ k) := Nat.mul_le_mul_left _ upperV.le
  -- cancelling `2 ^ k`, the quotient is at least `v1`
  have vSmall : v1 ≤ n / d := by
    have cancelled : (n / d + 2) * v1 < (n / d + 1) * (v1 + 1) := by
      apply Nat.lt_of_mul_lt_mul_right
      calc (n / d + 2) * v1 * 2 ^ k = (n / d + 2) * (v1 * 2 ^ k) := by ring
        _ < (n / d + 1) * ((v1 + 1) * 2 ^ k) := squeezed
        _ = (n / d + 1) * (v1 + 1) * 2 ^ k := by ring
    nlinarith
  -- so `n` is at least `2 ^ 62 * 2 ^ k`, and `k` is 1
  have kOne : k = 1 := by
    have chain : 2 ^ 62 * 2 ^ k < 2 ^ 64 := calc
      2 ^ 62 * 2 ^ k = 2 ^ 31 * (2 ^ 31 * 2 ^ k) := by ring
      _ ≤ n / d * (v1 * 2 ^ k) :=
        Nat.mul_le_mul (le_trans top vSmall) (Nat.mul_le_mul_right _ top)
      _ ≤ n / d * d := Nat.mul_le_mul_left _ lowerV
      _ ≤ n := Nat.div_mul_le_self n d
      _ < 2 ^ 64 := fits
    rw [← Nat.pow_add] at chain
    have := (Nat.pow_lt_pow_iff_right (by decide)).mp chain
    omega
  subst kOne
  have QSmall : n / d < 2 ^ 32 := by
    apply Nat.div_lt_of_lt_mul
    calc n < 2 ^ 64 := fits
      _ = 2 ^ 32 * 2 ^ 32 := by norm_num
      _ ≤ d * 2 ^ 32 := Nat.mul_le_mul_right _ big
  have doubled : 2 * v1 < n / d + 1 := by
    have odd : d ≤ 2 * v1 + 1 := by omega
    have : (n / d + 2) * (2 * v1) < (n / d + 1) * (2 * v1 + 1) := calc
      (n / d + 2) * (2 * v1) = (n / d + 2) * (v1 * 2 ^ 1) := by ring
      _ ≤ n := le_trans (Nat.mul_le_mul_right _ exceeds) qBelow
      _ < (n / d + 1) * d := QAbove
      _ ≤ (n / d + 1) * (2 * v1 + 1) := Nat.mul_le_mul_left _ odd
    nlinarith
  omega

/-- `d` shifted left by `nlz` of its top word: the shift does not wrap, and the top
word `v1` of the result has its top bit set and brackets `d`. -/
theorem normalise_bounds {d : Nat} (big : 2 ^ 32 ≤ d) (fits : d < 2 ^ 64) :
    nlz (d / 2 ^ 32 % 2 ^ 32) ≤ 31 ∧
      u64 (d * 2 ^ nlz (d / 2 ^ 32 % 2 ^ 32)) = d * 2 ^ nlz (d / 2 ^ 32 % 2 ^ 32) ∧
      2 ^ 31 ≤ d * 2 ^ nlz (d / 2 ^ 32 % 2 ^ 32) / 2 ^ 32 ∧
      d * 2 ^ nlz (d / 2 ^ 32 % 2 ^ 32) / 2 ^ 32 * 2 ^ (32 - nlz (d / 2 ^ 32 % 2 ^ 32)) ≤ d ∧
      d < (d * 2 ^ nlz (d / 2 ^ 32 % 2 ^ 32) / 2 ^ 32 + 1) *
        2 ^ (32 - nlz (d / 2 ^ 32 % 2 ^ 32)) := by
  have d1 : d / 2 ^ 32 % 2 ^ 32 = d / 2 ^ 32 := Nat.mod_eq_of_lt (by omega)
  rw [d1]
  obtain ⟨sSmall, topBit, fitsWord⟩ := nlz_spec (x := d / 2 ^ 32) (by omega) (by omega)
  generalize nlz (d / 2 ^ 32) = s at sSmall topBit fitsWord ⊢
  have split : 2 ^ 32 = 2 ^ (32 - s) * 2 ^ s := by
    rw [← Nat.pow_add]
    congr 1
    omega
  have shiftPos : 0 < 2 ^ s := Nat.two_pow_pos s
  have highRoom : d / 2 ^ 32 + 1 ≤ 2 ^ (32 - s) := by
    have : d / 2 ^ 32 * 2 ^ s < 2 ^ (32 - s) * 2 ^ s := by rw [← split]; exact fitsWord
    have := Nat.lt_of_mul_lt_mul_right this
    omega
  have dBelow : d < (d / 2 ^ 32 + 1) * 2 ^ 32 := by
    have := Nat.lt_div_mul_add (a := d) (Nat.two_pow_pos 32)
    linarith
  have noWrap : d * 2 ^ s < 2 ^ 64 := calc
    d * 2 ^ s < (d / 2 ^ 32 + 1) * 2 ^ 32 * 2 ^ s := Nat.mul_lt_mul_of_pos_right dBelow shiftPos
    _ = (d / 2 ^ 32 + 1) * 2 ^ s * 2 ^ 32 := by ring
    _ ≤ 2 ^ (32 - s) * 2 ^ s * 2 ^ 32 :=
      Nat.mul_le_mul_right _ (Nat.mul_le_mul_right _ highRoom)
    _ = 2 ^ 64 := by rw [← split]; norm_num
  refine ⟨sSmall, Nat.mod_eq_of_lt noWrap, ?_, ?_, ?_⟩
  · apply le_trans topBit
    apply (Nat.le_div_iff_mul_le (Nat.two_pow_pos 32)).mpr
    calc d / 2 ^ 32 * 2 ^ s * 2 ^ 32 = d / 2 ^ 32 * 2 ^ 32 * 2 ^ s := by ring
      _ ≤ d * 2 ^ s := Nat.mul_le_mul_right _ (Nat.div_mul_le_self d _)
  · apply Nat.le_of_mul_le_mul_right _ shiftPos
    calc d * 2 ^ s / 2 ^ 32 * 2 ^ (32 - s) * 2 ^ s = d * 2 ^ s / 2 ^ 32 * 2 ^ 32 := by
          rw [split, Nat.mul_assoc]
      _ ≤ d * 2 ^ s := Nat.div_mul_le_self _ _
  · apply Nat.lt_of_mul_lt_mul_right (a := 2 ^ s)
    calc d * 2 ^ s < (d * 2 ^ s / 2 ^ 32 + 1) * 2 ^ 32 := by
          have := Nat.lt_div_mul_add (a := d * 2 ^ s) (Nat.two_pow_pos 32)
          linarith
      _ = (d * 2 ^ s / 2 ^ 32 + 1) * 2 ^ (32 - s) * 2 ^ s := by rw [split, Nat.mul_assoc]

/-- The last line of `udiv64`: from an estimate that is `n / d` or one more, one less
if that leaves a remainder below `d`. -/
theorem correction_eq {n d q : Nat} (fits : n < 2 ^ 64) (dPos : 0 < d) (atLeast : d ≤ n)
    (lower : n / d ≤ q) (upper : q ≤ n / d + 1) :
    (if u64 (n + 2 ^ 64 - u64 (u64 (q + 2 ^ 64 - 1) * d)) < d then u64 (q + 2 ^ 64 - 1) else q) =
      n / d := by
  have quotientPos : 0 < n / d := Nat.div_pos atLeast dPos
  have quotientFits : n / d ≤ n := Nat.div_le_self n d
  have split := Nat.div_add_mod n d
  have remainder := Nat.mod_lt n dPos
  have multiple : d ≤ d * (n / d) := Nat.le_mul_of_pos_right d quotientPos
  have below : u64 (q + 2 ^ 64 - 1) = q - 1 := by
    unfold u64
    omega
  rw [below]
  rcases (show q = n / d ∨ q = n / d + 1 by omega) with rfl | rfl
  · -- the estimate was right: one less leaves `d` more than the remainder
    have product : (n / d - 1) * d = d * (n / d) - d := by
      rw [Nat.sub_mul, Nat.one_mul, Nat.mul_comm]
    have noWrap : u64 ((n / d - 1) * d) = d * (n / d) - d := by
      unfold u64
      omega
    have left : u64 (n + 2 ^ 64 - (d * (n / d) - d)) = n % d + d := by
      unfold u64
      omega
    rw [noWrap, left, if_neg (by omega)]
  · have noWrap : u64 ((n / d + 1 - 1) * d) = d * (n / d) := by
      rw [Nat.add_sub_cancel, Nat.mul_comm]
      unfold u64
      omega
    have left : u64 (n + 2 ^ 64 - d * (n / d)) = n % d := by
      unfold u64
      omega
    rw [noWrap, left, if_pos remainder, Nat.add_sub_cancel]

theorem udiv64_large {n d : Nat} (fits : n < 2 ^ 64) (big : 2 ^ 32 ≤ d) (dFits : d < 2 ^ 64) :
    udiv64 n d = .ok (n / d) := by
  have high : d / 2 ^ 32 ≠ 0 := by omega
  by_cases small : n < d
  · simp only [udiv64, high, if_false, small, if_true, Nat.div_eq_of_lt small]
  obtain ⟨sSmall, noWrap, top, lowerV, upperV⟩ := normalise_bounds big dFits
  simp only [udiv64, high, if_false, small]
  generalize nlz (d / 2 ^ 32 % 2 ^ 32) = s at sSmall noWrap top lowerV upperV ⊢
  have estimateFits : n / 2 / (d * 2 ^ s / 2 ^ 32) < 2 ^ 32 := by
    apply Nat.div_lt_of_lt_mul
    calc n / 2 < 2 ^ 63 := by omega
      _ = 2 ^ 31 * 2 ^ 32 := by norm_num
      _ ≤ d * 2 ^ s / 2 ^ 32 * 2 ^ 32 := Nat.mul_le_mul_right _ top
  obtain ⟨lower, upper⟩ := estimate_bounds (by omega) lowerV upperV top big fits
  have shiftBack : n / 2 / (d * 2 ^ s / 2 ^ 32) / 2 ^ (31 - s) =
      n / 2 / (d * 2 ^ s / 2 ^ 32 * 2 ^ (32 - s - 1)) := by
    rw [Nat.div_div_eq_div_mul]
    congr 3
    omega
  have estimate := divl_eq (by omega) (by omega) estimateFits
  simp only [noWrap, estimate, bind, Except.bind, pure, Except.pure, shiftBack]
  rw [correction_eq fits (by omega) (Nat.le_of_not_lt small) lower upper]

theorem udiv64_eq {n d : Nat} (fits : n < 2 ^ 64) (positive : 0 < d) (dFits : d < 2 ^ 64) :
    udiv64 n d = .ok (n / d) := by
  by_cases small : d < 2 ^ 32
  · exact udiv64_small fits positive small
  · exact udiv64_large fits (Nat.le_of_not_lt small) dFits

theorem umod64_eq {n d : Nat} (fits : n < 2 ^ 64) (positive : 0 < d) (dFits : d < 2 ^ 64) :
    umod64 n d = .ok (n % d % 2 ^ 32) := by
  have split := Nat.div_add_mod n d
  have product : u64 (d * (n / d)) = d * (n / d) := by
    unfold u64
    omega
  have left : u64 (n + 2 ^ 64 - d * (n / d)) = n % d := by
    unfold u64
    omega
  simp only [umod64, udiv64_eq fits positive dFits, product, left, bind, Except.bind, pure,
    Except.pure]

/-! ## Signed division -/

theorem magnitude_eq {n : Int} (low : -2 ^ 63 ≤ n) (high : n < 2 ^ 63) :
    (if 0 ≤ n then toU64 n else u64 (2 ^ 64 - toU64 n)) = n.natAbs := by
  unfold toU64 u64
  split_ifs <;> omega

theorem tdiv_eq_natAbs (n d : Int) :
    n.tdiv d = if decide (n < 0) = decide (d < 0) then ((n.natAbs / d.natAbs : Nat) : Int)
      else -((n.natAbs / d.natAbs : Nat) : Int) := by
  -- one case for each sign; a zero counts as either
  obtain ⟨a, rfl | rfl⟩ := Int.eq_nat_or_neg n <;> obtain ⟨b, rfl | rfl⟩ := Int.eq_nat_or_neg d <;>
    rcases Nat.eq_zero_or_pos a with rfl | aPos <;> rcases Nat.eq_zero_or_pos b with rfl | bPos <;>
    simp only [Int.neg_tdiv, Int.tdiv_neg, Int.neg_neg, ← Int.ofNat_tdiv, Int.natAbs_neg,
      Int.natAbs_natCast, decide_eq_decide, Nat.zero_div, Nat.div_zero] <;>
    split_ifs <;> omega

theorem quotient_lt {n d : Int} (nLow : -2 ^ 63 ≤ n) (nHigh : n < 2 ^ 63) (nonzero : d ≠ 0)
    (same : decide (n < 0) = decide (d < 0)) (noOverflow : ¬ (n = -2 ^ 63 ∧ d = -1)) :
    n.natAbs / d.natAbs < 2 ^ 63 := by
  rcases (show d.natAbs = 1 ∨ 2 ≤ d.natAbs by omega) with unit | larger
  · rw [unit, Nat.div_one]
    by_cases negative : n < 0
    · have : d < 0 := by simpa [negative] using same.symm
      omega
    · omega
  · calc n.natAbs / d.natAbs ≤ n.natAbs / 2 := Nat.div_le_div_left larger (by decide)
      _ < 2 ^ 63 := by omega

theorem sdiv64_eq {n d : Int} (nLow : -2 ^ 63 ≤ n) (nHigh : n < 2 ^ 63) (dLow : -2 ^ 63 ≤ d)
    (dHigh : d < 2 ^ 63) (nonzero : d ≠ 0) (noOverflow : ¬ (n = -2 ^ 63 ∧ d = -1)) :
    sdiv64 n d = .ok (n.tdiv d) := by
  have quotient : udiv64 n.natAbs d.natAbs = .ok (n.natAbs / d.natAbs) :=
    udiv64_eq (by omega) (by omega) (by omega)
  have bounded : n.natAbs / d.natAbs ≤ 2 ^ 63 :=
    le_trans (Nat.div_le_self _ _) (by omega)
  simp only [sdiv64, magnitude_eq nLow nHigh, magnitude_eq dLow dHigh, quotient, bind,
    Except.bind, pure, Except.pure, Except.ok.injEq, tdiv_eq_natAbs]
  split_ifs with same
  · have small := quotient_lt nLow nHigh nonzero same noOverflow
    generalize n.natAbs / d.natAbs = q at small ⊢
    unfold s64
    split_ifs <;> omega
  · -- a quotient of `2 ^ 63` turns negative and back
    generalize n.natAbs / d.natAbs = q at bounded ⊢
    unfold s64
    split_ifs <;> omega

theorem smod64_eq {n d : Int} (nLow : -2 ^ 63 ≤ n) (nHigh : n < 2 ^ 63) (dLow : -2 ^ 63 ≤ d)
    (dHigh : d < 2 ^ 63) (nonzero : d ≠ 0) (noOverflow : ¬ (n = -2 ^ 63 ∧ d = -1)) :
    smod64 n d = .ok (s32 (n.tmod d)) := by
  have smaller : (n.tmod d).natAbs < 2 ^ 63 := by
    rw [Int.natAbs_tmod]
    have := Nat.mod_lt n.natAbs (show 0 < d.natAbs by omega)
    omega
  have inRange : s64 (n - d * n.tdiv d) = n.tmod d := by
    rw [← Int.tmod_def]
    unfold s64
    split_ifs <;> omega
  simp only [smod64, sdiv64_eq nLow nHigh dLow dHigh nonzero noOverflow, inRange, bind,
    Except.bind, pure, Except.pure]

/-- The routines GCC calls: the quotients are exact, and no `divl` traps on the way,
but the remainders keep only their low 32 bits. -/
theorem divisionRoutines_spec :
    (∀ n d : Nat, n < 2 ^ 64 → 0 < d → d < 2 ^ 64 →
      udivdi3 n d = .ok (n / d) ∧ umoddi3 n d = .ok (n % d % 2 ^ 32)) ∧
    (∀ n d : Int, -2 ^ 63 ≤ n → n < 2 ^ 63 → -2 ^ 63 ≤ d → d < 2 ^ 63 → d ≠ 0 →
      ¬ (n = -2 ^ 63 ∧ d = -1) →
      divdi3 n d = .ok (n.tdiv d) ∧ moddi3 n d = .ok (s32 (n.tmod d))) := by
  refine ⟨fun n d fits positive dFits => ⟨udiv64_eq fits positive dFits, umod64_eq fits positive dFits⟩,
    fun n d nLow nHigh dLow dHigh nonzero noOverflow => ⟨?_, ?_⟩⟩
  · exact sdiv64_eq nLow nHigh dLow dHigh nonzero noOverflow
  · exact smod64_eq nLow nHigh dLow dHigh nonzero noOverflow

/-- `2 ^ 32` divided by `2 ^ 32 + 1` leaves `2 ^ 32`, which both remainder routines
return as 0. -/
theorem remainder_of_twoPow32 :
    umoddi3 (2 ^ 32) (2 ^ 32 + 1) = .ok 0 ∧ 2 ^ 32 % (2 ^ 32 + 1) = 2 ^ 32 ∧
      moddi3 (2 ^ 32) (2 ^ 32 + 1) = .ok 0 ∧ Int.tmod (2 ^ 32) (2 ^ 32 + 1) = 2 ^ 32 := by
  have unsigned := (divisionRoutines_spec.1 (2 ^ 32) (2 ^ 32 + 1) (by norm_num) (by norm_num)
    (by norm_num)).2
  have signed := (divisionRoutines_spec.2 (2 ^ 32) (2 ^ 32 + 1) (by norm_num) (by norm_num)
    (by norm_num) (by norm_num) (by norm_num) (by norm_num)).2
  refine ⟨by rw [unsigned]; norm_num, by norm_num, ?_, by decide⟩
  rw [signed]
  decide

end Pintos.Arithmetic

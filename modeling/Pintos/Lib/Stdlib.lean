import Mathlib
import Pintos.Numeral

/-!
# `atoi`

`atoi` of `lib/stdlib.c` skips white space and a sign and reads the digits into a negative
accumulator, `value = value * 10 - (*s - '0')`, so that `INT_MIN` can be read; a positive
number is negated at the end.  Signed overflow is undefined in C, so each arithmetic step of
the model goes through `checked`, which stops with an error where the `int` computation would
overflow: a result of `atoi` is a run without overflow.
-/

namespace Pintos.Stdlib

def intMin : Int := -2147483648

def intMax : Int := 2147483647

/-- An `int` operation: its value, or an error where it leaves the range of `int`. -/
def checked (value : Int) : Except String Int :=
  if intMin ≤ value ∧ value ≤ intMax then pure value else throw "signed integer overflow"

/-- `isspace` of `lib/ctype.h`: space, form feed, newline, carriage return, tab and vertical
tab. -/
def isspace (c : UInt8) : Bool := c == 32 || c == 12 || c == 10 || c == 13 || c == 9 || c == 11

/-- `isdigit` of `lib/ctype.h`. -/
def isdigit (c : UInt8) : Bool := 48 ≤ c && c ≤ 57

/-- The loop `while (isspace ((unsigned char) *s)) s++;`. -/
def skipSpace : List UInt8 → List UInt8
  | c :: s => if isspace c then skipSpace s else c :: s
  | [] => []

/-- The loop `for (value = 0; isdigit (*s); s++) value = value * 10 - (*s - '0');`. -/
def digitLoop (value : Int) : List UInt8 → Except String Int
  | c :: s =>
    if isdigit c then do
      let product ← checked (value * 10)
      let value ← checked (product - ((c.toNat : Int) - 48))
      digitLoop value s
    else pure value
  | [] => pure value

/-- The sign: `if (*s == '+') s++; else if (*s == '-') { negative = true; s++; }`. -/
def parseSign : List UInt8 → Bool × List UInt8
  | c :: s => if c = 43 then (false, s) else if c = 45 then (true, s) else (false, c :: s)
  | [] => (false, [])

def atoi (s : List UInt8) : Except String Int := do
  let s := skipSpace s
  let (negative, s) := parseSign s
  let value ← digitLoop 0 s
  if !negative then checked (-value) else pure value

/-- The value of a string of decimal digits. -/
def decimalValue (digits : List UInt8) : Nat :=
  Numeral.readFrom 10 0 (digits.map fun c => c.toNat - 48)

theorem checked_of_le {value : Int} (above : intMin ≤ value) (below : value ≤ intMax) :
    checked value = .ok value := by
  simp only [checked, if_pos (And.intro above below)]
  rfl

theorem skipSpace_append {spaces rest : List UInt8} (blank : ∀ c ∈ spaces, isspace c = true)
    {c : UInt8} (notSpace : isspace c = false) : skipSpace (spaces ++ c :: rest) = c :: rest := by
  induction spaces with
  | nil => simp [skipSpace, notSpace]
  | cons d spaces ih =>
    have space : isspace d = true := blank d List.mem_cons_self
    rw [List.cons_append, skipSpace, if_pos space]
    exact ih fun e member => blank e (List.mem_cons_of_mem d member)

theorem isspace_of_isdigit {c : UInt8} (digit : isdigit c = true) : isspace c = false := by
  have code : 48 ≤ c.toNat := by
    simp only [isdigit, Bool.and_eq_true, decide_eq_true_eq, UInt8.le_iff_toNat_le] at digit
    exact digit.1
  simp [isspace, UInt8.ext_iff]
  omega

theorem parseSign_of_isdigit {c : UInt8} (digit : isdigit c = true) (s : List UInt8) :
    parseSign (c :: s) = (false, c :: s) := by
  have code : 48 ≤ c.toNat := by
    simp only [isdigit, Bool.and_eq_true, decide_eq_true_eq, UInt8.le_iff_toNat_le] at digit
    exact digit.1
  have notPlus : c ≠ 43 := fun plus => by rw [plus] at code; exact absurd code (by decide)
  have notMinus : c ≠ 45 := fun minus => by rw [minus] at code; exact absurd code (by decide)
  simp only [parseSign, if_neg notPlus, if_neg notMinus]

/-- The digit loop keeps `value` at minus the number read so far; as long as the whole number
is at most `2 ^ 31`, neither `value * 10` nor the subtraction leaves `int`. -/
theorem digitLoop_digits {digits rest : List UInt8} (decimal : ∀ c ∈ digits, isdigit c = true)
    (ends : ∀ c ∈ rest.head?, isdigit c = false) {read : Nat}
    (small : Numeral.readFrom 10 read (digits.map fun c => c.toNat - 48) ≤ 2 ^ 31) :
    digitLoop (-read) (digits ++ rest) = .ok (-(Numeral.readFrom 10 read (digits.map fun c => c.toNat - 48) : Nat)) := by
  induction digits generalizing read with
  | nil =>
    cases rest with
    | nil => rfl
    | cons c rest =>
      have notDigit : isdigit c = false := ends c rfl
      simp only [List.nil_append, digitLoop, notDigit, Bool.false_eq_true, if_false]
      rfl
  | cons c digits ih =>
    have digit : isdigit c = true := decimal c List.mem_cons_self
    have code : 48 ≤ c.toNat ∧ c.toNat ≤ 57 := by
      simpa [isdigit, UInt8.le_iff_toNat_le] using digit
    -- the number read so far, times ten, is at most the whole number
    have grows : (read * 10 + (c.toNat - 48)) * 10 ^ digits.length ≤
        Numeral.readFrom 10 (read * 10 + (c.toNat - 48)) (digits.map fun c => c.toNat - 48) := by
      simpa using Numeral.le_readFrom (read * 10 + (c.toNat - 48)) (digits.map fun c => c.toNat - 48)
    have positive : 0 < 10 ^ digits.length := Nat.pow_pos (by decide)
    have next : read * 10 + (c.toNat - 48) ≤ 2 ^ 31 := by
      change Numeral.readFrom 10 (read * 10 + (c.toNat - 48)) _ ≤ 2 ^ 31 at small
      nlinarith
    have product : checked (-(read : Int) * 10) = .ok (-(read : Int) * 10) :=
      checked_of_le (by unfold intMin; omega) (by unfold intMax; omega)
    have difference : checked (-(read : Int) * 10 - ((c.toNat : Int) - 48)) =
        .ok (-((read * 10 + (c.toNat - 48) : Nat) : Int)) := by
      rw [checked_of_le (by unfold intMin; omega) (by unfold intMax; omega)]
      congr 1
      omega
    simp only [List.cons_append, digitLoop, digit, if_true, product, difference, bind, Except.bind]
    exact ih (fun d member => decimal d (List.mem_cons_of_mem c member)) small

/-- `atoi` returns the value of every string of white space, an optional sign and digits whose
value is an `int`, and no step of it overflows. -/
theorem atoi_parses {spaces sign digits rest : List UInt8} (blank : ∀ c ∈ spaces, isspace c = true)
    (signed : sign = [] ∨ sign = [43] ∨ sign = [45]) (nonempty : digits ≠ [])
    (decimal : ∀ c ∈ digits, isdigit c = true) (ends : ∀ c ∈ rest.head?, isdigit c = false)
    {v : Int} (valued : v = if sign = [45] then -(decimalValue digits : Int) else decimalValue digits)
    (inRange : intMin ≤ v ∧ v ≤ intMax) :
    atoi (spaces ++ sign ++ digits ++ rest) = .ok v := by
  obtain ⟨c, more, rfl⟩ := List.exists_cons_of_ne_nil nonempty
  have first : isdigit c = true := decimal c List.mem_cons_self
  have small : decimalValue (c :: more) ≤ 2 ^ 31 := by
    split at valued <;> (unfold intMin intMax at inRange; omega)
  have read : digitLoop 0 (c :: (more ++ rest)) = .ok (-(decimalValue (c :: more) : Int)) := by
    have loop := @digitLoop_digits (c :: more) rest decimal ends 0 small
    rwa [Nat.cast_zero, neg_zero] at loop
  have signParsed := parseSign_of_isdigit first (more ++ rest)
  -- a positive number comes back from the negative accumulator without overflow
  have positive : v = decimalValue (c :: more) →
      checked (-(-(decimalValue (c :: more) : Int))) = .ok v := by
    intro unsigned
    rw [neg_neg, ← unsigned]
    exact checked_of_le inRange.1 inRange.2
  rcases signed with rfl | rfl | rfl
  · have input : spaces ++ [] ++ c :: more ++ rest = spaces ++ c :: (more ++ rest) := by simp
    rw [input, atoi, skipSpace_append blank (isspace_of_isdigit first), signParsed]
    simp only [read, bind, Except.bind, Bool.not_false, ↓reduceIte]
    exact positive (by simpa using valued)
  · have input : spaces ++ [43] ++ c :: more ++ rest = spaces ++ 43 :: c :: (more ++ rest) := by simp
    have plus : isspace 43 = false := by decide
    rw [input, atoi, skipSpace_append blank plus]
    simp only [parseSign, ↓reduceIte, read, bind, Except.bind, Bool.not_false]
    exact positive (by simpa using valued)
  · have input : spaces ++ [45] ++ c :: more ++ rest = spaces ++ 45 :: c :: (more ++ rest) := by simp
    have minus : isspace 45 = false := by decide
    have notPlus : (45 : UInt8) ≠ 43 := by decide
    rw [input, atoi, skipSpace_append blank minus]
    simp only [parseSign, if_neg notPlus, ↓reduceIte, read, bind, Except.bind, Bool.not_true,
      Bool.false_eq_true]
    rw [valued]
    rfl

set_option maxRecDepth 2000 in
/-- `" \t-2147483648x"` reads as `INT_MIN`. -/
theorem atoi_reads_intMin :
    atoi ([32, 9] ++ [45] ++ [50, 49, 52, 55, 52, 56, 51, 54, 52, 56] ++ [120]) = .ok (-2147483648) :=
  atoi_parses (by decide) (by decide) (by decide) (by decide) (by decide) (by decide) (by decide)

end Pintos.Stdlib

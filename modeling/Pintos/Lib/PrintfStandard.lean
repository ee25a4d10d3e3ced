import Mathlib
import Pintos.Lib.Stdio

/-!
# What the C standard prescribes for an integer conversion

A conversion specification of `printf` (C99 7.19.6.1) is `%`, flags, an optional field width,
an optional precision after a `.`, and a length modifier before the conversion character.  A
width or a precision may be `*`, taken from an `int` argument before the value; a negative
width is the `-` flag with its absolute value, and a negative precision is taken as if it were
omitted.  This module says, without reference to `lib/stdio.c`, which characters the standard
prescribes for one `d`, `i`, `o`, `u`, `x`, `X` or `p` conversion:

* the value is the argument converted to the type the length modifier names;
* the precision is the minimum number of digits, one by default, and zero with precision zero
  has no digits;
* `+` and space give a sign to a non-negative value of a signed conversion only;
* `#` puts `0x` or `0X` before a nonzero hexadecimal value, and makes the first octal digit a
  zero;
* the field is padded with spaces to the width, on the right under `-`, and with zeros after the
  sign and prefix under `0` unless `-` or a precision is given;
* under the POSIX `'` flag, a comma separates each group of three digits.

The text of a pointer is implementation-defined; `lib/stdio.c` documents it as `%#x`, and the
width, the precision and `-` apply to it as to any conversion.
-/

namespace Pintos.Printf

open Stdio

/-- The character of a decimal digit. -/
def decimalDigit (digit : Nat) : Char := Char.ofNat ('0'.toNat + digit)

/-- The character of a hexadecimal digit, in capitals or not. -/
def hexDigit (upper : Bool) (digit : Nat) : Char :=
  if digit < 10 then decimalDigit digit
  else Char.ofNat ((if upper then 'A' else 'a').toNat + (digit - 10))

/-- `n` in decimal, without a leading zero: no digit at all for zero. -/
def decimal (n : Nat) : List Char := (Nat.digits 10 n).reverse.map decimalDigit

/-- At least `minDigits` digits of `value` in `base`, most significant first; with `grouping`
the value's digits are separated by commas into groups of three from the right. -/
def digitText (base : Nat) (upper grouping : Bool) (minDigits value : Nat) : List Char :=
  let digits := (Nat.digits base value).map (hexDigit upper)
  List.replicate (minDigits - digits.length) '0' ++
    (if grouping then Numeral.separated ',' 3 0 digits else digits).reverse

/-- `lead ++ body` in a field of `width`: after spaces, before spaces when `leftAlign`, or with
zeros between `lead` and `body` when `zeroFill`. -/
def pad (width : Nat) (leftAlign zeroFill : Bool) (lead body : List Char) : List Char :=
  let fill := width - (lead.length + body.length)
  if leftAlign then lead ++ body ++ List.replicate fill ' '
  else if zeroFill then lead ++ List.replicate fill '0' ++ body
  else List.replicate fill ' ' ++ lead ++ body

/-- A field width or a precision: written in the format, or `*` with the `int` argument the
call passes for it. -/
inductive Amount
  | literal (n : Nat)
  | star (arg : Int)
deriving DecidableEq, Repr

namespace Amount

def value : Amount → Int
  | literal n => n
  | star arg => toSigned 32 arg

def args : Amount → List Arg
  | literal _ => []
  | star arg => [.int arg]

def render : Amount → List Char
  | literal n => decimal n
  | star _ => ['*']

end Amount

/-- A conversion specification. -/
structure Directive where
  flags : List Char
  width : Option Amount
  precision : Option Amount
  length : ConversionType
  conversion : Char
deriving DecidableEq, Repr

def lengthModifier : ConversionType → List Char
  | .char => ['h', 'h']
  | .short => ['h']
  | .int => []
  | .intmax => ['j']
  | .long => ['l']
  | .longlong => ['l', 'l']
  | .ptrdifft => ['t']
  | .sizet => ['z']

/-- The flag characters: those of C99 and the POSIX `'`. -/
def flagChars : List Char := ['-', '+', ' ', '#', '0', '\x27']

namespace Directive

variable (d : Directive)

/-- The directive as written after its `%`. -/
def renderTail : List Char :=
  d.flags ++ (d.width.map Amount.render).getD [] ++
    (d.precision.map fun precision => '.' :: precision.render).getD [] ++
    lengthModifier d.length ++ [d.conversion]

def render : List Char := '%' :: d.renderTail

/-- The arguments the call passes for the `*` amounts, the width's first. -/
def starArgs : List Arg := (d.width.map Amount.args).getD [] ++ (d.precision.map Amount.args).getD []

def flag (f : Char) : Bool := d.flags.contains f

def negativeWidth : Bool := (d.width.map fun width => decide (width.value < 0)).getD false

def leftAligned : Bool := d.flag '-' || d.negativeWidth

def fieldWidth : Nat := (d.width.map fun width => width.value.natAbs).getD 0

def precisionValue : Option Nat :=
  d.precision.bind fun precision => if precision.value < 0 then none else some precision.value.toNat

def minDigits : Nat := d.precisionValue.getD 1

def grouping : Bool := d.flag '\x27' && d.conversion != 'p'

def zeroFill : Bool := d.flag '0' && !d.leftAligned && d.precisionValue.isNone && d.conversion != 'p'

/-- The sign or the prefix that comes before the zeros of `0`. -/
def lead (arg : Int) : List Char :=
  match d.conversion with
  | 'd' | 'i' =>
    let value := toSigned d.length.bits arg
    if value < 0 then ['-'] else if d.flag '+' then ['+'] else if d.flag ' ' then [' '] else []
  | 'x' | 'X' => if d.flag '#' && toUnsigned d.length.bits arg != 0 then ['0', d.conversion] else []
  | 'p' => if toUnsigned 32 arg != 0 then ['0', 'x'] else []
  | _ => []

/-- The digits. -/
def body (arg : Int) : List Char :=
  match d.conversion with
  | 'd' | 'i' => digitText 10 false d.grouping d.minDigits (toSigned d.length.bits arg).natAbs
  | 'o' =>
    let text := digitText 8 false d.grouping d.minDigits (toUnsigned d.length.bits arg)
    if d.flag '#' && text.head? != some '0' then '0' :: text else text
  | 'u' => digitText 10 false d.grouping d.minDigits (toUnsigned d.length.bits arg)
  | 'x' => digitText 16 false d.grouping d.minDigits (toUnsigned d.length.bits arg)
  | 'X' => digitText 16 true d.grouping d.minDigits (toUnsigned d.length.bits arg)
  | 'p' => digitText 16 false false d.minDigits (toUnsigned 32 arg)
  | _ => []

/-- What the standard prescribes for the directive with the value argument `arg`. -/
def field (arg : Int) : List Char :=
  pad d.fieldWidth d.leftAligned d.zeroFill (d.lead arg) (d.body arg)

/-- The directives of the claim: flag characters only among the flags, a written width that does
not begin with `0` (which would be a flag), an integer conversion with a length modifier only
where one applies, and a precision of at most 40. -/
structure WellFormed : Prop where
  flags : ∀ f ∈ d.flags, f ∈ flagChars
  width : ∀ n, d.width = some (.literal n) → 0 < n
  conversion : d.conversion ∈ ['d', 'i', 'o', 'u', 'x', 'X', 'p']
  pointer : d.conversion = 'p' → d.length = .int
  precision : ∀ p, d.precisionValue = some p → p ≤ 40

end Directive

end Pintos.Printf

import Mathlib
import Pintos.Numeral

/-!
# `printf` formatting

`__vprintf` of `lib/stdio.c` walks a format string and hands each output character to a
callback; `vsnprintf` passes a callback that stores the first `buf_size - 1` characters and
counts all of them.  The model returns the characters `__vprintf` emits, in order, and
`vsnprintf` folds its callback over them.

A conversion is parsed by `parse_conversion` into flags, a width, a precision and an argument
type, taking `*` widths and precisions from the arguments.  `format_integer` writes the digits
of the value into a buffer in reverse, with a comma before every `group`-th digit under the `'`
flag, pads the buffer with zeros up to the precision, and prints the buffer back to front
between the sign, the `0x` prefix and the padding to the field width.

The machine is 80x86: `int`, `long`, `size_t`, `ptrdiff_t` and pointers have 32 bits, `long
long` and `intmax_t` 64.  An argument is an integer that `va_arg` reads at the type the
conversion names, or a string pointer; a missing argument or one of the other kind is
undefined behaviour and ends the model with `none`.  Widths and precisions written in the
format are read as unbounded integers.
-/

namespace Pintos.Stdio

/-- The flags of `struct printf_conversion`. -/
structure Flags where
  minus : Bool := false
  plus : Bool := false
  space : Bool := false
  pound : Bool := false
  zero : Bool := false
  group : Bool := false
deriving DecidableEq, Repr

/-- The argument types of `struct printf_conversion`, named by their length modifiers. -/
inductive ConversionType
  | char
  | short
  | int
  | intmax
  | long
  | longlong
  | ptrdifft
  | sizet
deriving DecidableEq, Repr

structure PrintfConversion where
  flags : Flags
  width : Int
  precision : Int
  type : ConversionType
deriving DecidableEq, Repr

/-- `struct integer_base`: the digit characters cover the base. -/
structure IntegerBase where
  base : Nat
  digits : List Char
  x : Option Char
  group : Nat
  large : 1 < base
  complete : digits.length = base

def baseD : IntegerBase := ⟨10, "0123456789".toList, none, 3, by decide, by decide⟩

def baseO : IntegerBase := ⟨8, "01234567".toList, none, 3, by decide, by decide⟩

def baseX : IntegerBase := ⟨16, "0123456789abcdef".toList, some 'x', 4, by decide, by decide⟩

/-- `base_X`. -/
def baseXCapital : IntegerBase := ⟨16, "0123456789ABCDEF".toList, some 'X', 4, by decide, by decide⟩

/-- The digit character of `digit < b.base`. -/
def IntegerBase.digit (b : IntegerBase) (digit : Nat) : Char := b.digits.getD digit '0'

/-- One argument of the call, as `va_arg` finds it: an integer, or a string pointer (`none` is
a null pointer). -/
inductive Arg
  | int (value : Int)
  | string (value : Option (List Char))
deriving DecidableEq, Repr

def vaArgInt : List Arg → Option (Int × List Arg)
  | .int value :: args => some (value, args)
  | _ => none

def vaArgString : List Arg → Option (Option (List Char) × List Arg)
  | .string value :: args => some (value, args)
  | _ => none

/-- A value converted to a signed type of `bits` bits. -/
def toSigned (bits : Nat) (value : Int) : Int := value.bmod (2 ^ bits)

/-- A value converted to an unsigned type of `bits` bits. -/
def toUnsigned (bits : Nat) (value : Int) : Nat := (value % 2 ^ bits).toNat

def sizeMax : Int := 4294967295

def ptrdiffMax : Nat := 2147483647

/-! ## `parse_conversion` -/

/-- The loop over the flag characters. -/
def parseFlags (flags : Flags) : List Char → Flags × List Char
  | '-' :: format => parseFlags { flags with minus := true } format
  | '+' :: format => parseFlags { flags with plus := true } format
  | ' ' :: format => parseFlags { flags with space := true } format
  | '#' :: format => parseFlags { flags with pound := true } format
  | '0' :: format => parseFlags { flags with zero := true } format
  | '\x27' :: format => parseFlags { flags with group := true } format
  | format => (flags, format)

/-- `for (; isdigit (*format); format++) value = value * 10 + *format - '0';` -/
def parseDigits (value : Int) : List Char → Int × List Char
  | c :: format =>
    if c.isDigit then parseDigits (value * 10 + ((c.toNat : Int) - '0'.toNat)) format
    else (value, c :: format)
  | [] => (value, [])

/-- A width or precision: `*` takes an `int` argument, otherwise the digits are read. -/
def parseAmount (format : List Char) (args : List Arg) : Option (Int × List Char × List Arg) :=
  match format with
  | '*' :: format => do
    let (value, args) ← vaArgInt args
    pure (toSigned 32 value, format, args)
  | _ =>
    let (value, format) := parseDigits 0 format
    pure (value, format, args)

/-- The precision: after a `.`, an amount, a negative one read as none given (`-1`). -/
def parsePrecision (format : List Char) (args : List Arg) : Option (Int × List Char × List Arg) :=
  match format with
  | '.' :: format => do
    let (precision, format, args) ← parseAmount format args
    pure (if precision < 0 then -1 else precision, format, args)
  | _ => pure (-1, format, args)

def parseType : List Char → ConversionType × List Char
  | 'h' :: 'h' :: format => (.char, format)
  | 'h' :: format => (.short, format)
  | 'j' :: format => (.intmax, format)
  | 'l' :: 'l' :: format => (.longlong, format)
  | 'l' :: format => (.long, format)
  | 't' :: format => (.ptrdifft, format)
  | 'z' :: format => (.sizet, format)
  | format => (.int, format)

/-- `parse_conversion`: the conversion, the format from the conversion character on, and the
arguments left. -/
def parseConversion (format : List Char) (args : List Arg) :
    Option (PrintfConversion × List Char × List Arg) := do
  let (flags, format) := parseFlags {} format
  let flags := if flags.minus then { flags with zero := false } else flags
  let flags := if flags.plus then { flags with space := false } else flags
  let (width, format, args) ← parseAmount format args
  -- a negative width is the `-` flag, set after `-` has cancelled `0`
  let (width, flags) := if width < 0 then (-width, { flags with minus := true }) else (width, flags)
  let (precision, format, args) ← parsePrecision format args
  let flags := if 0 ≤ precision then { flags with zero := false } else flags
  let (type, format) := parseType format
  pure ({ flags, width, precision, type }, format, args)

/-! ## `format_integer` -/

/-- The loop that writes the digits of `value` into the buffer, least significant first, with a
comma before every `b.group`-th digit under the `'` flag. -/
def digitLoop (b : IntegerBase) (grouping : Bool) (value digitCnt : Nat) (buf : List Char) :
    List Char :=
  if _ : 0 < value then
    let buf := if grouping && 0 < digitCnt && digitCnt % b.group == 0 then buf ++ [','] else buf
    digitLoop b grouping (value / b.base) (digitCnt + 1) (buf ++ [b.digit (value % b.base)])
  else buf
termination_by value
decreasing_by exact Nat.div_lt_self ‹_› b.large

/-- `sizeof buf` in `format_integer`. -/
def integerBufSize : Nat := 64

/-- `while (cp - buf < precision && cp < buf + sizeof buf - 1) *cp++ = '0';` -/
def zeroLoop (precision : Int) (buf : List Char) : List Char :=
  if (buf.length : Int) < precision ∧ buf.length < integerBufSize - 1 then zeroLoop precision (buf ++ ['0'])
  else buf
termination_by integerBufSize - 1 - buf.length

/-- The sign character of a signed conversion. -/
def signOf (isSigned negative : Bool) (flags : Flags) : Option Char :=
  if isSigned then
    if flags.plus then some (if negative then '-' else '+')
    else if flags.space then some (if negative then '-' else ' ')
    else if negative then some '-'
    else none
  else none

/-- The buffer of `format_integer` once the digits, the zeros of the precision and the leading
zero of `#` in base 8 are written, in the order they are written. -/
def integerBuf (value : Nat) (b : IntegerBase) (c : PrintfConversion) : List Char :=
  let buf := digitLoop b c.flags.group value 0 []
  let precision := if c.precision < 0 then 1 else c.precision
  let buf := zeroLoop precision buf
  -- `#` with base 8: the result must begin with a zero
  if c.flags.pound && b.base == 8 && buf.getLast? != some '0' then buf ++ ['0'] else buf

/-- The `0x` or `0X` printed for `x`. -/
def prefixOf : Option Char → List Char
  | some x => ['0', x]
  | none => []

/-- `format_integer`, for the absolute value `value` and its sign `negative`. -/
def formatInteger (value : Nat) (isSigned negative : Bool) (b : IntegerBase)
    (c : PrintfConversion) : List Char :=
  let sign := signOf isSigned negative c.flags
  let x := if c.flags.pound && value != 0 then b.x else none
  let buf := integerBuf value b c
  let padCnt :=
    (c.width - buf.length - (if x.isSome then 2 else 0) - (if sign.isSome then 1 else 0)).toNat
  (if !(c.flags.minus || c.flags.zero) then List.replicate padCnt ' ' else []) ++ sign.toList ++
    prefixOf x ++ (if c.flags.zero then List.replicate padCnt '0' else []) ++ buf.reverse ++
    (if c.flags.minus then List.replicate padCnt ' ' else [])

/-- `format_string`. -/
def formatString (string : List Char) (length : Nat) (c : PrintfConversion) : List Char :=
  (if length < c.width ∧ !c.flags.minus then List.replicate (c.width - length).toNat ' ' else []) ++
    string.take length ++
    (if length < c.width ∧ c.flags.minus then List.replicate (c.width - length).toNat ' ' else [])

/-- `strnlen (s, maxlen)`. -/
def strnlen (s : List Char) (maxlen : Nat) : Nat := min s.length maxlen

/-! ## `__vprintf` -/

/-- The width of each argument type on 80x86. -/
def ConversionType.bits : ConversionType → Nat
  | .char => 8
  | .short => 16
  | .int => 32
  | .intmax => 64
  | .long => 32
  | .longlong => 64
  | .ptrdifft => 32
  | .sizet => 32

/-- The value of a `d` or `i` conversion: `va_arg` at the type, converted to `intmax_t`. -/
def signedArg : ConversionType → Int → Int
  | .char, value => toSigned 8 (toSigned 32 value)
  | .short, value => toSigned 16 (toSigned 32 value)
  | .int, value => toSigned 32 value
  | .intmax, value => toSigned 64 value
  | .long, value => toSigned 32 value
  | .longlong, value => toSigned 64 value
  | .ptrdifft, value => toSigned 32 value
  | .sizet, value =>
    let value : Int := toUnsigned 32 value
    if value > sizeMax / 2 then value - sizeMax - 1 else value

/-- The value of an `o`, `u`, `x` or `X` conversion, converted to `uintmax_t`. -/
def unsignedArg : ConversionType → Int → Nat
  | .char, value => toUnsigned 8 (toUnsigned 32 value)
  | .short, value => toUnsigned 16 (toUnsigned 32 value)
  | .int, value => toUnsigned 32 value
  | .intmax, value => toUnsigned 64 value
  | .long, value => toUnsigned 32 value
  | .longlong, value => toUnsigned 64 value
  | .ptrdifft, value => toUnsigned 64 (toSigned 32 value) &&& ((ptrdiffMax <<< 1) ||| 1)
  | .sizet, value => toUnsigned 32 value

def unsignedBase : Char → IntegerBase
  | 'o' => baseO
  | 'u' => baseD
  | 'x' => baseX
  | _ => baseXCapital

/-- The `switch` on the conversion character: what it emits, and the arguments left.  The
messages for unsupported conversions are what `__printf` prints for them. -/
def convert (c : PrintfConversion) (conversion : Char) (args : List Arg) :
    Option (List Char × List Arg) :=
  match conversion with
  | 'd' | 'i' => do
    let (value, args) ← vaArgInt args
    let value := signedArg c.type value
    pure (formatInteger value.natAbs true (value < 0) baseD c, args)
  | 'o' | 'u' | 'x' | 'X' => do
    let (value, args) ← vaArgInt args
    pure (formatInteger (unsignedArg c.type value) false false (unsignedBase conversion) c, args)
  | 'c' => do
    let (value, args) ← vaArgInt args
    pure (formatString [Char.ofNat (toUnsigned 8 value)] 1 c, args)
  | 's' => do
    let (s, args) ← vaArgString args
    let s := s.getD "(null)".toList
    -- a precision of `-1` is `SIZE_MAX` to `strnlen`
    pure (formatString s (strnlen s (toUnsigned 32 c.precision)) c, args)
  | 'p' => do
    let (value, args) ← vaArgInt args
    -- pointers are formatted as `%#x`: the flags are replaced by `#`
    pure (formatInteger (toUnsigned 32 value) false false baseX { c with flags := { pound := true } },
      args)
  | 'f' | 'e' | 'E' | 'g' | 'G' | 'n' =>
    pure ("<<no %".toList ++ [conversion] ++ " in kernel>>".toList, args)
  | _ => pure ("<<no %".toList ++ [conversion] ++ " conversion>>".toList, args)

theorem length_parseDigits_le (value : Int) (format : List Char) :
    (parseDigits value format).2.length ≤ format.length := by
  induction format generalizing value with
  | nil => simp [parseDigits]
  | cons c format inductionHypothesis =>
    simp only [parseDigits]
    split
    · exact Nat.le_succ_of_le (inductionHypothesis _)
    · exact Nat.le_refl _

theorem length_parseAmount_le {format rest : List Char} {args args' : List Arg} {value : Int}
    (parsed : parseAmount format args = some (value, rest, args')) : rest.length ≤ format.length := by
  unfold parseAmount at parsed
  split at parsed
  · rename_i format
    cases read : vaArgInt args with
    | none => simp [read] at parsed
    | some read' =>
      simp only [read, Option.bind_eq_bind, Option.bind_some, Option.pure_def, Option.some.injEq,
        Prod.mk.injEq] at parsed
      rw [← parsed.2.1]
      exact Nat.le_succ _
  · simp only [Option.pure_def, Option.some.injEq, Prod.mk.injEq] at parsed
    rw [← parsed.2.1]
    exact length_parseDigits_le 0 format

theorem length_parsePrecision_le {format rest : List Char} {args args' : List Arg} {value : Int}
    (parsed : parsePrecision format args = some (value, rest, args')) : rest.length ≤ format.length := by
  unfold parsePrecision at parsed
  split at parsed
  · rename_i format
    simp only [Option.bind_eq_bind] at parsed
    obtain ⟨⟨amount, format₁, args₁⟩, read, parsed⟩ := Option.bind_eq_some_iff.mp parsed
    simp only [Option.pure_def, Option.some.injEq, Prod.mk.injEq] at parsed
    rw [← parsed.2.1]
    exact Nat.le_succ_of_le (length_parseAmount_le read)
  · simp only [Option.pure_def, Option.some.injEq, Prod.mk.injEq] at parsed
    rw [← parsed.2.1]

theorem length_parseFlags_le (flags : Flags) (format : List Char) :
    (parseFlags flags format).2.length ≤ format.length := by
  -- each flag character is consumed; the last case consumes nothing
  fun_induction parseFlags flags format
  all_goals first
    | exact Nat.le_succ_of_le ‹_›
    | exact Nat.le_refl _

theorem length_parseType_le (format : List Char) : (parseType format).2.length ≤ format.length := by
  unfold parseType
  split <;> simp only [List.length_cons] <;> omega

/-- `parse_conversion` consumes its format, so the loop of `__vprintf` ends. -/
theorem length_parseConversion_le {format rest : List Char} {args args' : List Arg}
    {c : PrintfConversion} (parsed : parseConversion format args = some (c, rest, args')) :
    rest.length ≤ format.length := by
  unfold parseConversion at parsed
  simp only [Option.bind_eq_bind] at parsed
  obtain ⟨⟨width, format₁, args₁⟩, amount, parsed⟩ := Option.bind_eq_some_iff.mp parsed
  obtain ⟨⟨precision, format₂, args₂⟩, precise, parsed⟩ := Option.bind_eq_some_iff.mp parsed
  simp only [Option.pure_def, Option.some.injEq, Prod.mk.injEq] at parsed
  rw [← parsed.2.1]
  calc (parseType format₂).2.length
      ≤ format₂.length := length_parseType_le format₂
    _ ≤ format₁.length := length_parsePrecision_le precise
    _ ≤ (parseFlags {} format).2.length := length_parseAmount_le amount
    _ ≤ format.length := length_parseFlags_le {} format

/-- `__vprintf`: the characters it emits. -/
def vprintf (format : List Char) (args : List Arg) : Option (List Char) :=
  match format with
  | [] => some []
  | '%' :: '%' :: format => ('%' :: ·) <$> vprintf format args
  | '%' :: format =>
    match _parsed : parseConversion format args with
    | none => none
    -- the conversion character is the terminating null, and the loop then steps past it
    | some (_, [], _) => none
    | some (c, conversion :: format, args) => do
      let (out, args) ← convert c conversion args
      (out ++ ·) <$> vprintf format args
  | c :: format => (c :: ·) <$> vprintf format args
termination_by format.length
decreasing_by
  all_goals simp only [List.length_cons]
  · omega
  · have consumed := length_parseConversion_le _parsed
    simp only [List.length_cons] at consumed
    omega
  · omega

/-! ## `vsnprintf` -/

/-- `struct vsnprintf_aux`, with the characters stored from `buffer` on in place of `p`. -/
structure VsnprintfAux where
  stored : List Char
  length : Int
  maxLength : Int

def vsnprintfHelper (aux : VsnprintfAux) (ch : Char) : VsnprintfAux :=
  if aux.length < aux.maxLength then
    { aux with stored := aux.stored ++ [ch], length := aux.length + 1 }
  else { aux with length := aux.length + 1 }

/-- `vsnprintf (buffer, buf_size, format, args)`: the characters it stores from `buffer` on,
the null terminator included, and what it returns. -/
def vsnprintf (bufSize : Nat) (format : List Char) (args : List Arg) : Option (List Char × Int) := do
  -- `buf_size - 1` is a `size_t`, stored into the `int` `max_length`
  let aux : VsnprintfAux :=
    { stored := [], length := 0, maxLength := if 0 < bufSize then toSigned 32 (bufSize - 1) else 0 }
  let out ← vprintf format args
  let aux := out.foldl vsnprintfHelper aux
  pure (if 0 < bufSize then aux.stored ++ ['\x00'] else aux.stored, aux.length)


/-! ## What each piece computes -/

theorem toSigned_toSigned {small large : Nat} (fits : small ≤ large) (value : Int) :
    toSigned small (toSigned large value) = toSigned small value :=
  Int.bmod_bmod_of_dvd (Nat.pow_dvd_pow 2 fits)

theorem toUnsigned_toUnsigned {small large : Nat} (fits : small ≤ large) (value : Int) :
    toUnsigned small (toUnsigned large value) = toUnsigned small value := by
  have nonneg : 0 ≤ value % 2 ^ large := Int.emod_nonneg _ (by positivity)
  simp only [toUnsigned, Int.toNat_of_nonneg nonneg]
  rw [Int.emod_emod_of_dvd _ (pow_dvd_pow 2 fits)]

/-- `signedArg` reads the argument as a signed value of its type's width; for `size_t` the
code does so by hand. -/
theorem signedArg_eq (type : ConversionType) (value : Int) :
    signedArg type value = toSigned type.bits value := by
  cases type with
  | char => exact toSigned_toSigned (by decide) value
  | short => exact toSigned_toSigned (by decide) value
  | sizet =>
    simp only [signedArg, toUnsigned, toSigned, ConversionType.bits, sizeMax, Int.bmod]
    split_ifs <;> omega
  | _ => rfl

/-- `unsignedArg` reads the argument as an unsigned value of its type's width; for
`ptrdiff_t` the code does so with a mask. -/
theorem unsignedArg_eq (type : ConversionType) (value : Int) :
    unsignedArg type value = toUnsigned type.bits value := by
  cases type with
  | char => exact toUnsigned_toUnsigned (by decide) value
  | short => exact toUnsigned_toUnsigned (by decide) value
  | ptrdifft =>
    have mask : (ptrdiffMax <<< 1 ||| 1) = 2 ^ 32 - 1 := by decide
    have congruent : toSigned 32 value % 2 ^ 32 = value % 2 ^ 32 := Int.bmod_emod
    simp only [unsignedArg, mask, Nat.and_two_pow_sub_one_eq_mod, ConversionType.bits, toUnsigned]
    omega
  | _ => rfl

/-- The digit loop writes the digits of the value, least significant first, with the
separators of `'`. -/
theorem digitLoop_eq (b : IntegerBase) (grouping : Bool) (value digitCnt : Nat) (buf : List Char) :
    digitLoop b grouping value digitCnt buf =
      buf ++ (if grouping then Numeral.separated ',' b.group digitCnt else id)
        ((Nat.digits b.base value).map b.digit) := by
  fun_induction digitLoop b grouping value digitCnt buf with
  | case1 value digitCnt buf positive separator inductionHypothesis =>
    rw [inductionHypothesis, Nat.digits_def' b.large positive, List.map_cons]
    cases grouping with
    | false => simp [separator]
    | true =>
      -- the comma, if any, goes before this digit
      by_cases separate : 0 < digitCnt ∧ digitCnt % b.group = 0 <;>
        simp [separator, Numeral.separated_cons, separate]
  | case2 value digitCnt buf zero =>
    rw [Nat.eq_zero_of_not_pos zero]
    cases grouping <;> simp

theorem zeroLoop_eq (precision : Int) (buf : List Char) :
    zeroLoop precision buf =
      buf ++ List.replicate (min precision.toNat (integerBufSize - 1) - buf.length) '0' := by
  fun_induction zeroLoop precision buf with
  | case1 buf room inductionHypothesis =>
    rw [inductionHypothesis, List.append_assoc, List.singleton_append, ← List.replicate_succ,
      List.length_append, List.length_singleton]
    congr 2
    omega
  | case2 buf full =>
    rw [show min precision.toNat (integerBufSize - 1) - buf.length = 0 by omega, List.replicate_zero,
      List.append_nil]

theorem foldl_vsnprintfHelper (out : List Char) (aux : VsnprintfAux) :
    out.foldl vsnprintfHelper aux =
      { stored := aux.stored ++ out.take (aux.maxLength - aux.length).toNat
        length := aux.length + out.length
        maxLength := aux.maxLength } := by
  induction out generalizing aux with
  | nil => simp
  | cons ch out inductionHypothesis =>
    rw [List.foldl_cons, inductionHypothesis]
    unfold vsnprintfHelper
    split
    · rename_i room
      have taken : (aux.maxLength - aux.length).toNat = (aux.maxLength - (aux.length + 1)).toNat + 1 := by
        omega
      simp [taken, List.take_succ_cons]
      omega
    · rename_i full
      have none : (aux.maxLength - aux.length).toNat = 0 := by omega
      simp only [none, List.take_zero, List.append_nil, List.length_cons]
      have stillNone : (aux.maxLength - (aux.length + 1)).toNat = 0 := by omega
      simp only [stillNone, List.take_zero, List.append_nil]
      congr 1
      omega


/-- What `parse_conversion` makes of its pieces: `-` cancels `0` and `+` cancels space among the
flag characters, a negative width sets `-` afterwards, and a precision cancels `0`. -/
theorem parseConversion_eq {format format₁ format₂ format₃ format₄ : List Char}
    {args args₂ args₃ : List Arg} {flags : Flags} {width precision : Int} {type : ConversionType}
    (flagsRead : parseFlags {} format = (flags, format₁))
    (widthRead : parseAmount format₁ args = some (width, format₂, args₂))
    (precisionRead : parsePrecision format₂ args₂ = some (precision, format₃, args₃))
    (typeRead : parseType format₃ = (type, format₄)) :
    parseConversion format args = some (
      { flags :=
          { minus := flags.minus || decide (width < 0)
            plus := flags.plus
            space := flags.space && !flags.plus
            pound := flags.pound
            zero := flags.zero && !flags.minus && decide (precision < 0)
            group := flags.group }
        width := |width|
        precision
        type }, format₄, args₃) := by
  unfold parseConversion
  simp only [flagsRead, widthRead, precisionRead, typeRead, Option.bind_eq_bind, Option.bind_some,
    Option.pure_def]
  rcases flags with ⟨minus, plus, space, pound, zero, group⟩
  -- the width's sign and the precision's decide which flags change
  have widthSign : (width < 0 ∧ |width| = -width) ∨ (¬width < 0 ∧ |width| = width) := by
    by_cases negative : width < 0
    · exact .inl ⟨negative, abs_of_neg negative⟩
    · exact .inr ⟨negative, abs_of_nonneg (by omega)⟩
  have precisionSign : (precision < 0 ∧ ¬0 ≤ precision) ∨ (¬precision < 0 ∧ 0 ≤ precision) := by omega
  rcases widthSign with ⟨negative, absolute⟩ | ⟨negative, absolute⟩ <;>
    rcases precisionSign with ⟨below, above⟩ | ⟨below, above⟩ <;>
    cases minus <;> cases plus <;> simp [negative, absolute, below, above]

theorem vprintf_nil (args : List Arg) : vprintf [] args = some [] := vprintf.eq_1 args

theorem vprintf_ordinary {c : Char} (ordinary : c ≠ '%') (format : List Char) (args : List Arg) :
    vprintf (c :: format) args = (c :: ·) <$> vprintf format args :=
  vprintf.eq_4 args c format (fun _ percent _ => ordinary percent) ordinary

theorem vprintf_conversion {format rest : List Char} {args args' : List Arg} {c : PrintfConversion}
    {conversion : Char} (notPercent : format.head? ≠ some '%')
    (parsed : parseConversion format args = some (c, conversion :: rest, args')) :
    vprintf ('%' :: format) args =
      (convert c conversion args').bind fun (out, args) => (out ++ ·) <$> vprintf rest args := by
  rw [vprintf.eq_3 args format fun _ percent => notPercent (by simp [percent])]
  split
  · rename_i failed
    rw [parsed] at failed
    cases failed
  · rename_i ended
    rw [parsed] at ended
    cases ended
  · rename_i found
    rw [parsed] at found
    cases found
    rfl

theorem convert_signed {conversion : Char} (signed : conversion = 'd' ∨ conversion = 'i')
    (c : PrintfConversion) (value : Int) (args : List Arg) :
    convert c conversion (.int value :: args) =
      some (formatInteger (toSigned c.type.bits value).natAbs true (toSigned c.type.bits value < 0)
        baseD c, args) := by
  rcases signed with rfl | rfl <;> simp [convert, vaArgInt, signedArg_eq]

theorem convert_unsigned {conversion : Char}
    (unsigned : conversion = 'o' ∨ conversion = 'u' ∨ conversion = 'x' ∨ conversion = 'X')
    (c : PrintfConversion) (value : Int) (args : List Arg) :
    convert c conversion (.int value :: args) =
      some (formatInteger (toUnsigned c.type.bits value) false false (unsignedBase conversion) c,
        args) := by
  rcases unsigned with rfl | rfl | rfl | rfl <;> simp [convert, vaArgInt, unsignedArg_eq]

theorem convert_pointer (c : PrintfConversion) (value : Int) (args : List Arg) :
    convert c 'p' (.int value :: args) =
      some (formatInteger (toUnsigned 32 value) false false baseX { c with flags := { pound := true } },
        args) := by
  simp [convert, vaArgInt]

/-- `vsnprintf` stores the first `buf_size - 1` characters, as far as that fits an `int`, and
returns how many there are. -/
theorem vsnprintf_eq (bufSize : Nat) (format : List Char) (args : List Arg) :
    vsnprintf bufSize format args = (vprintf format args).map fun out =>
      let kept := out.take (if 0 < bufSize then toSigned 32 (bufSize - 1) else 0).toNat
      (if 0 < bufSize then kept ++ ['\x00'] else kept, (out.length : Int)) := by
  unfold vsnprintf
  cases vprintf format args with
  | none => rfl
  | some out =>
    simp only [Option.bind_eq_bind, Option.bind_some, foldl_vsnprintfHelper, List.nil_append,
      Int.sub_zero, Int.zero_add, Option.pure_def, Option.map_some]

/-- With a buffer of at most `INT_MAX + 1` bytes, `buf_size - 1` fits `max_length`: `vsnprintf`
stores the first `buf_size - 1` characters and the terminator. -/
theorem vsnprintf_stores {bufSize : Nat} (fits : bufSize ≤ 2 ^ 31) (format : List Char)
    (args : List Arg) :
    vsnprintf bufSize format args = (vprintf format args).map fun out =>
      (if 0 < bufSize then out.take (bufSize - 1) ++ ['\x00'] else [], (out.length : Int)) := by
  rw [vsnprintf_eq]
  congr 1
  funext out
  by_cases empty : bufSize = 0
  · simp [empty]
  · have maxLength : toSigned 32 ((bufSize : Int) - 1) = ((bufSize - 1 : Nat) : Int) := by
      rw [toSigned, Int.bmod_eq_of_le_mul_two] <;> omega
    simp [Nat.pos_of_ne_zero empty, maxLength]

/-- A buffer of more than `INT_MAX + 1` bytes makes `max_length` negative: `vsnprintf` stores
the terminator only. -/
theorem vsnprintf_large_buffer {bufSize : Nat} (large : 2 ^ 31 < bufSize) (sizeT : bufSize ≤ 2 ^ 32)
    (format : List Char) (args : List Arg) :
    vsnprintf bufSize format args = (vprintf format args).map fun out => (['\x00'], (out.length : Int)) := by
  rw [vsnprintf_eq]
  congr 1
  funext out
  have negative : toSigned 32 ((bufSize : Int) - 1) < 0 := by
    rw [toSigned, Int.bmod_eq_emod]
    split_ifs <;> omega
  simp [show 0 < bufSize by omega, Int.toNat_of_nonpos negative.le]

end Pintos.Stdio

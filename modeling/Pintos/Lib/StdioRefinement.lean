import Mathlib
import Pintos.Lib.PrintfStandard

/-!
# `__vprintf` against the standard

`parse_conversion` reads back every directive of `PrintfStandard`: its flags, its width and
precision with the `*` arguments, and its length modifier (`parseConversion_render`).
`format_integer` then lays out the sign, the prefix and the buffer as the standard pads a field,
except in one case: a negative `*` width sets the `-` flag after `-` has already cancelled `0`,
so a directive with `0`, a negative `*` width and no precision gets both `0` and `-`, and
`format_integer` then pads with zeros on the left and with spaces on the right.

With the `'` flag `lib/stdio.c` groups hexadecimal digits by four, and it counts the commas
toward the precision; a `p` conversion replaces all the flags by `#`, `-` included.  Outside
these cases each directive prints what the standard prescribes (`vprintf_directive`).
-/

namespace Pintos.Printf

open Stdio

/-! ## Characters -/

theorem decimalDigit_isDigit {digit : Nat} (small : digit < 10) : (decimalDigit digit).isDigit = true := by
  revert digit
  decide

theorem decimalDigit_value {digit : Nat} (small : digit < 10) :
    ((decimalDigit digit).toNat : Int) - ('0'.toNat : Int) = digit := by
  have value : (decimalDigit digit).toNat = 48 + digit := by
    revert digit
    decide
  rw [value]
  simp

theorem decimalDigit_ne {digit : Nat} (small : digit < 10) (c : Char) (notDigit : c.isDigit = false) :
    decimalDigit digit ≠ c := by
  rintro rfl
  rw [decimalDigit_isDigit small] at notDigit
  cases notDigit

theorem decimal_head {n : Nat} (positive : 0 < n) :
    ∃ digit, 0 < digit ∧ digit < 10 ∧ (decimal n).head? = some (decimalDigit digit) := by
  have nonempty : Nat.digits 10 n ≠ [] := Nat.digits_ne_nil_iff_ne_zero.mpr (by omega)
  refine ⟨(Nat.digits 10 n).getLast nonempty, ?_, ?_, ?_⟩
  · exact Nat.pos_of_ne_zero (Nat.getLast_digit_ne_zero 10 (by omega))
  · exact Nat.digits_lt_base (by decide) (List.getLast_mem nonempty)
  · rw [decimal, List.head?_map, List.head?_reverse, List.getLast?_eq_some_getLast nonempty]
    rfl

theorem digits_map_digit {b : IntegerBase} {upper : Bool}
    (agree : ∀ digit < b.base, b.digit digit = hexDigit upper digit) (value : Nat) :
    (Nat.digits b.base value).map b.digit = (Nat.digits b.base value).map (hexDigit upper) :=
  List.map_congr_left fun digit member => agree digit (Nat.digits_lt_base b.large member)

theorem baseD_digit : ∀ digit < baseD.base, baseD.digit digit = hexDigit false digit := by decide

theorem baseO_digit : ∀ digit < baseO.base, baseO.digit digit = hexDigit false digit := by decide

theorem baseX_digit : ∀ digit < baseX.base, baseX.digit digit = hexDigit false digit := by decide

theorem baseXCapital_digit :
    ∀ digit < baseXCapital.base, baseXCapital.digit digit = hexDigit true digit := by
  decide

/-! ## Parsing a directive back -/

/-- Setting the flag a flag character names. -/
def setFlag (flags : Flags) (c : Char) : Flags where
  minus := flags.minus || '-' == c
  plus := flags.plus || '+' == c
  space := flags.space || ' ' == c
  pound := flags.pound || '#' == c
  zero := flags.zero || '0' == c
  group := flags.group || '\x27' == c

theorem parseFlags_cons {c : Char} (isFlag : c ∈ flagChars) (flags : Flags) (format : List Char) :
    parseFlags flags (c :: format) = parseFlags (setFlag flags c) format := by
  simp only [flagChars, List.mem_cons, List.not_mem_nil, or_false] at isFlag
  rcases isFlag with rfl | rfl | rfl | rfl | rfl | rfl <;> simp [parseFlags, setFlag]

theorem parseFlags_stop {format : List Char} (stop : ∀ c, format.head? = some c → c ∉ flagChars)
    (flags : Flags) : parseFlags flags format = (flags, format) := by
  -- the first character, if any, is none of the six
  have notFlag : ∀ c ∈ flagChars, ∀ rest, format ≠ c :: rest := by
    rintro c isFlag rest rfl
    exact stop c rfl isFlag
  exact parseFlags.eq_7 flags format (notFlag '-' (by decide)) (notFlag '+' (by decide))
    (notFlag ' ' (by decide)) (notFlag '#' (by decide)) (notFlag '0' (by decide))
    (notFlag '\x27' (by decide))

theorem parseFlags_append {flags : List Char} (allFlags : ∀ f ∈ flags, f ∈ flagChars)
    {format : List Char} (stop : ∀ c, format.head? = some c → c ∉ flagChars) (acc : Flags) :
    parseFlags acc (flags ++ format) = (flags.foldl setFlag acc, format) := by
  induction flags generalizing acc with
  | nil => exact parseFlags_stop stop acc
  | cons f flags inductionHypothesis =>
    rw [List.cons_append, parseFlags_cons (allFlags f List.mem_cons_self), List.foldl_cons]
    exact inductionHypothesis (fun g member => allFlags g (List.mem_cons_of_mem f member)) _

theorem foldl_setFlag (flags : List Char) (acc : Flags) :
    flags.foldl setFlag acc =
      { minus := acc.minus || flags.contains '-'
        plus := acc.plus || flags.contains '+'
        space := acc.space || flags.contains ' '
        pound := acc.pound || flags.contains '#'
        zero := acc.zero || flags.contains '0'
        group := acc.group || flags.contains '\x27' } := by
  induction flags generalizing acc with
  | nil => simp
  | cons f flags inductionHypothesis =>
    rw [List.foldl_cons, inductionHypothesis]
    simp only [setFlag, List.contains_cons, Bool.or_assoc]

theorem parseDigits_digits {digits : List Nat} (small : ∀ digit ∈ digits, digit < 10)
    {rest : List Char} (stop : ∀ c, rest.head? = some c → c.isDigit = false) (acc : Nat) :
    parseDigits acc (digits.map decimalDigit ++ rest) =
      ((Numeral.readFrom 10 acc digits : Int), rest) := by
  induction digits generalizing acc with
  | nil =>
    cases rest with
    | nil => rfl
    | cons c rest =>
      simp only [List.map_nil, List.nil_append, parseDigits, stop c rfl]
      rfl
  | cons digit digits inductionHypothesis =>
    have smallDigit := small digit List.mem_cons_self
    simp only [List.map_cons, List.cons_append, parseDigits, decimalDigit_isDigit smallDigit,
      if_true, decimalDigit_value smallDigit]
    have next := inductionHypothesis (fun d member => small d (List.mem_cons_of_mem digit member))
      (acc * 10 + digit)
    push_cast at next
    rw [next]
    rfl

theorem parseDigits_decimal (n : Nat) {rest : List Char}
    (stop : ∀ c, rest.head? = some c → c.isDigit = false) :
    parseDigits 0 (decimal n ++ rest) = ((n : Int), rest) := by
  have small : ∀ digit ∈ (Nat.digits 10 n).reverse, digit < 10 := fun digit member =>
    Nat.digits_lt_base (by decide) (List.mem_reverse.mp member)
  have read := parseDigits_digits small stop 0
  rw [Numeral.readFrom_eq, List.reverse_reverse, Nat.ofDigits_digits] at read
  simpa [decimal] using read

/-- The rest of a directive after an amount starts with no digit and no `*`. -/
def Stops (rest : List Char) : Prop := ∀ c, rest.head? = some c → c.isDigit = false ∧ c ≠ '*'

theorem parseAmount_absent {rest : List Char} (stop : Stops rest) (args : List Arg) :
    parseAmount rest args = some (0, rest, args) := by
  rw [parseAmount.eq_2 rest args (by rintro _ rfl; exact (stop '*' rfl).2 rfl)]
  rw [show parseDigits 0 rest = (0, rest) by
    simpa [decimal] using parseDigits_decimal 0 fun c head => (stop c head).1]
  rfl

theorem parseAmount_render (amount : Amount) {rest : List Char} (stop : Stops rest) (args : List Arg) :
    parseAmount (amount.render ++ rest) (amount.args ++ args) = some (amount.value, rest, args) := by
  cases amount with
  | star arg => simp [Amount.render, Amount.args, Amount.value, parseAmount, vaArgInt]
  | literal n =>
    rcases Nat.eq_zero_or_pos n with rfl | positive
    · simpa [Amount.render, Amount.args, Amount.value, decimal] using parseAmount_absent stop args
    · -- the number begins with a digit, not with `*`
      obtain ⟨digit, -, small, head⟩ := decimal_head positive
      have notStar : ∀ format, decimal n ++ rest ≠ '*' :: format := by
        intro format same
        have first := congrArg List.head? same
        rw [List.head?_append, head] at first
        exact decimalDigit_ne small '*' (by decide) (Option.some.inj first)
      rw [Amount.render, Amount.args, List.nil_append, parseAmount.eq_2 _ args notStar,
        parseDigits_decimal n fun c head => (stop c head).1]
      rfl

theorem parsePrecision_absent {rest : List Char} (notDot : ∀ format, rest ≠ '.' :: format)
    (args : List Arg) : parsePrecision rest args = some (-1, rest, args) :=
  parsePrecision.eq_2 rest args notDot

theorem parsePrecision_render (precision : Amount) {rest : List Char} (stop : Stops rest)
    (args : List Arg) :
    parsePrecision ('.' :: (precision.render ++ rest)) (precision.args ++ args) =
      some (if precision.value < 0 then -1 else precision.value, rest, args) := by
  simp [parsePrecision, parseAmount_render precision stop args]

theorem parseType_render (type : ConversionType) {conversion : Char}
    (isConversion : conversion ∈ ['d', 'i', 'o', 'u', 'x', 'X', 'p']) (rest : List Char) :
    parseType (lengthModifier type ++ conversion :: rest) = (type, conversion :: rest) := by
  simp only [List.mem_cons, List.not_mem_nil, or_false] at isConversion
  rcases isConversion with rfl | rfl | rfl | rfl | rfl | rfl | rfl <;> cases type <;> rfl


/-- The precision as `parse_conversion` stores it, `-1` for none. -/
def Directive.precisionInt (d : Directive) : Int :=
  match d.precisionValue with
  | some precision => precision
  | none => -1

/-- The conversion `parse_conversion` makes of a directive: `-` cancels `0` before a negative
width sets `-`, so `0` stays with a negative `*` width. -/
def Directive.parsed (d : Directive) : PrintfConversion where
  flags :=
    { minus := d.leftAligned
      plus := d.flag '+'
      space := d.flag ' ' && !d.flag '+'
      pound := d.flag '#'
      zero := d.flag '0' && !d.flag '-' && d.precisionValue.isNone
      group := d.flag '\x27' }
  width := d.fieldWidth
  precision := d.precisionInt
  type := d.length

theorem Directive.parsed_type (d : Directive) : d.parsed.type = d.length := rfl

theorem Directive.decide_width_lt (d : Directive) :
    decide ((d.width.map Amount.value).getD 0 < 0) = d.negativeWidth := by
  unfold Directive.negativeWidth
  cases d.width <;> rfl

theorem Directive.abs_width (d : Directive) :
    |(d.width.map Amount.value).getD 0| = (d.fieldWidth : Int) := by
  unfold Directive.fieldWidth
  cases d.width <;> simp

theorem Directive.precisionInt_cases (d : Directive) :
    (d.precisionValue = none ∧ d.precisionInt = -1) ∨
      ∃ precision : Nat, d.precisionValue = some precision ∧ d.precisionInt = precision := by
  unfold Directive.precisionInt
  cases d.precisionValue <;> simp

theorem Directive.decide_precisionInt_lt (d : Directive) :
    decide (d.precisionInt < 0) = d.precisionValue.isNone := by
  unfold Directive.precisionInt
  cases d.precisionValue <;> simp

/-- The characters that can begin what follows the precision: a length modifier or a
conversion. -/
def typeChars : List Char := ['h', 'j', 'l', 't', 'z', 'd', 'i', 'o', 'u', 'x', 'X', 'p']

theorem head_typeChars {d : Directive} (wellFormed : d.WellFormed) (rest : List Char) :
    ∀ c, (lengthModifier d.length ++ d.conversion :: rest).head? = some c → c ∈ typeChars := by
  have conversion := wellFormed.conversion
  intro c head
  cases type : d.length <;> simp only [type, lengthModifier, List.nil_append, List.cons_append,
    List.head?_cons, Option.some.injEq] at head <;> subst head <;> try decide
  all_goals
    simp only [List.mem_cons, List.not_mem_nil, or_false] at conversion
    rcases conversion with same | same | same | same | same | same | same <;> rw [same] <;> decide

theorem stops_conversion {d : Directive} (wellFormed : d.WellFormed) (rest : List Char) :
    Stops (lengthModifier d.length ++ d.conversion :: rest) := fun c head => by
  have stops : ∀ c ∈ typeChars, c.isDigit = false ∧ c ≠ '*' := by simp [typeChars]
  exact stops c (head_typeChars wellFormed rest c head)

theorem stops_precision {d : Directive} (wellFormed : d.WellFormed) (rest : List Char) :
    Stops ((d.precision.map fun precision => '.' :: precision.render).getD [] ++
      lengthModifier d.length ++ d.conversion :: rest) := by
  cases d.precision with
  | none => simpa using stops_conversion wellFormed rest
  | some precision =>
    intro c head
    simp only [Option.map_some, Option.getD_some, List.cons_append, List.head?_cons,
      Option.some.injEq] at head
    subst head
    decide

theorem stops_flags {d : Directive} (wellFormed : d.WellFormed) (rest : List Char) :
    ∀ c, ((d.width.map Amount.render).getD [] ++ ((d.precision.map fun precision => '.' :: precision.render).getD [] ++
      lengthModifier d.length ++ d.conversion :: rest)).head? = some c → c ∉ flagChars ∧ c ≠ '%' := by
  intro c head
  cases width : d.width with
  | none =>
    simp only [width, Option.map_none, Option.getD_none, List.nil_append] at head
    cases precision : d.precision with
    | none =>
      simp only [precision, Option.map_none, Option.getD_none, List.nil_append] at head
      have notFlag : ∀ c ∈ typeChars, c ∉ flagChars ∧ c ≠ '%' := by simp [typeChars, flagChars]
      exact notFlag c (head_typeChars wellFormed rest c head)
    | some precision' =>
      simp only [precision, Option.map_some, Option.getD_some, List.cons_append, List.head?_cons,
        Option.some.injEq] at head
      subst head
      decide
  | some amount =>
    cases amount with
    | star arg =>
      simp only [width, Option.map_some, Option.getD_some, Amount.render, List.cons_append,
        List.head?_cons, Option.some.injEq] at head
      subst head
      decide
    | literal n =>
      -- a written width begins with a digit other than `0`
      obtain ⟨digit, positive, small, first⟩ := decimal_head (wellFormed.width n width)
      simp only [width, Option.map_some, Option.getD_some, Amount.render, List.head?_append,
        first, Option.some_or, Option.some.injEq] at head
      subst head
      have notFlag : ∀ digit < 10, 0 < digit → decimalDigit digit ∉ flagChars ∧ decimalDigit digit ≠ '%' := by
        decide
      exact notFlag digit small positive

theorem Directive.renderTail_append (d : Directive) (rest : List Char) :
    d.renderTail ++ rest = d.flags ++ ((d.width.map Amount.render).getD [] ++
      ((d.precision.map fun precision => '.' :: precision.render).getD [] ++
        lengthModifier d.length ++ d.conversion :: rest)) := by
  simp [Directive.renderTail]

theorem parseConversion_render {d : Directive} (wellFormed : d.WellFormed) (rest : List Char)
    (args : List Arg) :
    parseConversion (d.renderTail ++ rest) (d.starArgs ++ args) =
      some (d.parsed, d.conversion :: rest, args) := by
  -- what is left after the width
  have widthStops := stops_precision wellFormed rest
  have widthRead : parseAmount ((d.width.map Amount.render).getD [] ++
        ((d.precision.map fun precision => '.' :: precision.render).getD [] ++
          lengthModifier d.length ++ d.conversion :: rest)) (d.starArgs ++ args) =
      some ((d.width.map Amount.value).getD 0,
        (d.precision.map fun precision => '.' :: precision.render).getD [] ++
          lengthModifier d.length ++ d.conversion :: rest,
        (d.precision.map Amount.args).getD [] ++ args) := by
    unfold Directive.starArgs
    cases d.width with
    | none => simpa using parseAmount_absent widthStops _
    | some width => simpa [List.append_assoc] using parseAmount_render width widthStops _
  have precisionRead : parsePrecision ((d.precision.map fun precision => '.' :: precision.render).getD [] ++
        lengthModifier d.length ++ d.conversion :: rest) ((d.precision.map Amount.args).getD [] ++ args) =
      some (d.precisionInt, lengthModifier d.length ++ d.conversion :: rest, args) := by
    unfold Directive.precisionInt Directive.precisionValue
    cases d.precision with
    | none =>
      refine parsePrecision_absent ?_ args
      intro format same
      have dot := head_typeChars wellFormed rest '.'
      simp only [Option.map_none, Option.getD_none, List.nil_append] at same
      rw [same] at dot
      exact absurd (dot rfl) (by decide)
    | some precision =>
      simp only [Option.map_some, Option.getD_some, List.cons_append, List.append_assoc]
      rw [parsePrecision_render precision (stops_conversion wellFormed rest) args]
      by_cases negative : precision.value < 0 <;> simp [negative]
      omega
  have flagsRead : parseFlags {} (d.renderTail ++ rest) = (d.flags.foldl setFlag {},
      (d.width.map Amount.render).getD [] ++ ((d.precision.map fun precision => '.' :: precision.render).getD [] ++
          lengthModifier d.length ++ d.conversion :: rest)) := by
    rw [Directive.renderTail_append]
    exact parseFlags_append wellFormed.flags (fun c head => (stops_flags wellFormed rest c head).1) {}
  have typeRead := parseType_render d.length wellFormed.conversion rest
  rw [parseConversion_eq flagsRead widthRead precisionRead typeRead, foldl_setFlag,
    Directive.decide_width_lt, Directive.abs_width, Directive.decide_precisionInt_lt]
  simp [Directive.parsed, Directive.leftAligned, Directive.flag]


/-! ## The layout of `format_integer` -/

/-- The sign and the `0x` prefix of `format_integer`. -/
def integerLead (value : Nat) (isSigned negative : Bool) (b : IntegerBase) (flags : Flags) :
    List Char :=
  (signOf isSigned negative flags).toList ++ prefixOf (if flags.pound && value != 0 then b.x else none)

/-- How `format_integer` fills a field of `width` around `lead` and `body`: with spaces in front
unless `-` or `0` is set, with zeros after the lead under `0`, and with spaces behind under `-`,
each time by what the field lacks. -/
def layout (width : Nat) (minus zero : Bool) (lead body : List Char) : List Char :=
  let count := width - (lead.length + body.length)
  (if !(minus || zero) then List.replicate count ' ' else []) ++ lead ++
    (if zero then List.replicate count '0' else []) ++ body ++
    (if minus then List.replicate count ' ' else [])

theorem formatInteger_layout (value : Nat) (isSigned negative : Bool) (b : IntegerBase)
    (c : PrintfConversion) :
    formatInteger value isSigned negative b c =
      layout c.width.toNat c.flags.minus c.flags.zero (integerLead value isSigned negative b c.flags)
        (integerBuf value b c).reverse := by
  unfold formatInteger integerLead layout
  generalize signOf isSigned negative c.flags = sign
  generalize (if c.flags.pound && value != 0 then b.x else none) = x
  generalize integerBuf value b c = buf
  -- the pad count is what the width leaves after the sign, the prefix and the buffer
  have count : (c.width - buf.length - (if x.isSome then 2 else 0) - (if sign.isSome then 1 else 0)).toNat =
      c.width.toNat - ((sign.toList ++ prefixOf x).length + buf.reverse.length) := by
    cases sign <;> cases x <;> simp [prefixOf] <;> omega
  simp only [count, List.append_assoc]

theorem layout_eq_pad (width : Nat) {minus zero : Bool} (notBoth : ¬(minus = true ∧ zero = true))
    (lead body : List Char) : layout width minus zero lead body = pad width minus zero lead body := by
  cases minus <;> cases zero <;> simp_all [layout, pad]

/-- With both `-` and `0`, the field is filled twice: with zeros after the lead and with spaces
after the body. -/
theorem layout_both (width : Nat) (lead body : List Char) :
    layout width true true lead body =
      lead ++ List.replicate (width - (lead.length + body.length)) '0' ++ body ++
        List.replicate (width - (lead.length + body.length)) ' ' := by
  simp [layout]

/-- The buffer printed back to front: the zeros of the precision, then the digits most significant
first with their commas; with `#` in base 8, a zero in front when they do not begin with one. -/
theorem integerBuf_reverse (value : Nat) (b : IntegerBase) (c : PrintfConversion)
    (fits : c.precision ≤ integerBufSize - 1) :
    (integerBuf value b c).reverse =
      let grouped := (if c.flags.group then Numeral.separated ',' b.group 0 else id)
        ((Nat.digits b.base value).map b.digit)
      let text := List.replicate ((if c.precision < 0 then 1 else c.precision).toNat - grouped.length) '0' ++
        grouped.reverse
      if c.flags.pound && b.base == 8 && text.head? != some '0' then '0' :: text else text := by
  unfold integerBuf
  dsimp only
  rw [digitLoop_eq, List.nil_append, zeroLoop_eq]
  -- the precision fits the buffer, so the zero loop is not cut short
  have notCut : min (if c.precision < 0 then 1 else c.precision).toNat (integerBufSize - 1) =
      (if c.precision < 0 then 1 else c.precision).toNat := by
    simp only [integerBufSize] at fits ⊢
    split <;> omega
  rw [notCut]
  generalize (if c.flags.group then Numeral.separated ',' b.group 0 else id)
    ((Nat.digits b.base value).map b.digit) = grouped
  generalize (if c.precision < 0 then 1 else c.precision).toNat - grouped.length = zeros
  -- the text is the buffer reversed, so its first character is the buffer's last
  rw [show List.replicate zeros '0' ++ grouped.reverse = (grouped ++ List.replicate zeros '0').reverse by
    simp, List.head?_reverse]
  generalize grouped ++ List.replicate zeros '0' = buf
  split <;> simp


theorem one_sub_length_separated (sep : Char) (g start : Nat) (xs : List Char) :
    1 - (Numeral.separated sep g start xs).length = 1 - xs.length := by
  cases xs with
  | nil => rfl
  | cons x xs =>
    have nonempty : Numeral.separated sep g start (x :: xs) ≠ [] := by simp
    have positive := List.length_pos_of_ne_nil nonempty
    simp only [List.length_cons]
    omega

/-- Without `'`, or with groups of three and no precision, the buffer holds the standard's
digits. -/
theorem grouped_text {b : IntegerBase} {upper : Bool}
    (agree : ∀ digit < b.base, b.digit digit = hexDigit upper digit) {grouping : Bool}
    {minDigits : Nat} (byThree : grouping = true → b.group = 3 ∧ minDigits = 1) (value : Nat) :
    List.replicate (minDigits - ((if grouping then Numeral.separated ',' b.group 0 else id)
        ((Nat.digits b.base value).map b.digit)).length) '0' ++
      ((if grouping then Numeral.separated ',' b.group 0 else id)
        ((Nat.digits b.base value).map b.digit)).reverse =
      digitText b.base upper grouping minDigits value := by
  rw [digits_map_digit agree, digitText]
  cases grouping with
  | false => simp
  | true =>
    obtain ⟨three, one⟩ := byThree rfl
    simp only [if_true, three, one, one_sub_length_separated]

theorem pad_zeroFill_congr (width : Nat) {leftAlign zeroFill zeroFill' : Bool}
    (same : leftAlign = false → zeroFill = zeroFill') (lead body : List Char) :
    pad width leftAlign zeroFill lead body = pad width leftAlign zeroFill' lead body := by
  cases leftAlign with
  | false => rw [same rfl]
  | true => simp [pad]


/-! ## Where `__vprintf` follows the standard -/

/-- Under `'` the code groups digits by three in decimal and octal only, and counts the commas
toward the precision: the standard's grouping where no hexadecimal digit and no precision is
involved. -/
def Directive.GroupsByThree (d : Directive) : Prop :=
  d.flag '\x27' = true → d.conversion ≠ 'p' →
    d.conversion ∈ ['d', 'i', 'o', 'u'] ∧ d.precisionValue = none

/-- The directives on which `lib/stdio.c` prints what the standard prescribes. -/
structure Directive.Agrees (d : Directive) : Prop where
  grouping : d.GroupsByThree
  /-- A negative `*` width sets `-` without cancelling `0`. -/
  zeroFill : d.flag '0' = true → d.negativeWidth = true →
    d.flag '-' = true ∨ d.precisionValue.isSome = true
  /-- `%p` replaces the flags by `#`, `-` included. -/
  pointer : d.conversion = 'p' → d.leftAligned = false

theorem Directive.parsed_precision_le {d : Directive} (wellFormed : d.WellFormed) :
    d.parsed.precision ≤ integerBufSize - 1 := by
  rcases d.precisionInt_cases with ⟨-, minusOne⟩ | ⟨precision, given, same⟩
  · simp [Directive.parsed, minusOne, integerBufSize]
  · have small := wellFormed.precision precision given
    simp only [Directive.parsed, same, integerBufSize]
    omega

theorem Directive.parsed_minDigits (d : Directive) :
    (if d.parsed.precision < 0 then 1 else d.parsed.precision).toNat = d.minDigits := by
  rcases d.precisionInt_cases with ⟨absent, minusOne⟩ | ⟨precision, given, same⟩
  · simp [Directive.parsed, Directive.minDigits, absent, minusOne]
  · have notBelow : ¬(precision : Int) < 0 := by omega
    simp [Directive.parsed, Directive.minDigits, given, same, notBelow]

theorem formatInteger_parsed {d : Directive} (wellFormed : d.WellFormed)
    (grouping : d.GroupsByThree) (notPointer : d.conversion ≠ 'p') {b : IntegerBase} {upper : Bool}
    (agree : ∀ digit < b.base, b.digit digit = hexDigit upper digit)
    (byThree : d.flag '\x27' = true → b.group = 3) (value : Nat) (isSigned negative : Bool) :
    formatInteger value isSigned negative b d.parsed =
      layout d.fieldWidth d.leftAligned d.parsed.flags.zero
        (integerLead value isSigned negative b d.parsed.flags)
        (let text := digitText b.base upper d.grouping d.minDigits value
         if d.flag '#' && b.base == 8 && text.head? != some '0' then '0' :: text else text) := by
  have group : d.parsed.flags.group = d.grouping := by
    simp [Directive.parsed, Directive.grouping, notPointer]
  have digits : d.grouping = true → b.group = 3 ∧ d.minDigits = 1 := by
    intro grouped
    simp only [Directive.grouping, Bool.and_eq_true, bne_iff_ne, ne_eq] at grouped
    have unspecified := (grouping grouped.1 grouped.2).2
    exact ⟨byThree grouped.1, by simp [Directive.minDigits, unspecified]⟩
  rw [formatInteger_layout, integerBuf_reverse value b d.parsed (Directive.parsed_precision_le wellFormed)]
  dsimp only
  rw [Directive.parsed_minDigits, group, grouped_text agree digits]
  have width : d.parsed.width.toNat = d.fieldWidth := by simp [Directive.parsed]
  have minus : d.parsed.flags.minus = d.leftAligned := rfl
  have pound : d.parsed.flags.pound = d.flag '#' := rfl
  rw [width, minus, pound]

theorem layout_parsed {d : Directive} (agrees : d.Agrees) (notPointer : d.conversion ≠ 'p')
    (lead body : List Char) :
    layout d.fieldWidth d.leftAligned d.parsed.flags.zero lead body =
      pad d.fieldWidth d.leftAligned d.zeroFill lead body := by
  have notBoth : ¬(d.leftAligned = true ∧ d.parsed.flags.zero = true) := by
    rintro ⟨minus, zero⟩
    simp only [Directive.parsed, Directive.leftAligned, Bool.or_eq_true, Bool.and_eq_true,
      Bool.not_eq_true', Option.isNone_iff_eq_none] at minus zero
    rcases agrees.zeroFill zero.1.1 (minus.resolve_left (by simp [zero.1.2])) with minus' | precise
    · simp [zero.1.2] at minus'
    · simp [zero.2] at precise
  -- `0` counts where `-` is not set, and then as the standard says
  have zeroFill : d.leftAligned = false → d.parsed.flags.zero = d.zeroFill := by
    intro notLeft
    simp only [Directive.leftAligned, Bool.or_eq_false_iff] at notLeft
    simp [Directive.parsed, Directive.zeroFill, Directive.leftAligned, notLeft, notPointer]
  rw [layout_eq_pad _ notBoth, pad_zeroFill_congr _ zeroFill]

theorem prefixOf_ite (condition : Prop) [Decidable condition] (x : Char) :
    prefixOf (if condition then some x else none) = if condition then ['0', x] else [] := by
  by_cases holds : condition <;> simp [holds, prefixOf]

theorem integerLead_signed (d : Directive) (value : Nat) (negative : Prop) [Decidable negative] :
    integerLead value true (decide negative) baseD d.parsed.flags =
      if negative then ['-'] else if d.flag '+' then ['+'] else if d.flag ' ' then [' '] else [] := by
  by_cases plus : d.flag '+' = true <;> by_cases space : d.flag ' ' = true <;>
    by_cases below : negative <;> simp [integerLead, signOf, Directive.parsed, baseD, prefixOf, plus, space, below]

theorem integerLead_unsigned (value : Nat) (b : IntegerBase) (flags : Flags) :
    integerLead value false false b flags = prefixOf (if flags.pound && value != 0 then b.x else none) := by
  simp [integerLead, signOf]

theorem convert_integer {d : Directive} (wellFormed : d.WellFormed) (grouping : d.GroupsByThree)
    (notPointer : d.conversion ≠ 'p') (arg : Int) (args : List Arg) :
    convert d.parsed d.conversion (.int arg :: args) =
      some (layout d.fieldWidth d.leftAligned d.parsed.flags.zero (d.lead arg) (d.body arg), args) := by
  have conversion := wellFormed.conversion
  simp only [List.mem_cons, List.not_mem_nil, or_false] at conversion
  -- hexadecimal digits are grouped by four, which `Agrees` rules out
  have notHex : d.flag '\x27' = true → d.conversion ≠ 'x' ∧ d.conversion ≠ 'X' := by
    intro grouped
    have decimalOrOctal := (grouping grouped notPointer).1
    simp only [List.mem_cons, List.not_mem_nil, or_false] at decimalOrOctal
    constructor <;> rintro same <;> simp [same] at decimalOrOctal
  have parsedPound : d.parsed.flags.pound = d.flag '#' := rfl
  rcases conversion with same | same | same | same | same | same | same
  · rw [same, convert_signed (.inl rfl),
      formatInteger_parsed wellFormed grouping notPointer baseD_digit (fun _ => rfl), integerLead_signed,
      Directive.parsed_type]
    simp [Directive.lead, Directive.body, same, baseD]
  · rw [same, convert_signed (.inr rfl),
      formatInteger_parsed wellFormed grouping notPointer baseD_digit (fun _ => rfl), integerLead_signed,
      Directive.parsed_type]
    simp [Directive.lead, Directive.body, same, baseD]
  · rw [same, convert_unsigned (.inl rfl), unsignedBase,
      formatInteger_parsed wellFormed grouping notPointer baseO_digit (fun _ => rfl), integerLead_unsigned]
    simp [Directive.lead, Directive.body, same, baseO, prefixOf, Directive.parsed_type]
  · rw [same, convert_unsigned (.inr (.inl rfl)), unsignedBase,
      formatInteger_parsed wellFormed grouping notPointer baseD_digit (fun _ => rfl), integerLead_unsigned]
    simp [Directive.lead, Directive.body, same, baseD, prefixOf, Directive.parsed_type]
  · rw [same, convert_unsigned (.inr (.inr (.inl rfl))), unsignedBase,
      formatInteger_parsed wellFormed grouping notPointer baseX_digit
        (fun grouped => absurd same (notHex grouped).1), integerLead_unsigned]
    simp [Directive.lead, Directive.body, same, baseX, Directive.parsed_type,
      parsedPound, prefixOf_ite]
  · rw [same, convert_unsigned (.inr (.inr (.inr rfl))), unsignedBase,
      formatInteger_parsed wellFormed grouping notPointer baseXCapital_digit
        (fun grouped => absurd same (notHex grouped).2), integerLead_unsigned]
    simp [Directive.lead, Directive.body, same, baseXCapital, Directive.parsed_type,
      parsedPound, prefixOf_ite]
    -- what remains are the earlier cases of the match on the conversion character
    all_goals decide
  · exact absurd same notPointer


/-- A `p` directive prints the standard's digits and prefix, but right justified whatever the
directive says: the flags, `-` among them, are replaced by `#`. -/
theorem convert_pointer_directive {d : Directive} (wellFormed : d.WellFormed)
    (pointer : d.conversion = 'p') (arg : Int) (args : List Arg) :
    convert d.parsed d.conversion (.int arg :: args) =
      some (pad d.fieldWidth false false (d.lead arg) (d.body arg), args) := by
  have fits : ({ d.parsed with flags := { pound := true } } : PrintfConversion).precision ≤
      integerBufSize - 1 := Directive.parsed_precision_le wellFormed
  rw [pointer, convert_pointer, formatInteger_layout]
  dsimp only
  rw [integerBuf_reverse _ _ _ fits, layout_eq_pad _ (by simp), integerLead_unsigned]
  dsimp only
  rw [Directive.parsed_minDigits, grouped_text baseX_digit (by simp)]
  simp only [Directive.lead, Directive.body, pointer]
  by_cases zero : toUnsigned 32 arg = 0 <;> simp [zero, prefixOf, baseX, Directive.parsed]

theorem renderTail_head {d : Directive} (wellFormed : d.WellFormed) (rest : List Char) :
    (d.renderTail ++ rest).head? ≠ some '%' := by
  intro head
  rw [Directive.renderTail_append] at head
  cases flags : d.flags with
  | nil =>
    simp only [flags, List.nil_append] at head
    exact (stops_flags wellFormed rest '%' head).2 rfl
  | cons f more =>
    simp only [flags, List.cons_append, List.head?_cons, Option.some.injEq] at head
    have isFlag := wellFormed.flags f (by simp [flags])
    rw [head] at isFlag
    exact absurd isFlag (by decide)

/-- Where the conversion of a directive prints `text`, `__vprintf` prints `text` and goes on with
the rest of the format and the arguments after the value. -/
theorem vprintf_render {d : Directive} (wellFormed : d.WellFormed) {arg : Int} {args : List Arg}
    {text : List Char} (converted : convert d.parsed d.conversion (.int arg :: args) = some (text, args))
    (rest : List Char) :
    vprintf (d.render ++ rest) (d.starArgs ++ .int arg :: args) = (text ++ ·) <$> vprintf rest args := by
  rw [Directive.render, List.cons_append,
    vprintf_conversion (renderTail_head wellFormed rest) (parseConversion_render wellFormed rest _),
    converted]
  rfl

/-- On a directive where Pintos agrees with the standard, `__vprintf` prints the standard's
field and goes on with the rest of the format and the arguments after the value. -/
theorem vprintf_directive {d : Directive} (wellFormed : d.WellFormed) (agrees : d.Agrees)
    (arg : Int) (args : List Arg) (rest : List Char) :
    vprintf (d.render ++ rest) (d.starArgs ++ .int arg :: args) =
      (d.field arg ++ ·) <$> vprintf rest args := by
  by_cases pointer : d.conversion = 'p'
  · have field : pad d.fieldWidth false false (d.lead arg) (d.body arg) = d.field arg := by
      simp [Directive.field, Directive.zeroFill, agrees.pointer pointer, pointer]
    rw [← field]
    exact vprintf_render wellFormed (convert_pointer_directive wellFormed pointer arg args) rest
  · rw [Directive.field, ← layout_parsed agrees pointer]
    exact vprintf_render wellFormed (convert_integer wellFormed agrees.grouping pointer arg args) rest

/-- `0` with a negative `*` width: `parse_conversion` cancels `0` by `-` before the width sets
`-`, so the field is filled twice, with zeros after the sign and prefix and with spaces after
the digits, where the standard pads with spaces behind the digits only. -/
theorem vprintf_zero_negative_width {d : Directive} (wellFormed : d.WellFormed)
    (grouping : d.GroupsByThree) (notPointer : d.conversion ≠ 'p') (zero : d.flag '0' = true)
    (notMinus : d.flag '-' = false) (negative : d.negativeWidth = true)
    (noPrecision : d.precisionValue = none) (arg : Int) (args : List Arg) (rest : List Char) :
    let count := d.fieldWidth - ((d.lead arg).length + (d.body arg).length)
    d.field arg = d.lead arg ++ d.body arg ++ List.replicate count ' ' ∧
      vprintf (d.render ++ rest) (d.starArgs ++ .int arg :: args) =
        (d.lead arg ++ List.replicate count '0' ++ d.body arg ++ List.replicate count ' ' ++ ·) <$>
          vprintf rest args := by
  intro count
  have left : d.leftAligned = true := by simp [Directive.leftAligned, negative]
  have both : d.parsed.flags.zero = true := by
    simp [Directive.parsed, zero, notMinus, noPrecision]
  constructor
  · simp [Directive.field, pad, left, count]
  · rw [vprintf_render wellFormed (convert_integer wellFormed grouping notPointer arg args) rest,
      left, both, layout_both]

/-- `%0*d` with the width -5 and the value 1. -/
def zeroStarWidth : Directive := ⟨['0'], some (.star (-5)), none, .int, 'd'⟩

theorem vprintf_zero_negative_width_sample :
    zeroStarWidth.render = "%0*d".toList ∧ zeroStarWidth.starArgs = [.int (-5)] ∧
      zeroStarWidth.field 1 = "1    ".toList ∧
      vprintf "%0*d".toList [.int (-5), .int 1] = some "00001    ".toList := by
  have wellFormed : zeroStarWidth.WellFormed := by
    constructor <;> simp [zeroStarWidth, flagChars, Directive.precisionValue]
  have grouping : zeroStarWidth.GroupsByThree := by
    simp [Directive.GroupsByThree, Directive.flag, zeroStarWidth]
  obtain ⟨standard, code⟩ := vprintf_zero_negative_width wellFormed grouping (by decide) (by decide)
    (by decide) (by decide) (by decide) 1 [] []
  have lead : zeroStarWidth.lead 1 = [] := by decide
  have value : toSigned ConversionType.int.bits 1 = 1 := by decide
  have one : hexDigit false 1 = '1' := by decide
  have body : zeroStarWidth.body 1 = ['1'] := by
    simp [Directive.body, zeroStarWidth, digitText, Directive.minDigits, Directive.precisionValue,
      Directive.grouping, Directive.flag, value, one]
  refine ⟨rfl, rfl, ?_, ?_⟩
  · rw [standard, lead, body]
    simp [Directive.fieldWidth, zeroStarWidth, Amount.value, toSigned]
  · have width : zeroStarWidth.fieldWidth = 5 := by decide
    rw [lead, body, width, List.append_nil, vprintf_nil] at code
    exact code

end Pintos.Printf

import Mathlib
import Pintos.Memory
import Pintos.Numeral

/-!
# ustar archive headers

`lib/ustar.c`.  `ustar_make_header` composes the 512-byte header of a file in
a buffer, and `ustar_parse_header` reads one back.  The buffer is memory; the
fields lie at the offsets of `struct ustar_header`.  A C string is the list of
its bytes before the null byte.
-/

namespace Pintos.Ustar

open Memory

/-- `enum ustar_type`. -/
inductive UstarType where
  | regular
  | directory
  | eof
  deriving DecidableEq, Repr

/-- The `char` each type is stored as. -/
def UstarType.toByte : UstarType → UInt8
  | .regular => '0'.toUInt8
  | .directory => '5'.toUInt8
  | .eof => 255

/-- The fields of `struct ustar_header` that the code writes or reads. -/
inductive Field where
  | name
  | mode
  | uid
  | gid
  | size
  | mtime
  | chksum
  | typeflag
  | magic
  | version
  | uname
  | gname
  | namePrefix
  deriving DecidableEq, Repr

@[simp]
def Field.offsetof : Field → Nat
  | .name => 0
  | .mode => 100
  | .uid => 108
  | .gid => 116
  | .size => 124
  | .mtime => 136
  | .chksum => 148
  | .typeflag => 156
  | .magic => 257
  | .version => 263
  | .uname => 265
  | .gname => 297
  | .namePrefix => 345

@[simp]
def Field.sizeof : Field → Nat
  | .name => 100
  | .mode => 8
  | .uid => 8
  | .gid => 8
  | .size => 12
  | .mtime => 12
  | .chksum => 8
  | .typeflag => 1
  | .magic => 6
  | .version => 2
  | .uname => 32
  | .gname => 32
  | .namePrefix => 155

def ustarHeaderSize : Nat := 512

@[simp]
def ascii (text : List Char) : List UInt8 := text.map Char.toUInt8

/-! ## Strings and numbers in fields -/

/-- What `strlcpy (dst, text, size)` and `vsnprintf` leave in a buffer of
`size` bytes: the first `size - 1` bytes of `text` and a null byte. -/
def storeTruncated (memory : Nat → UInt8) (dst : Nat) (text : List UInt8) (size : Nat) :
    Nat → UInt8 :=
  if size > 0 then write memory dst (text.take (size - 1) ++ [0]) else memory

/-- `strlcpy (dst, src, size)`. -/
def strlcpy (memory : Nat → UInt8) (dst : Nat) (src : List UInt8) (size : Nat) : Nat → UInt8 :=
  storeTruncated memory dst src size

/-- The character `format_integer` prints for a digit below ten. -/
def digitChar (digit : Nat) : UInt8 := ('0'.toNat + digit).toUInt8

/-- What `format_integer` outputs for an unsigned `value` in base 8 with the
flag `0` and the field width `width`: the digits (one `0` for zero), with `'0'`
in front up to the width. -/
def formatOctal (width value : Nat) : List UInt8 :=
  let digits := if value = 0 then [0] else Nat.digits 8 value
  (List.replicate (width - digits.length) 0 ++ digits.reverse).map digitChar

/-- `snprintf (buffer, size, "%0<width>o", value)`. -/
def snprintfOctal (memory : Nat → UInt8) (buffer size width value : Nat) : Nat → UInt8 :=
  storeTruncated memory buffer (formatOctal width value) size

def ulongMax : Nat := 4294967295

/-- The loop of `parse_octal_field` at offset `ofs` of the field, with
`*value` equal to `value` and `field` the bytes from `ofs` on. -/
def parseOctalLoop (value ofs : Nat) : List UInt8 → Option Nat
  | [] => none
  | c :: field =>
      if '0'.toNat ≤ c.toNat ∧ c.toNat ≤ '7'.toNat then
        if value > ulongMax / 8 then none
        else parseOctalLoop (c.toNat - '0'.toNat + value * 8) (ofs + 1) field
      else if c = ' '.toUInt8 ∨ c = 0 then
        if ofs > 0 then some value else none
      else none

/-- `parse_octal_field (s, size, &value)` over the `size` bytes of the field. -/
def parseOctalField (s : List UInt8) : Option Nat := parseOctalLoop 0 0 s

/-! ## Names -/

/-- The loop of `strip_antisocial_prefixes`: while the name starts with `/`,
`./` or `../`, move past the first `/`, which is the one that ends that
prefix. -/
def stripLoop : List UInt8 → List UInt8
  | 47 :: rest => stripLoop rest
  | 46 :: 47 :: rest => stripLoop rest
  | 46 :: 46 :: 47 :: rest => stripLoop rest
  | name => name

/-- `strip_antisocial_prefixes (file_name)`. -/
def stripAntisocialPrefixes (fileName : List UInt8) : List UInt8 :=
  let fileName := stripLoop fileName
  if fileName = [] ∨ fileName = ascii ['.', '.'] then ascii ['.'] else fileName

/-! ## Composing a header -/

/-- `calculate_chksum (h)`: the sum of the header's bytes, with the checksum
field counted as spaces. -/
def calculateChksum (header : Nat → UInt8) : Nat :=
  ((List.range ustarHeaderSize).map fun i =>
    if Field.chksum.offsetof ≤ i ∧ i < Field.chksum.offsetof + Field.chksum.sizeof then ' '.toNat
    else (header i).toNat).sum

/-- The part of `ustar_make_header` that fills in the header except for the
final checksum. -/
def fillFields (fileName : List UInt8) (type : UstarType) (size : Int) (header : Nat → UInt8) :
    Nat → UInt8 :=
  let h := fill header 0 ustarHeaderSize 0
  let h := strlcpy h Field.name.offsetof fileName Field.name.sizeof
  let h := snprintfOctal h Field.mode.offsetof Field.mode.sizeof 7
    (if type = .regular then 0o644 else 0o755)
  let h := strlcpy h Field.uid.offsetof (ascii ['0', '0', '0', '0', '0', '0', '0']) Field.uid.sizeof
  let h := strlcpy h Field.gid.offsetof (ascii ['0', '0', '0', '0', '0', '0', '0']) Field.gid.sizeof
  let h := snprintfOctal h Field.size.offsetof Field.size.sizeof 11 (size % 2 ^ 32).toNat
  -- the source passes the size of the size field for the mtime field; both are 12
  let h := snprintfOctal h Field.mtime.offsetof Field.size.sizeof 11 1136102400
  let h := write h Field.typeflag.offsetof [type.toByte]
  let h := strlcpy h Field.magic.offsetof (ascii ['u', 's', 't', 'a', 'r']) Field.magic.sizeof
  let h := write h Field.version.offsetof (ascii ['0', '0'])
  let h := strlcpy h Field.gname.offsetof (ascii ['r', 'o', 'o', 't']) Field.gname.sizeof
  strlcpy h Field.uname.offsetof (ascii ['r', 'o', 'o', 't']) Field.uname.sizeof

/-- `ustar_make_header (file_name, type, size, header)`: whether it composed a
header, and the buffer. -/
def ustarMakeHeader (fileName : List UInt8) (type : UstarType) (size : Int)
    (header : Nat → UInt8) : Except String (Bool × (Nat → UInt8)) := do
  if ¬ (type = .regular ∨ type = .directory) then
    throw "assertion type == USTAR_REGULAR || type == USTAR_DIRECTORY failed"
  let fileName := stripAntisocialPrefixes fileName
  if fileName.length > 99 then
    return (false, header)
  let h := fillFields fileName type size header
  return (true, snprintfOctal h Field.chksum.offsetof Field.chksum.sizeof 7 (calculateChksum h))

/-! ## Parsing a header -/

/-- What `ustar_parse_header` stores on success. -/
structure Parsed where
  fileName : Option (List UInt8)
  type : UstarType
  size : Nat
  deriving DecidableEq, Repr

def UstarType.ofByte (byte : UInt8) : Option UstarType :=
  if byte = UstarType.regular.toByte then some .regular
  else if byte = UstarType.directory.toByte then some .directory
  else none

/-- The C string at `address`, which ends within `count` bytes. -/
def cString (memory : Nat → UInt8) (address count : Nat) : List UInt8 :=
  (Memory.read memory address count).takeWhile (· ≠ 0)

/-- `is_all_zeros (block, cnt)` over the bytes of the block. -/
def isAllZeros (block : List UInt8) : Bool := block.all (· == 0)

/-- `ustar_parse_header (header, ...)`: the outputs, or the message it returns. -/
def ustarParseHeader (header : Nat → UInt8) : Except String Parsed := do
  if isAllZeros (Memory.read header 0 ustarHeaderSize) then
    return { fileName := none, type := .eof, size := 0 }
  if Memory.read header Field.magic.offsetof 6 ≠ ascii ['u', 's', 't', 'a', 'r'] ++ [0] then
    throw "not a ustar archive"
  if header Field.version.offsetof ≠ '0'.toUInt8 ∨ header (Field.version.offsetof + 1) ≠ '0'.toUInt8 then
    throw "invalid ustar version"
  let some chksum := parseOctalField (Memory.read header Field.chksum.offsetof Field.chksum.sizeof)
    | throw "corrupt chksum field"
  if chksum ≠ calculateChksum header then
    throw "checksum mismatch"
  if header (Field.name.offsetof + Field.name.sizeof - 1) ≠ 0 ∨ header Field.namePrefix.offsetof ≠ 0 then
    throw "file name too long"
  let some type := UstarType.ofByte (header Field.typeflag.offsetof)
    | throw "unimplemented file type"
  let size ← if type = .regular then do
      let some size := parseOctalField (Memory.read header Field.size.offsetof Field.size.sizeof)
        | throw "corrupt file size field"
      if size > 2147483647 then
        throw "file too large"
      pure size
    else pure 0
  return { fileName := some (stripAntisocialPrefixes (cString header Field.name.offsetof Field.name.sizeof)),
           type, size }

/-! ## Names, numbers and fields -/

theorem stripLoop_idem (name : List UInt8) : stripLoop (stripLoop name) = stripLoop name := by
  fun_induction stripLoop name with
  | case1 rest ih => exact ih
  | case2 rest ih => exact ih
  | case3 rest ih => exact ih
  | case4 name notSlash notDot notDotDot => exact stripLoop.eq_4 name notSlash notDot notDotDot

theorem stripLoop_suffix (name : List UInt8) : stripLoop name <:+ name := by
  fun_induction stripLoop name with
  | case1 rest ih => exact ih.trans (List.suffix_cons _ _)
  | case2 rest ih => exact ih.trans ((List.suffix_cons _ _).trans (List.suffix_cons _ _))
  | case3 rest ih =>
      exact ih.trans ((List.suffix_cons _ _).trans ((List.suffix_cons _ _).trans (List.suffix_cons _ _)))
  | case4 name => exact List.suffix_refl name

/-- Stripping a stripped name changes nothing, so the name a header holds
parses back to itself. -/
theorem stripAntisocialPrefixes_idem (fileName : List UInt8) :
    stripAntisocialPrefixes (stripAntisocialPrefixes fileName) = stripAntisocialPrefixes fileName := by
  unfold stripAntisocialPrefixes
  dsimp only
  split
  · decide
  · rename_i kept
    rw [stripLoop_idem, if_neg kept]

theorem zero_not_mem_stripAntisocialPrefixes {fileName : List UInt8} (cString : 0 ∉ fileName) :
    0 ∉ stripAntisocialPrefixes fileName := by
  unfold stripAntisocialPrefixes
  dsimp only
  split
  · decide
  · exact fun member => cString ((stripLoop_suffix fileName).subset member)

theorem length_stripAntisocialPrefixes_le {fileName : List UInt8} {bound : Nat} (positive : 0 < bound)
    (short : fileName.length ≤ bound) : (stripAntisocialPrefixes fileName).length ≤ bound := by
  unfold stripAntisocialPrefixes
  dsimp only
  split
  · exact positive
  · exact (stripLoop_suffix fileName).length_le.trans short

theorem formatOctal_eq {width : Nat} (positive : 0 < width) (value : Nat) :
    formatOctal width value = (Numeral.padded 8 width value).map digitChar := by
  unfold formatOctal Numeral.padded
  by_cases zero : value = 0
  · subst zero
    simp only [if_true, Nat.digits_zero, List.length_cons, List.length_nil, List.reverse_cons,
      List.reverse_nil, List.nil_append, List.append_nil, Nat.sub_zero]
    rw [← List.replicate_succ', Nat.sub_add_cancel positive]
  · simp only [if_neg zero]

theorem length_formatOctal {width value : Nat} (positive : 0 < width) (fits : value < 8 ^ width) :
    (formatOctal width value).length = width := by
  rw [formatOctal_eq positive, List.length_map, Numeral.length_padded (by decide) fits]

theorem toNat_digitChar {digit : Nat} (octal : digit < 8) : (digitChar digit).toNat = '0'.toNat + digit := by
  have zeroCode : '0'.toNat = 48 := rfl
  simp only [digitChar, Nat.toUInt8_eq, UInt8.toNat_ofNat', zeroCode]
  omega

/-- `parse_octal_field` reads digits up to a space or a null byte. -/
theorem parseOctalLoop_digits {digits : List Nat} (octal : ∀ digit ∈ digits, digit < 8)
    {value ofs : Nat} {terminator : UInt8} (ends : terminator = ' '.toUInt8 ∨ terminator = 0)
    (nonempty : 0 < ofs + digits.length) (fits : Numeral.readFrom 8 value digits ≤ ulongMax)
    (rest : List UInt8) :
    parseOctalLoop value ofs (digits.map digitChar ++ terminator :: rest) =
      some (Numeral.readFrom 8 value digits) := by
  induction digits generalizing value ofs with
  | nil =>
      have notDigit : ¬ ('0'.toNat ≤ terminator.toNat ∧ terminator.toNat ≤ '7'.toNat) := by
        rcases ends with rfl | rfl <;> decide
      have started : ofs > 0 := by simpa using nonempty
      simp only [List.map_nil, List.nil_append, parseOctalLoop, if_neg notDigit, if_pos ends,
        if_pos started]
      rfl
  | cons digit digits ih =>
      have small : digit < 8 := octal digit (List.mem_cons_self ..)
      have code := toNat_digitChar small
      have isDigit : '0'.toNat ≤ (digitChar digit).toNat ∧ (digitChar digit).toNat ≤ '7'.toNat := by
        rw [code]
        exact ⟨Nat.le_add_right _ _, by change 48 + digit ≤ 55; omega⟩
      -- the value read so far is at most an eighth of the final one
      have noOverflow : ¬ value > ulongMax / 8 := by
        have grows : (value * 8 + digit) * 8 ^ digits.length ≤ Numeral.readFrom 8 (value * 8 + digit) digits :=
          Numeral.le_readFrom _ _
        have positive : 0 < 8 ^ digits.length := Nat.pow_pos (by decide)
        have : value * 8 ≤ (value * 8 + digit) * 8 ^ digits.length :=
          (Nat.le_add_right _ _).trans (Nat.le_mul_of_pos_right _ positive)
        change Numeral.readFrom 8 (value * 8 + digit) digits ≤ ulongMax at fits
        unfold ulongMax at fits ⊢
        omega
      simp only [List.map_cons, List.cons_append, parseOctalLoop, if_pos isDigit, if_neg noOverflow]
      rw [code, Nat.add_sub_cancel_left, Nat.add_comm]
      exact ih (fun d member => octal d (List.mem_cons_of_mem _ member)) (by omega) fits

/-- A field written by `snprintf (field, size, "%0<width>o", value)` with room
for the digits parses back to `value`. -/
theorem parseOctalField_formatOctal {width value : Nat} (positive : 0 < width)
    (fits : value < 8 ^ width) (small : value ≤ ulongMax) (rest : List UInt8) :
    parseOctalField (formatOctal width value ++ 0 :: rest) = some value := by
  unfold parseOctalField
  rw [formatOctal_eq positive]
  have read : parseOctalLoop 0 0 ((Numeral.padded 8 width value).map digitChar ++ 0 :: rest) =
      some (Numeral.readFrom 8 0 (Numeral.padded 8 width value)) :=
    parseOctalLoop_digits (fun _ member => Numeral.lt_of_mem_padded (by decide) member)
      (Or.inr rfl) (by rw [Numeral.length_padded (by decide) fits]; omega)
      (by rw [Numeral.readFrom_padded]; exact small) rest
  rw [read, Numeral.readFrom_padded]

/-! ## The grammar of octal fields -/

/-- The value of the octal digits `digits` read into `value`. -/
def octalValue (value : Nat) (digits : List UInt8) : Nat :=
  Numeral.readFrom 8 value (digits.map fun c => c.toNat - '0'.toNat)

theorem octalValue_cons (value : Nat) (c : UInt8) (digits : List UInt8) :
    octalValue value (c :: digits) = octalValue (c.toNat - '0'.toNat + value * 8) digits := by
  simp only [octalValue, List.map_cons, Numeral.readFrom, List.foldl_cons, Nat.add_comm]

theorem le_octalValue (value : Nat) (digits : List UInt8) : value ≤ octalValue value digits := by
  have grows := @Numeral.le_readFrom 8 value (digits.map fun c => c.toNat - '0'.toNat)
  have positive : 0 < 8 ^ (digits.map fun c => c.toNat - '0'.toNat).length := Nat.pow_pos (by decide)
  exact (Nat.le_mul_of_pos_right value positive).trans grows

theorem not_octal_of_terminator {c : UInt8} (ends : c = ' '.toUInt8 ∨ c = 0) :
    ¬ ('0'.toNat ≤ c.toNat ∧ c.toNat ≤ '7'.toNat) := by
  rcases ends with rfl | rfl <;> decide

/-- The loop of `parse_octal_field` from `value`, not yet above `ULONG_MAX`, accepts exactly
the fields that go on with octal digits up to a space or a null byte, after at least one digit
in all, and whose value stays at most `ULONG_MAX`. -/
theorem parseOctalLoop_eq_some {value : Nat} (fits : value ≤ ulongMax) (ofs : Nat)
    (field : List UInt8) (v : Nat) :
    parseOctalLoop value ofs field = some v ↔
      ∃ k, 0 < ofs + k ∧ (∀ c ∈ field.take k, '0'.toNat ≤ c.toNat ∧ c.toNat ≤ '7'.toNat) ∧
        (field[k]? = some ' '.toUInt8 ∨ field[k]? = some 0) ∧
        octalValue value (field.take k) ≤ ulongMax ∧ v = octalValue value (field.take k) := by
  induction field generalizing value ofs with
  | nil => simp [parseOctalLoop]
  | cons c field ih =>
    by_cases digit : '0'.toNat ≤ c.toNat ∧ c.toNat ≤ '7'.toNat
    · -- a digit: the field is accepted with `k + 1` digits when the rest is with `k`
      have notEnd : ¬ (c = ' '.toUInt8 ∨ c = 0) := fun ends => not_octal_of_terminator ends digit
      have noFirst : ∀ {k : Nat}, ((c :: field)[k]? = some ' '.toUInt8 ∨ (c :: field)[k]? = some 0) →
          ∃ j, k = j + 1 := by
        intro k ends
        cases k with
        | zero => simp at ends; exact absurd ends notEnd
        | succ j => exact ⟨j, rfl⟩
      by_cases big : value > ulongMax / 8
      · simp only [parseOctalLoop, if_pos digit, if_pos big, reduceCtorEq, false_iff, not_exists,
          not_and]
        intro k _ _ ends tooBig
        obtain ⟨j, rfl⟩ := noFirst ends
        rw [List.take_succ_cons, octalValue_cons] at tooBig
        have := le_octalValue (c.toNat - '0'.toNat + value * 8) (field.take j)
        unfold ulongMax at big tooBig
        omega
      · have fits' : c.toNat - '0'.toNat + value * 8 ≤ ulongMax := by
          have small : c.toNat ≤ 55 := digit.2
          have zeroCode : '0'.toNat = 48 := rfl
          unfold ulongMax at big ⊢
          omega
        rw [parseOctalLoop, if_pos digit, if_neg big, ih fits']
        constructor
        · rintro ⟨k, _, octal, ends, below, rfl⟩
          refine ⟨k + 1, by omega, ?_, by simpa using ends, ?_, ?_⟩
          · simpa [List.take_succ_cons] using And.intro digit octal
          · rwa [List.take_succ_cons, octalValue_cons]
          · rw [List.take_succ_cons, octalValue_cons]
        · rintro ⟨k, _, octal, ends, below, rfl⟩
          obtain ⟨j, rfl⟩ := noFirst ends
          rw [List.take_succ_cons, octalValue_cons] at below ⊢
          refine ⟨j, by omega, fun d member => octal d ?_, by simpa using ends, below, rfl⟩
          rw [List.take_succ_cons]
          exact List.mem_cons_of_mem c member
    · -- not a digit: only an end of field right here is accepted
      have onlyFirst : ∀ {k : Nat}, (∀ d ∈ (c :: field).take k, '0'.toNat ≤ d.toNat ∧ d.toNat ≤ '7'.toNat) →
          k = 0 := by
        intro k octal
        cases k with
        | zero => rfl
        | succ j => exact absurd (octal c (by simp)) digit
      by_cases ends : c = ' '.toUInt8 ∨ c = 0
      · simp only [parseOctalLoop, if_neg digit, if_pos ends]
        constructor
        · intro accepted
          split at accepted
          · cases accepted
            refine ⟨0, by omega, by simp, by simpa using ends, ?_, rfl⟩
            simpa [octalValue, Numeral.readFrom] using fits
          · cases accepted
        · rintro ⟨k, started, octal, -, -, rfl⟩
          obtain rfl := onlyFirst octal
          simp only [Nat.add_zero] at started
          simp only [started, if_true, List.take_zero]
          rfl
      · simp only [parseOctalLoop, if_neg digit, if_neg ends, reduceCtorEq, false_iff, not_exists,
          not_and]
        intro k _ octal terminated
        obtain rfl := onlyFirst octal
        simp only [List.getElem?_cons_zero, Option.some.injEq] at terminated
        exact fun _ _ => ends terminated

/-- `parse_octal_field (s, size, &value)` returns true exactly when, for some `k` with
`0 < k < size`, the first `k` bytes are octal digits, byte `k` is a space or a null byte, and
their value is at most `ULONG_MAX`; `value` is then that value. -/
theorem parseOctalField_iff (field : List UInt8) (v : Nat) :
    parseOctalField field = some v ↔
      ∃ k, 0 < k ∧ k < field.length ∧
        (∀ c ∈ field.take k, '0'.toNat ≤ c.toNat ∧ c.toNat ≤ '7'.toNat) ∧
        (field[k]? = some ' '.toUInt8 ∨ field[k]? = some 0) ∧
        octalValue 0 (field.take k) ≤ ulongMax ∧ v = octalValue 0 (field.take k) := by
  rw [parseOctalField, parseOctalLoop_eq_some (Nat.zero_le _)]
  constructor
  · rintro ⟨k, started, octal, ends, below, rfl⟩
    have inField : k < field.length := by
      rcases ends with ends | ends <;> exact (List.getElem?_eq_some_iff.mp ends).1
    exact ⟨k, by omega, inField, octal, ends, below, rfl⟩
  · rintro ⟨k, started, -, octal, ends, below, rfl⟩
    exact ⟨k, by omega, octal, ends, below, rfl⟩

theorem length_storeTruncated_bytes (text : List UInt8) {size : Nat} (positive : size > 0) :
    (text.take (size - 1) ++ [0]).length ≤ size := by
  simp only [List.length_append, List.length_take, List.length_singleton]
  omega

theorem storeTruncated_outside (memory : Nat → UInt8) {dst size location : Nat} (text : List UInt8)
    (outside : location < dst ∨ dst + size ≤ location) :
    storeTruncated memory dst text size location = memory location := by
  unfold storeTruncated
  split
  · rename_i positive
    have short := length_storeTruncated_bytes text positive
    exact write_outside memory (by omega)
  · rfl

theorem read_storeTruncated_disjoint (memory : Nat → UInt8) {dst size location count : Nat}
    (text : List UInt8) (apart : dst + size ≤ location ∨ location + count ≤ dst) :
    Memory.read (storeTruncated memory dst text size) location count = Memory.read memory location count := by
  unfold storeTruncated
  split
  · rename_i positive
    have short := length_storeTruncated_bytes text positive
    exact read_write_disjoint memory (by omega)
  · rfl

theorem read_storeTruncated_self (memory : Nat → UInt8) (dst : Nat) {text : List UInt8}
    {size count : Nat} (fits : text.length < size) (counted : text.length + 1 = count) :
    Memory.read (storeTruncated memory dst text size) dst count = text ++ [0] := by
  have positive : size > 0 := by omega
  have whole : text.take (size - 1) = text := List.take_of_length_le (by omega)
  have length : (text ++ [0]).length = count := by rw [List.length_append, ← counted]; rfl
  simp only [storeTruncated, if_pos positive, whole]
  rw [← length, read_write_self]

theorem storeTruncated_last {memory : Nat → UInt8} {dst size : Nat} (text : List UInt8)
    (positive : 0 < size) (zeroed : memory (dst + (size - 1)) = 0) :
    storeTruncated memory dst text size (dst + (size - 1)) = 0 := by
  simp only [storeTruncated, if_pos positive]
  by_cases long : size - 1 ≤ text.length
  · have taken : (text.take (size - 1)).length = size - 1 := List.length_take_of_le long
    rw [write_inside memory dst (by simp only [List.length_append, taken]; simp),
      List.getD_append_right _ _ _ _ (by omega), taken, Nat.sub_self]
    rfl
  · rw [write_outside memory (by simp only [List.length_append, List.length_take, List.length_singleton]; omega)]
    exact zeroed

/-! ## The round trip -/

section Composed

variable {fileName : List UInt8} {type : UstarType} {size : Int} {header : Nat → UInt8}

theorem read_fillFields_magic :
    Memory.read (fillFields fileName type size header) Field.magic.offsetof 6 =
      ascii ['u', 's', 't', 'a', 'r'] ++ [0] := by
  simp only [fillFields, strlcpy]
  simp (disch := simp) only [read_storeTruncated_disjoint, read_write_disjoint]
  exact read_storeTruncated_self _ _ (by decide) rfl

theorem fillFields_version :
    fillFields fileName type size header Field.version.offsetof = '0'.toUInt8 ∧
      fillFields fileName type size header (Field.version.offsetof + 1) = '0'.toUInt8 := by
  simp only [fillFields, strlcpy]
  simp (disch := simp) only [storeTruncated_outside, write_of_mem]
  decide

theorem fillFields_typeflag : fillFields fileName type size header Field.typeflag.offsetof = type.toByte := by
  simp only [fillFields, strlcpy]
  simp (disch := simp) only [storeTruncated_outside, write_outside]
  exact write_of_mem _ _ (by simp [Field.offsetof])

theorem fillFields_namePrefix : fillFields fileName type size header Field.namePrefix.offsetof = 0 := by
  simp only [fillFields, strlcpy, snprintfOctal]
  simp (disch := simp) only [storeTruncated_outside, write_outside]
  exact fill_of_mem _ _ (by decide)

theorem fillFields_nameEnd :
    fillFields fileName type size header (Field.name.offsetof + Field.name.sizeof - 1) = 0 := by
  simp only [fillFields, strlcpy, snprintfOctal]
  simp (disch := simp) only [storeTruncated_outside, write_outside]
  show storeTruncated _ 0 fileName 100 (0 + (100 - 1)) = 0
  apply storeTruncated_last
  · decide
  · exact fill_of_mem _ _ (by decide)

theorem read_fillFields_size :
    Memory.read (fillFields fileName type size header) Field.size.offsetof Field.size.sizeof =
      formatOctal 11 (size % 2 ^ 32).toNat ++ [0] := by
  have fits : (size % 2 ^ 32).toNat < 8 ^ 11 := by omega
  have digits := length_formatOctal (by decide) fits
  simp only [fillFields, strlcpy, snprintfOctal]
  simp (disch := simp) only [read_storeTruncated_disjoint,
    read_write_disjoint]
  apply read_storeTruncated_self
  · rw [digits]
    decide
  · rw [digits]
    rfl

theorem cString_fillFields (cString0 : 0 ∉ fileName) (short : fileName.length ≤ 99) :
    cString (fillFields fileName type size header) Field.name.offsetof Field.name.sizeof = fileName := by
  have kept : Memory.read (fillFields fileName type size header) 0 100 =
      Memory.read (storeTruncated (fill header 0 ustarHeaderSize 0) 0 fileName 100) 0 100 := by
    simp only [fillFields, strlcpy, snprintfOctal]
    simp (disch := simp) only [read_storeTruncated_disjoint,
      read_write_disjoint]
    rfl
  have split : (100 : Nat) = fileName.length + 1 + (99 - fileName.length) := by omega
  have nonzero : ∀ byte ∈ fileName, decide (byte ≠ 0) = true :=
    fun byte member => decide_eq_true fun zero => cString0 (zero ▸ member)
  unfold cString
  rw [show Field.name.offsetof = 0 from rfl, show Field.name.sizeof = 100 from rfl, kept, split,
    read_add, read_storeTruncated_self _ _ (by omega) rfl, List.append_assoc,
    List.takeWhile_append_of_pos nonzero]
  simp

theorem calculateChksum_lt (header : Nat → UInt8) : calculateChksum header < 8 ^ 7 := by
  have bounded : ∀ term ∈ (List.range ustarHeaderSize).map (fun i =>
      if Field.chksum.offsetof ≤ i ∧ i < Field.chksum.offsetof + Field.chksum.sizeof then ' '.toNat
      else (header i).toNat), term ≤ 255 := by
    simp only [List.mem_map]
    rintro _ ⟨i, -, rfl⟩
    split
    · decide
    · exact Nat.le_of_lt_succ (header i).toNat_lt
  have total := List.sum_le_card_nsmul _ 255 bounded
  simp only [List.length_map, List.length_range] at total
  change _ ≤ 512 * 255 at total
  unfold calculateChksum
  unfold ustarHeaderSize at total ⊢
  omega

theorem calculateChksum_storeTruncated (header : Nat → UInt8) (text : List UInt8) :
    calculateChksum (storeTruncated header Field.chksum.offsetof text Field.chksum.sizeof) =
      calculateChksum header := by
  unfold calculateChksum
  apply congrArg List.sum
  apply List.map_congr_left
  intro i _
  split
  · rfl
  · rw [storeTruncated_outside _ _ (by omega)]

/-- A header `ustar_make_header` composed for a name that fits parses back to
that name, its type, and the size of a regular file. -/
theorem ustarParseHeader_made (cString0 : 0 ∉ fileName) (short : fileName.length ≤ 99)
    (typed : type = .regular ∨ type = .directory) (nonneg : 0 ≤ size) (small : size ≤ 2147483647) :
    ustarParseHeader (snprintfOctal (fillFields fileName type size header) Field.chksum.offsetof
        Field.chksum.sizeof 7 (calculateChksum (fillFields fileName type size header))) =
      .ok { fileName := some (stripAntisocialPrefixes fileName), type,
            size := if type = .regular then size.toNat else 0 } := by
  generalize filled : fillFields fileName type size header = h
  have readMade : ∀ {location count}, (Field.chksum.offsetof + Field.chksum.sizeof ≤ location ∨
      location + count ≤ Field.chksum.offsetof) →
      Memory.read (snprintfOctal h Field.chksum.offsetof Field.chksum.sizeof 7 (calculateChksum h))
        location count = Memory.read h location count :=
    fun apart => read_storeTruncated_disjoint _ _ apart
  have atMade : ∀ {location}, (location < Field.chksum.offsetof ∨
      Field.chksum.offsetof + Field.chksum.sizeof ≤ location) →
      snprintfOctal h Field.chksum.offsetof Field.chksum.sizeof 7 (calculateChksum h) location =
        h location :=
    fun outside => storeTruncated_outside _ _ outside
  generalize madeEq : snprintfOctal h Field.chksum.offsetof Field.chksum.sizeof 7 (calculateChksum h) = made
      at readMade atMade
  have chksumFits := calculateChksum_lt h
  have magic : Memory.read made Field.magic.offsetof 6 = ascii ['u', 's', 't', 'a', 'r'] ++ [0] := by
    rw [readMade (by simp), ← filled, read_fillFields_magic]
  -- the magic bytes are not zero
  have notZeros : isAllZeros (Memory.read made 0 ustarHeaderSize) = false := by
    unfold isAllZeros
    rw [List.all_eq_false]
    refine ⟨'u'.toUInt8, ?_, by decide⟩
    rw [show ustarHeaderSize = Field.magic.offsetof + (6 + 249) from rfl, read_add, read_add,
      Nat.zero_add, magic]
    simp
  have version : made Field.version.offsetof = '0'.toUInt8 ∧
      made (Field.version.offsetof + 1) = '0'.toUInt8 := by
    rw [atMade (by simp), atMade (by simp), ← filled]
    exact fillFields_version
  have chksumField : Memory.read made Field.chksum.offsetof Field.chksum.sizeof =
      formatOctal 7 (calculateChksum h) ++ [0] := by
    rw [← madeEq]
    apply read_storeTruncated_self
    · rw [length_formatOctal (by decide) chksumFits]
      decide
    · rw [length_formatOctal (by decide) chksumFits]
      rfl
  have chksumParsed : parseOctalField (Memory.read made Field.chksum.offsetof Field.chksum.sizeof) =
      some (calculateChksum h) := by
    rw [chksumField]
    exact parseOctalField_formatOctal (by decide) chksumFits (by unfold ulongMax; omega) []
  have sameChksum : calculateChksum made = calculateChksum h := by
    rw [← madeEq]
    exact calculateChksum_storeTruncated _ _
  have nameEnd : made (Field.name.offsetof + Field.name.sizeof - 1) = 0 := by
    rw [atMade (by simp), ← filled]
    exact fillFields_nameEnd
  have noPrefix : made Field.namePrefix.offsetof = 0 := by
    rw [atMade (by simp), ← filled]
    exact fillFields_namePrefix
  have typeflag : UstarType.ofByte (made Field.typeflag.offsetof) = some type := by
    rw [atMade (by simp), ← filled, fillFields_typeflag]
    rcases typed with rfl | rfl <;> rfl
  have name : cString made Field.name.offsetof Field.name.sizeof = fileName := by
    unfold cString
    rw [readMade (by simp), ← filled]
    exact cString_fillFields cString0 short
  have sizeParsed : parseOctalField (Memory.read made Field.size.offsetof Field.size.sizeof) =
      some size.toNat := by
    have exact : (size % 2 ^ 32).toNat = size.toNat := by omega
    rw [readMade (by simp), ← filled, read_fillFields_size, exact]
    exact parseOctalField_formatOctal (by decide) (by omega) (by unfold ulongMax; omega) []
  have notLarge : ¬ size.toNat > 2147483647 := by omega
  unfold ustarParseHeader
  simp only [notZeros, magic, version, chksumParsed, sameChksum, nameEnd, noPrefix, typeflag, name,
    sizeParsed, notLarge]
  rcases typed with rfl | rfl <;> simp <;> rfl

end Composed

theorem ustarMakeHeader_of_short {fileName : List UInt8} {type : UstarType}
    (typed : type = .regular ∨ type = .directory)
    (short : (stripAntisocialPrefixes fileName).length ≤ 99) (size : Int) (header : Nat → UInt8) :
    ustarMakeHeader fileName type size header =
      .ok (true, snprintfOctal (fillFields (stripAntisocialPrefixes fileName) type size header)
        Field.chksum.offsetof Field.chksum.sizeof 7
        (calculateChksum (fillFields (stripAntisocialPrefixes fileName) type size header))) := by
  simp only [ustarMakeHeader, if_neg (not_not_intro typed), if_neg (Nat.not_lt.mpr short)]
  rfl

/-- A header composed for a valid type and a name of at most 99 bytes after
stripping parses back to the stripped name, the type, and the size of a regular
file; and the header is composed exactly when the stripped name fits. -/
theorem ustar_header_round_trip {fileName : List UInt8} (cString0 : 0 ∉ fileName) {type : UstarType}
    (typed : type = .regular ∨ type = .directory) (size : Int) (header : Nat → UInt8) :
    ∃ made, ustarMakeHeader fileName type size header =
        .ok (decide ((stripAntisocialPrefixes fileName).length ≤ 99), made) ∧
      ((stripAntisocialPrefixes fileName).length ≤ 99 → 0 ≤ size → size ≤ 2147483647 →
        ustarParseHeader made =
          .ok ⟨some (stripAntisocialPrefixes fileName), type, if type = .regular then size.toNat else 0⟩) := by
  have valid : ¬ ¬ (type = .regular ∨ type = .directory) := not_not_intro typed
  by_cases short : (stripAntisocialPrefixes fileName).length ≤ 99
  · let h := fillFields (stripAntisocialPrefixes fileName) type size header
    refine ⟨snprintfOctal h Field.chksum.offsetof Field.chksum.sizeof 7 (calculateChksum h), ?_,
      fun _ nonneg small => ?_⟩
    · rw [ustarMakeHeader_of_short typed short, decide_eq_true short]
    · rw [ustarParseHeader_made (zero_not_mem_stripAntisocialPrefixes cString0) short typed nonneg small,
        stripAntisocialPrefixes_idem]
  · refine ⟨header, ?_, fun fits => absurd fits short⟩
    simp only [ustarMakeHeader, if_neg valid, if_pos (Nat.lt_of_not_le short), decide_eq_false short]
    rfl

/-- The name `/a`, which stripping shortens to `a`, round trips as a file of five bytes. -/
theorem slashName_round_trip :
    (0 : UInt8) ∉ [47, 97] ∧
      ∃ made, ustarMakeHeader [47, 97] .regular 5 (fun _ => 0) =
          .ok (decide ((stripAntisocialPrefixes [47, 97]).length ≤ 99), made) ∧
        ((stripAntisocialPrefixes [47, 97]).length ≤ 99 → 0 ≤ (5 : Int) → (5 : Int) ≤ 2147483647 →
          ustarParseHeader made = .ok ⟨some (stripAntisocialPrefixes [47, 97]), .regular,
            if UstarType.regular = .regular then (5 : Int).toNat else 0⟩) :=
  ⟨by decide, ustar_header_round_trip (by decide) (.inl rfl) 5 (fun _ => 0)⟩

/-! ## Headers in a buffer

A header lies in the first `USTAR_HEADER_SIZE` bytes of its buffer: composing one writes
nothing past them, and parsing one reads nothing past them. -/

theorem fillFields_outside {fileName : List UInt8} {type : UstarType} {size : Int} {header : Nat → UInt8}
    {location : Nat} (beyond : ustarHeaderSize ≤ location) :
    fillFields fileName type size header location = header location := by
  simp only [fillFields, strlcpy, snprintfOctal]
  unfold ustarHeaderSize at beyond ⊢
  simp (disch := simp; omega) only [storeTruncated_outside, write_outside, fill_outside]

theorem ustarMakeHeader_outside {fileName : List UInt8} {type : UstarType} {size : Int}
    {header made : Nat → UInt8} {composed : Bool}
    (ran : ustarMakeHeader fileName type size header = .ok (composed, made)) {location : Nat}
    (beyond : ustarHeaderSize ≤ location) : made location = header location := by
  simp only [ustarMakeHeader] at ran
  split at ran
  · cases ran
  · split at ran
    · cases ran
      rfl
    · cases ran
      rw [snprintfOctal, storeTruncated_outside _ _ (by unfold ustarHeaderSize at beyond; simp; omega),
        fillFields_outside beyond]

theorem ustarParseHeader_congr {header header' : Nat → UInt8}
    (agree : ∀ i < ustarHeaderSize, header i = header' i) :
    ustarParseHeader header = ustarParseHeader header' := by
  have within : ∀ {address count}, address + count ≤ ustarHeaderSize →
      Memory.read header address count = Memory.read header' address count :=
    fun fits => read_congr fun offset inside => agree _ (by omega)
  have chksum : calculateChksum header = calculateChksum header' := by
    unfold calculateChksum
    apply congrArg List.sum
    apply List.map_congr_left
    intro i member
    rw [agree i (List.mem_range.mp member)]
  unfold ustarParseHeader cString
  rw [within (show 0 + ustarHeaderSize ≤ ustarHeaderSize by omega),
    within (show Field.magic.offsetof + 6 ≤ ustarHeaderSize by decide),
    agree Field.version.offsetof (by decide), agree (Field.version.offsetof + 1) (by decide),
    within (show Field.chksum.offsetof + Field.chksum.sizeof ≤ ustarHeaderSize by decide), chksum,
    agree (Field.name.offsetof + Field.name.sizeof - 1) (by decide),
    agree Field.namePrefix.offsetof (by decide), agree Field.typeflag.offsetof (by decide),
    within (show Field.size.offsetof + Field.size.sizeof ≤ ustarHeaderSize by decide),
    within (show Field.name.offsetof + Field.name.sizeof ≤ ustarHeaderSize by decide)]

end Pintos.Ustar

import Mathlib
import Pintos.Threads.Palloc

/-!
# Packed bitmaps

`lib/kernel/bitmap.c` as it stores its bits: words of `elem_type`, 32 bits
wide, bit `i` of the bitmap being bit `i % ELEM_BITS` of word `i / ELEM_BITS`.
The list of bits of `Palloc` is what the words mean (`Packed.toList`), and each
operation here computes the operation of the same name there.

Only the bits below `bit_cnt` are ever read.  The rest of the last word is
whatever the buffer held, and `bitmap_create_in_buf` leaves it so.
-/

namespace Pintos.Bitmap

/-- `ELEM_BITS`. -/
def elemBits : Nat := 32

def elemIdx (bitIdx : Nat) : Nat := bitIdx / elemBits

def bitMask (bitIdx : Nat) : BitVec 32 := 1#32 <<< (bitIdx % elemBits)

/-- `elem_cnt`: `DIV_ROUND_UP (bit_cnt, ELEM_BITS)`. -/
def elemCnt (bitCnt : Nat) : Nat := (bitCnt + elemBits - 1) / elemBits

def byteCnt (bitCnt : Nat) : Nat := 4 * elemCnt bitCnt

/-- `bitmap_buf_size`: the `struct bitmap` header and the words. -/
def bufSize (bitCnt : Nat) : Nat := 8 + byteCnt bitCnt

/-- `struct bitmap`. -/
structure Packed where
  bitCnt : Nat
  bits : List (BitVec 32)
  sized : bits.length = elemCnt bitCnt

namespace Packed

/-- `bitmap_test` (its assertion is the callers' business). -/
def test (b : Packed) (idx : Nat) : Bool := (b.bits.getD (elemIdx idx) 0 &&& bitMask idx) != 0

/-- `bitmap_mark`: `b->bits[idx] |= mask`. -/
def mark (b : Packed) (bitIdx : Nat) : Packed where
  bitCnt := b.bitCnt
  bits := b.bits.modify (elemIdx bitIdx) (· ||| bitMask bitIdx)
  sized := by rw [List.length_modify, b.sized]

/-- `bitmap_reset`: `b->bits[idx] &= ~mask`. -/
def reset (b : Packed) (bitIdx : Nat) : Packed where
  bitCnt := b.bitCnt
  bits := b.bits.modify (elemIdx bitIdx) (· &&& ~~~bitMask bitIdx)
  sized := by rw [List.length_modify, b.sized]

/-- `bitmap_set` at an index below `bit_cnt`, as every call of it here is. -/
def set (b : Packed) (idx : Nat) (value : Bool) : Packed :=
  if value then b.mark idx else b.reset idx

/-- `bitmap_set_multiple`. -/
def setMultiple (b : Packed) (start cnt : Nat) (value : Bool) : Except String Packed := do
  if ¬ start ≤ b.bitCnt then throw "assertion start <= b->bit_cnt failed"
  if ¬ start + cnt ≤ b.bitCnt then throw "assertion start + cnt <= b->bit_cnt failed"
  return (List.range cnt).foldl (fun b i => b.set (start + i) value) b

/-- The loop of `bitmap_contains`. -/
def containsLoop (b : Packed) (start cnt : Nat) (value : Bool) : Bool :=
  (List.range cnt).any fun i => b.test (start + i) == value

/-- `bitmap_contains`. -/
def contains (b : Packed) (start cnt : Nat) (value : Bool) : Except String Bool := do
  if ¬ start ≤ b.bitCnt then throw "assertion start <= b->bit_cnt failed"
  if ¬ start + cnt ≤ b.bitCnt then throw "assertion start + cnt <= b->bit_cnt failed"
  return b.containsLoop start cnt value

/-- `bitmap_scan`; its calls of `bitmap_contains` stay below `bit_cnt`, so
their assertions hold. -/
def scan (b : Packed) (start cnt : Nat) (value : Bool) : Except String (Option Nat) := do
  if ¬ start ≤ b.bitCnt then throw "assertion start <= b->bit_cnt failed"
  if cnt ≤ b.bitCnt then
    let last := b.bitCnt - cnt
    return (List.range' start (last + 1 - start)).find? fun i => !b.containsLoop i cnt (!value)
  return none

/-- `bitmap_scan_and_flip`. -/
def scanAndFlip (b : Packed) (start cnt : Nat) (value : Bool) :
    Except String (Packed × Option Nat) := do
  match ← b.scan start cnt value with
  | some idx =>
      let b ← b.setMultiple idx cnt !value
      return (b, some idx)
  | none => return (b, none)

/-- `bitmap_create_in_buf` over a buffer of `blockSize` bytes whose `i`-th word
after the header is `buffer i`: the words are kept, and
`bitmap_set_all (b, false)` clears the bits. -/
def createInBuf (bitCnt : Nat) (buffer : Nat → BitVec 32) (blockSize : Nat) :
    Except String Packed :=
  if blockSize < bufSize bitCnt then
    .error "assertion block_size >= bitmap_buf_size (bit_cnt) failed"
  else
    let b : Packed :=
      { bitCnt, bits := (List.range (elemCnt bitCnt)).map buffer, sized := by simp }
    b.setMultiple 0 bitCnt false

/-- The bits the words stand for. -/
def toList (b : Packed) : List Bool := (List.range b.bitCnt).map b.test

end Packed

theorem getLsbD_bitMask (idx k : Nat) :
    (bitMask idx).getLsbD k = decide (idx % elemBits = k) := by
  have below : idx % elemBits < 32 := Nat.mod_lt _ (by decide)
  rw [bitMask, ← BitVec.twoPow_eq, BitVec.getLsbD_twoPow]
  simp [below]

theorem and_bitMask_ne_zero (w : BitVec 32) (idx : Nat) :
    ((w &&& bitMask idx) != 0) = w.getLsbD (idx % elemBits) := by
  rw [bitMask, ← BitVec.twoPow_eq, BitVec.and_twoPow]
  split
  · rename_i set
    have nonzero : BitVec.twoPow 32 (idx % elemBits) ≠ 0#32 := by
      intro zero
      have bit := getLsbD_bitMask idx (idx % elemBits)
      rw [bitMask, ← BitVec.twoPow_eq, zero] at bit
      simp at bit
    simp [nonzero, set]
  · rename_i clear
    simp [clear]

namespace Packed

theorem test_eq (b : Packed) (idx : Nat) :
    b.test idx = (b.bits.getD (elemIdx idx) 0).getLsbD (idx % elemBits) :=
  and_bitMask_ne_zero _ _

theorem eq_of_elemIdx_eq {i j : Nat} (sameWord : elemIdx i = elemIdx j) :
    j = i ↔ i % elemBits = j % elemBits := by
  simp only [elemIdx, elemBits] at sameWord ⊢
  omega

theorem elemIdx_lt_length (b : Packed) {i : Nat} (inside : i < b.bitCnt) :
    elemIdx i < b.bits.length := by
  rw [b.sized]
  simp only [elemIdx, elemCnt, elemBits]
  omega

theorem test_mark (b : Packed) {i : Nat} (inside : i < b.bitCnt) (j : Nat) :
    (b.mark i).test j = (decide (j = i) || b.test j) := by
  rw [test_eq, test_eq]
  simp only [mark, List.getD_eq_getElem?_getD, List.getElem?_modify]
  by_cases sameWord : elemIdx i = elemIdx j
  · rw [← sameWord, List.getElem?_eq_getElem (b.elemIdx_lt_length inside)]
    simp only [if_true, Option.map_eq_map, Option.map_some, Option.getD_some, BitVec.getLsbD_or,
      getLsbD_bitMask, eq_of_elemIdx_eq sameWord]
    exact Bool.or_comm _ _
  · have differs : j ≠ i := fun same => sameWord (by rw [same])
    simp [sameWord, differs]

theorem test_reset (b : Packed) {i : Nat} (inside : i < b.bitCnt) (j : Nat) :
    (b.reset i).test j = (!decide (j = i) && b.test j) := by
  rw [test_eq, test_eq]
  simp only [reset, List.getD_eq_getElem?_getD, List.getElem?_modify]
  by_cases sameWord : elemIdx i = elemIdx j
  · have below : j % elemBits < 32 := Nat.mod_lt _ (by decide)
    rw [← sameWord, List.getElem?_eq_getElem (b.elemIdx_lt_length inside)]
    simp only [if_true, Option.map_eq_map, Option.map_some, Option.getD_some, BitVec.getLsbD_and,
      BitVec.getLsbD_not, getLsbD_bitMask, eq_of_elemIdx_eq sameWord, below, decide_true,
      Bool.true_and]
    exact Bool.and_comm _ _
  · have differs : j ≠ i := fun same => sameWord (by rw [same])
    simp [sameWord, differs]

theorem test_set (b : Packed) {i : Nat} (inside : i < b.bitCnt) (value : Bool) (j : Nat) :
    (b.set i value).test j = if j = i then value else b.test j := by
  cases value with
  | true =>
      rw [set, if_pos rfl, test_mark b inside]
      by_cases same : j = i <;> simp [same]
  | false =>
      rw [set, if_neg (by decide), test_reset b inside]
      by_cases same : j = i <;> simp [same]

@[simp]
theorem length_toList (b : Packed) : b.toList.length = b.bitCnt := by
  simp [toList]

theorem getElem?_toList (b : Packed) (i : Nat) :
    b.toList[i]? = if i < b.bitCnt then some (b.test i) else none := by
  unfold toList
  rw [List.getElem?_map]
  by_cases inside : i < b.bitCnt
  · rw [List.getElem?_range inside, if_pos inside]
    rfl
  · rw [List.getElem?_eq_none (by simpa using Nat.le_of_not_lt inside), if_neg inside]
    rfl

theorem toList_set (b : Packed) {i : Nat} (inside : i < b.bitCnt) (value : Bool) :
    (b.set i value).toList = b.toList.set i value := by
  apply List.ext_getElem?
  intro j
  have sameCnt : (b.set i value).bitCnt = b.bitCnt := by cases value <;> rfl
  rw [getElem?_toList, List.getElem?_set, getElem?_toList, sameCnt, length_toList,
    test_set b inside]
  by_cases same : i = j
  · subst same
    simp [inside]
  · simp [same, Ne.symm same]

@[simp]
theorem bitCnt_set (b : Packed) (i : Nat) (value : Bool) : (b.set i value).bitCnt = b.bitCnt := by
  cases value <;> rfl

theorem bitCnt_foldl_set (b : Packed) (start : Nat) (value : Bool) (cnt : Nat) :
    ((List.range cnt).foldl (fun b i => b.set (start + i) value) b).bitCnt = b.bitCnt := by
  induction cnt with
  | zero => rfl
  | succ cnt inductionHypothesis =>
      rw [List.range_succ, List.foldl_append, List.foldl_cons, List.foldl_nil, bitCnt_set,
        inductionHypothesis]

/-- The loop of `bitmap_set_multiple` sets the bits one by one. -/
theorem toList_foldl_set (b : Packed) {start : Nat} (value : Bool) :
    ∀ cnt, start + cnt ≤ b.bitCnt →
      ((List.range cnt).foldl (fun b i => b.set (start + i) value) b).toList =
        Bitmap.setMultiple b.toList start cnt value := by
  intro cnt
  induction cnt with
  | zero =>
      intro _
      rw [Bitmap.setMultiple_zero]
      rfl
  | succ cnt inductionHypothesis =>
      intro inside
      rw [List.range_succ, List.foldl_append, List.foldl_cons, List.foldl_nil,
        toList_set _ (by rw [bitCnt_foldl_set]; omega), inductionHypothesis (by omega)]
      exact Bitmap.setMultiple_succ _ _ _ _

theorem setMultiple_of_le (b : Packed) {start cnt : Nat} (value : Bool)
    (inside : start + cnt ≤ b.bitCnt) :
    b.setMultiple start cnt value =
      .ok ((List.range cnt).foldl (fun b i => b.set (start + i) value) b) := by
  have first : start ≤ b.bitCnt := by omega
  simp [setMultiple, first, inside, pure, Except.pure]

theorem containsLoop_eq (b : Packed) {start cnt : Nat} (value : Bool)
    (inside : start + cnt ≤ b.bitCnt) :
    b.containsLoop start cnt value = Bitmap.contains b.toList start cnt value := by
  have agree : ∀ i ∈ List.range cnt, b.test (start + i) = b.toList.getD (start + i) false := by
    intro i member
    rw [List.mem_range] at member
    rw [List.getD_eq_getElem?_getD, getElem?_toList, if_pos (by omega)]
    rfl
  simp only [containsLoop, Bitmap.contains, List.any_eq]
  congr 1
  exact propext (exists_congr fun i => and_congr_right fun member => by rw [agree i member])

/-- `bitmap_scan` finds what the scan of the list of bits finds. -/
theorem scan_eq (b : Packed) {start cnt : Nat} (value : Bool) (inside : start ≤ b.bitCnt) :
    b.scan start cnt value = .ok (Bitmap.scan b.toList start cnt value) := by
  unfold scan Bitmap.scan
  simp only [inside, not_true_eq_false, if_false, length_toList, bind, Except.bind, pure,
    Except.pure]
  split
  · rename_i fits
    congr 1
    apply List.find?_congr
    intro i member
    rw [List.mem_range'_1] at member
    rw [containsLoop_eq b _ (by omega)]
  · rfl

/-- `bitmap_set_multiple` returns only inside the bitmap, having set the bits. -/
theorem setMultiple_eq_ok {b b' : Packed} {start cnt : Nat} {value : Bool}
    (set : b.setMultiple start cnt value = .ok b') :
    start + cnt ≤ b.bitCnt ∧ b'.bitCnt = b.bitCnt ∧
      b'.toList = Bitmap.setMultiple b.toList start cnt value := by
  by_cases inside : start + cnt ≤ b.bitCnt
  · rw [setMultiple_of_le b value inside, Except.ok.injEq] at set
    subst set
    exact ⟨inside, bitCnt_foldl_set _ _ _ _, toList_foldl_set b value cnt inside⟩
  · by_cases first : start ≤ b.bitCnt <;>
      simp [setMultiple, first, inside, throw, throwThe, MonadExceptOf.throw, bind,
        Except.bind] at set

/-- Without a run to flip, `bitmap_scan_and_flip` changes nothing. -/
theorem scanAndFlip_of_scan_none (b : Packed) {start cnt : Nat} {value : Bool}
    (inside : start ≤ b.bitCnt) (missing : Bitmap.scan b.toList start cnt value = none) :
    b.scanAndFlip start cnt value = .ok (b, none) := by
  simp only [scanAndFlip, scan_eq b value inside, missing, bind, Except.bind, pure, Except.pure]

/-- `bitmap_scan_and_flip` computes what the list scan-and-flip computes. -/
theorem scanAndFlip_eq (b : Packed) {start cnt : Nat} (value : Bool) (inside : start ≤ b.bitCnt) :
    ∃ flipped : Packed,
      b.scanAndFlip start cnt value = .ok (flipped, (Bitmap.scanAndFlip b.toList start cnt value).2) ∧
        flipped.bitCnt = b.bitCnt ∧
        flipped.toList = (Bitmap.scanAndFlip b.toList start cnt value).1 := by
  unfold scanAndFlip Bitmap.scanAndFlip
  rw [scan_eq b value inside]
  simp only [bind, Except.bind]
  cases found : Bitmap.scan b.toList start cnt value with
  | none => exact ⟨b, rfl, rfl, rfl⟩
  | some idx =>
      obtain ⟨-, run, -⟩ := Bitmap.scan_eq_some found
      have fits : idx + cnt ≤ b.bitCnt := by simpa using run.1
      dsimp only
      rw [setMultiple_of_le b _ fits]
      exact ⟨_, rfl, bitCnt_foldl_set _ _ _ _, toList_foldl_set b _ cnt fits⟩

theorem createInBuf_toList {bitCnt blockSize : Nat} {buffer : Nat → BitVec 32} {b : Packed}
    (created : createInBuf bitCnt buffer blockSize = .ok b) :
    b.bitCnt = bitCnt ∧ b.toList = List.replicate bitCnt false := by
  unfold createInBuf at created
  split at created
  · cases created
  · rw [setMultiple_of_le _ _ (by simp)] at created
    cases created
    refine ⟨bitCnt_foldl_set _ _ _ _, ?_⟩
    rw [toList_foldl_set _ _ _ (by simp)]
    have all := Bitmap.setMultiple_all (Packed.toList { bitCnt, bits := (List.range (elemCnt bitCnt)).map buffer, sized := by simp }) false
    simpa using all

theorem createInBuf_fits {bitCnt blockSize : Nat} {buffer : Nat → BitVec 32} {b : Packed}
    (created : createInBuf bitCnt buffer blockSize = .ok b) : bufSize bitCnt ≤ blockSize := by
  unfold createInBuf at created
  split at created
  · cases created
  · omega

end Packed

end Pintos.Bitmap

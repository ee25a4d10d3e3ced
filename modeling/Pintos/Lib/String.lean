import Mathlib
import Pintos.Memory

/-!
# `memmove`

`memmove` of `lib/string.c` copies forward, as `memcpy` does, when the destination lies below
the source, and backward from the ends of both ranges otherwise, so that no byte is read after
the copy has overwritten it.  Both loops move the pointer `dst` they return: the forward loop
leaves it at the end of the destination, the backward loop back at its start.
-/

namespace Pintos.Memory

open Function

/-- The loop `while (size-- > 0) *dst++ = *src++;`, with the final `dst`. -/
def copyForward (memory : Nat → UInt8) : Nat → Nat → Nat → (Nat → UInt8) × Nat
  | dst, _, 0 => (memory, dst)
  | dst, src, size + 1 => copyForward (update memory dst (memory src)) (dst + 1) (src + 1) size

/-- The loop `while (size-- > 0) *--dst = *--src;`, with the final `dst`. -/
def copyBackward (memory : Nat → UInt8) : Nat → Nat → Nat → (Nat → UInt8) × Nat
  | dst, _, 0 => (memory, dst)
  | dst, src, size + 1 =>
    copyBackward (update memory (dst - 1) (memory (src - 1))) (dst - 1) (src - 1) size

def memmove (memory : Nat → UInt8) (dst src size : Nat) : Except String ((Nat → UInt8) × Nat) := do
  if dst = 0 ∧ size ≠ 0 then throw "assertion dst != NULL || size == 0 failed"
  if src = 0 ∧ size ≠ 0 then throw "assertion src != NULL || size == 0 failed"
  if dst < src then return copyForward memory dst src size
  else return copyBackward memory (dst + size) (src + size) size

@[simp]
theorem write_nil (memory : Nat → UInt8) (address : Nat) : write memory address [] = memory := by
  funext location
  simp only [write, List.length_nil, Nat.add_zero]
  rw [if_neg (by omega)]

theorem update_eq_write (memory : Nat → UInt8) (address : Nat) (byte : UInt8) :
    update memory address byte = write memory address [byte] := by
  funext location
  by_cases here : location = address
  · subst here
    simp [write]
  · rw [update_of_ne here, write_outside memory (by simp; omega)]

theorem write_append (memory : Nat → UInt8) (address : Nat) (first second : List UInt8) :
    write (write memory address first) (address + first.length) second =
      write memory address (first ++ second) := by
  funext location
  simp only [write, List.length_append]
  by_cases inFirst : address ≤ location ∧ location < address + first.length
  · have notSecond : ¬ (address + first.length ≤ location ∧
        location < address + first.length + second.length) := by omega
    rw [if_neg notSecond, if_pos inFirst, if_pos (by omega), List.getD_append _ _ _ _ (by omega)]
  · by_cases inSecond : address + first.length ≤ location ∧
        location < address + first.length + second.length
    · rw [if_pos inSecond, if_pos (by omega),
        List.getD_append_right _ _ _ _ (by omega), Nat.sub_add_eq]
    · rw [if_neg inSecond, if_neg inFirst, if_neg (by omega)]

theorem write_prepend (memory : Nat → UInt8) (address : Nat) (first second : List UInt8) :
    write (write memory (address + first.length) second) address first =
      write memory address (first ++ second) := by
  funext location
  simp only [write, List.length_append]
  by_cases inFirst : address ≤ location ∧ location < address + first.length
  · rw [if_pos inFirst, if_pos (by omega), List.getD_append _ _ _ _ (by omega)]
  · by_cases inSecond : address + first.length ≤ location ∧
        location < address + first.length + second.length
    · rw [if_neg inFirst, if_pos inSecond, if_pos (by omega),
        List.getD_append_right _ _ _ _ (by omega), Nat.sub_add_eq]
    · rw [if_neg inFirst, if_neg inSecond, if_neg (by omega)]

theorem read_succ (memory : Nat → UInt8) (address count : Nat) :
    read memory address (count + 1) = memory address :: read memory (address + 1) count := by
  simp [read, List.range_succ_eq_map, Nat.add_comm, Nat.add_left_comm]

/-- Copying forward is safe when the destination does not lie above the source: the source
bytes not yet copied lie at or above the next destination byte. -/
theorem copyForward_eq (memory : Nat → UInt8) {dst src : Nat} (below : dst ≤ src) (size : Nat) :
    copyForward memory dst src size = (copy memory src memory dst size, dst + size) := by
  induction size generalizing memory dst src with
  | zero => simp [copyForward, copy, read]
  | succ size ih =>
    rw [copyForward, ih _ (Nat.succ_le_succ below)]
    -- the first byte written is not read again
    have unread : read (update memory dst (memory src)) (src + 1) size = read memory (src + 1) size := by
      rw [update_eq_write]
      exact read_write_disjoint memory (by simp; omega)
    have joined := write_append memory dst [memory src] (read memory (src + 1) size)
    simp only [List.length_singleton, List.singleton_append] at joined
    simp only [copy]
    rw [unread, update_eq_write, joined, read_succ]
    congr 1
    omega

/-- Copying backward is safe when the destination does not lie below the source: the source
bytes not yet copied lie below the last destination byte written. -/
theorem copyBackward_eq (memory : Nat → UInt8) {dst src : Nat} (above : src ≤ dst) (size : Nat) :
    copyBackward memory (dst + size) (src + size) size = (copy memory src memory dst size, dst) := by
  induction size generalizing memory with
  | zero => simp [copyBackward, copy, read]
  | succ size ih =>
    rw [copyBackward, show dst + (size + 1) - 1 = dst + size by omega,
      show src + (size + 1) - 1 = src + size by omega, ih]
    -- the last byte written is not read again
    have unread : read (update memory (dst + size) (memory (src + size))) src size = read memory src size := by
      rw [update_eq_write]
      exact read_write_disjoint memory (by simp; omega)
    have lengthRead : (read memory src size).length = size := by simp [read]
    have joined := write_prepend memory dst (read memory src size) [memory (src + size)]
    rw [lengthRead] at joined
    simp only [copy]
    rw [unread, update_eq_write, joined, read_add]
    rfl

theorem memmove_eq (memory : Nat → UInt8) {dst src size : Nat} (dstValid : dst ≠ 0 ∨ size = 0)
    (srcValid : src ≠ 0 ∨ size = 0) :
    memmove memory dst src size =
      .ok (copy memory src memory dst size, if dst < src then dst + size else dst) := by
  have dstChecked : ¬ (dst = 0 ∧ size ≠ 0) := by omega
  have srcChecked : ¬ (src = 0 ∧ size ≠ 0) := by omega
  simp only [memmove, if_neg dstChecked, if_neg srcChecked]
  by_cases below : dst < src
  · simp only [if_pos below, copyForward_eq memory (Nat.le_of_lt below)]
    rfl
  · simp only [if_neg below, copyBackward_eq memory (Nat.le_of_not_lt below)]
    rfl

/-- `memmove` copies the source range to the destination range, whichever way they overlap, and
changes nothing else; it returns `dst` only when it copied backward, and the end of the
destination range when it copied forward. -/
theorem memmove_moves (memory : Nat → UInt8) {dst src size : Nat} (dstValid : dst ≠ 0 ∨ size = 0)
    (srcValid : src ≠ 0 ∨ size = 0) :
    ∃ memory', memmove memory dst src size = .ok (memory', if dst < src then dst + size else dst) ∧
      read memory' dst size = read memory src size ∧
      ∀ location, location < dst ∨ dst + size ≤ location → memory' location = memory location := by
  have lengthRead : (read memory src size).length = size := by simp [read]
  refine ⟨copy memory src memory dst size, memmove_eq memory dstValid srcValid, ?_, ?_⟩
  · have copied := read_write_self memory dst (read memory src size)
    rwa [lengthRead] at copied
  · intro location outside
    exact write_outside memory (by rw [lengthRead]; exact outside)

theorem memmove_down_returns_end :
    ∃ memory', memmove (fun _ => 0) 4096 4097 1 = .ok (memory', 4097) ∧
      read memory' 4096 1 = read (fun _ => 0) 4097 1 := by
  obtain ⟨memory', moved, copied, -⟩ := memmove_moves (fun _ => (0 : UInt8))
    (show 4096 ≠ 0 ∨ 1 = 0 by decide) (show 4097 ≠ 0 ∨ 1 = 0 by decide)
  exact ⟨memory', moved, copied⟩

end Pintos.Memory

import Mathlib

/-!
# Ring buffers

A buffer of `size` slots used round: elements are written at `head` and read at `tail`, both
moving to `(pos + 1) % size`.  The elements held are the `window` from `tail` up to `head`.
Telling a full buffer from an empty one by `head` and `tail` alone costs one slot, so a
buffer with `count` elements and `count + 1 < size` has room for one more.
-/

namespace Pintos.RingBuffer

open Function

variable {α : Type*} {size tail head : Nat}

/-- The number of slots from `tail` up to `head`, going round. -/
def count (size tail head : Nat) : Nat :=
  if tail ≤ head then head - tail else head + size - tail

/-- The elements from `tail` up to `head`, oldest first. -/
def window (size : Nat) (buf : Nat → α) (tail head : Nat) : List α :=
  (List.range (count size tail head)).map fun i => buf ((tail + i) % size)

theorem wrap_eq {a : Nat} (below : a < 2 * size) : a % size = if a < size then a else a - size := by
  split
  · exact Nat.mod_eq_of_lt ‹_›
  · rw [Nat.mod_eq_sub_mod (by omega), Nat.mod_eq_of_lt (by omega)]

theorem count_lt (tailLt : tail < size) (headLt : head < size) : count size tail head < size := by
  unfold count
  split <;> omega

theorem count_eq_zero_iff (tailLt : tail < size) : count size tail head = 0 ↔ head = tail := by
  unfold count
  split <;> omega

theorem next_eq_tail_iff (tailLt : tail < size) (headLt : head < size) :
    (head + 1) % size = tail ↔ count size tail head + 1 = size := by
  rw [wrap_eq (by omega)]
  unfold count
  split <;> split <;> omega

theorem tail_add_count (tailLt : tail < size) (headLt : head < size) :
    (tail + count size tail head) % size = head := by
  rw [wrap_eq (by unfold count; split <;> omega)]
  unfold count
  split <;> split <;> omega

theorem count_push (tailLt : tail < size) (headLt : head < size) (room : count size tail head + 1 < size) :
    count size tail ((head + 1) % size) = count size tail head + 1 := by
  rw [wrap_eq (by omega)]
  unfold count at room ⊢
  split_ifs at room ⊢ <;> omega

theorem count_pop (tailLt : tail < size) (headLt : head < size) (nonempty : head ≠ tail) :
    count size ((tail + 1) % size) head + 1 = count size tail head := by
  rw [wrap_eq (by omega)]
  unfold count
  split <;> split <;> split <;> omega

theorem window_push (buf : Nat → α) (tailLt : tail < size) (headLt : head < size)
    (room : count size tail head + 1 < size) (x : α) :
    window size (update buf head x) tail ((head + 1) % size) = window size buf tail head ++ [x] := by
  have last : (tail + count size tail head) % size = head := tail_add_count tailLt headLt
  rw [window, count_push tailLt headLt room, List.range_succ, List.map_append, List.map_singleton,
    last, update_self, window]
  congr 1
  apply List.map_congr_left
  intro i member
  -- the slots before the window's end are not `head`
  have before : (tail + i) % size ≠ head := by
    rw [List.mem_range] at member
    rw [← last, wrap_eq (by omega), wrap_eq (by omega)]
    split <;> split <;> omega
  exact update_of_ne before x buf

theorem window_pop (buf : Nat → α) (tailLt : tail < size) (headLt : head < size)
    (nonempty : head ≠ tail) :
    window size buf tail head = buf tail :: window size buf ((tail + 1) % size) head := by
  have counted := count_pop tailLt headLt nonempty
  unfold window
  rw [← counted, List.range_succ_eq_map, List.map_cons, List.map_map, Nat.add_zero,
    Nat.mod_eq_of_lt tailLt]
  congr 1
  apply List.map_congr_left
  intro i _
  simp only [comp_apply, Nat.mod_add_mod]
  rw [Nat.add_assoc, Nat.add_comm 1 i]

end Pintos.RingBuffer

import Mathlib

/-!
# Byte-addressed memory

Memory is a total function from addresses to bytes.  `write` stores a list of
bytes at an address, `read` loads a list, `fill` stores copies of one byte, and
`copy` moves a range between two memories.
-/

namespace Pintos.Memory

/-- Store `bytes` at `address`, `address + 1`, ... -/
def write (memory : Nat → UInt8) (address : Nat) (bytes : List UInt8) : Nat → UInt8 :=
  fun location =>
    if address ≤ location ∧ location < address + bytes.length then
      bytes.getD (location - address) 0
    else memory location

/-- Store `count` copies of `byte` (`memset`). -/
def fill (memory : Nat → UInt8) (address count : Nat) (byte : UInt8) : Nat → UInt8 :=
  write memory address (List.replicate count byte)

/-- Load `count` bytes from `address`. -/
def read (memory : Nat → UInt8) (address count : Nat) : List UInt8 :=
  (List.range count).map fun offset => memory (address + offset)

/-- Copy `count` bytes from `source` at `sourceAddress` to `target` at
`targetAddress` (`memcpy` between two address spaces). -/
def copy (source : Nat → UInt8) (sourceAddress : Nat) (target : Nat → UInt8)
    (targetAddress count : Nat) : Nat → UInt8 :=
  write target targetAddress (read source sourceAddress count)

theorem write_inside (memory : Nat → UInt8) (address : Nat) {bytes : List UInt8} {offset : Nat}
    (inside : offset < bytes.length) :
    write memory address bytes (address + offset) = bytes.getD offset 0 := by
  simp [write, inside]

theorem write_outside (memory : Nat → UInt8) {address : Nat} {bytes : List UInt8}
    {location : Nat} (outside : location < address ∨ address + bytes.length ≤ location) :
    write memory address bytes location = memory location := by
  have notInside : ¬ (address ≤ location ∧ location < address + bytes.length) := by omega
  simp only [write, if_neg notInside]

theorem fill_inside (memory : Nat → UInt8) (address : Nat) {count offset : Nat} (byte : UInt8)
    (inside : offset < count) : fill memory address count byte (address + offset) = byte := by
  rw [fill, write_inside memory address (by simpa using inside)]
  simp [inside]

theorem fill_outside (memory : Nat → UInt8) {address count location : Nat} (byte : UInt8)
    (outside : location < address ∨ address + count ≤ location) :
    fill memory address count byte location = memory location :=
  write_outside memory (by simpa using outside)

theorem write_of_mem (memory : Nat → UInt8) {address location : Nat} (bytes : List UInt8)
    (inside : address ≤ location ∧ location < address + bytes.length) :
    write memory address bytes location = bytes.getD (location - address) 0 := by
  simp only [write, if_pos inside]

theorem fill_of_mem (memory : Nat → UInt8) {address count location : Nat} (byte : UInt8)
    (inside : address ≤ location ∧ location < address + count) :
    fill memory address count byte location = byte := by
  have offset := fill_inside memory address byte (show location - address < count by omega)
  rwa [Nat.add_sub_cancel' inside.1] at offset

theorem read_write_self (memory : Nat → UInt8) (address : Nat) (bytes : List UInt8) :
    read (write memory address bytes) address bytes.length = bytes := by
  apply List.ext_getElem
  · simp [read]
  · intro offset _ inside
    simp only [read, List.getElem_map, List.getElem_range]
    rw [write_inside memory address inside, List.getD_eq_getElem _ _ inside]

theorem read_write_disjoint (memory : Nat → UInt8) {address : Nat} {bytes : List UInt8}
    {location count : Nat} (apart : address + bytes.length ≤ location ∨ location + count ≤ address) :
    read (write memory address bytes) location count = read memory location count := by
  apply List.map_congr_left
  intro offset member
  rw [List.mem_range] at member
  exact write_outside memory (by omega)

theorem read_congr {memory memory' : Nat → UInt8} {address count : Nat}
    (agree : ∀ offset < count, memory (address + offset) = memory' (address + offset)) :
    read memory address count = read memory' address count := by
  apply List.map_congr_left
  intro offset member
  exact agree offset (List.mem_range.mp member)

theorem read_add (memory : Nat → UInt8) (address count more : Nat) :
    read memory address (count + more) = read memory address count ++ read memory (address + count) more := by
  simp [read, List.range_add, Nat.add_assoc]

end Pintos.Memory

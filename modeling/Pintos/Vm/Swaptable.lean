import Mathlib
import Pintos.Vm.State

/-!
# The swap table

`vm/swaptable.c`.  A swap slot is a run of eight sectors of the swap device;
slot `i` starts at sector `8 * swap_index` of entry `i`.  `move_into_swap`
copies a frame out sector by sector with `block_write`, `read_from_swap` copies
it back with `block_read`, and `free_metaswap_entry` empties an entry.  The
source's `ASSERT`s and `PANIC`s are the error cases.

Note the order inside `free_metaswap_entry`: it sets
`instructions_for_pageheld` to `USELESS` before returning the entry, so a
caller that reads the field from the returned entry reads `USELESS`
(`instructionsForPageheld_freeMetaswapEntry`).
-/

namespace Pintos

/-- `block_write` of one sector: copy `BLOCK_SECTOR_SIZE` bytes of memory from
`buffer` to sector `sector` of a device. -/
def blockWrite (device : Nat → UInt8) (sector : Nat) (memory : Nat → UInt8)
    (buffer : Nat) : Nat → UInt8 :=
  Memory.copy memory buffer device (sector * blockSectorSize) blockSectorSize

/-- `block_read` of one sector into memory at `buffer`. -/
def blockRead (device : Nat → UInt8) (sector : Nat) (memory : Nat → UInt8)
    (buffer : Nat) : Nat → UInt8 :=
  Memory.copy device (sector * blockSectorSize) memory buffer blockSectorSize

/-- The `for (i = 0; i < 8; i++)` loop of `move_into_swap`: sectors
`8 * slot + i` receive the page's bytes `[512 i, 512 i + 512)`. -/
def writeSectors (device : Nat → UInt8) (slot : Nat) (memory : Nat → UInt8) (page : Nat) :
    Nat → Nat → UInt8
  | 0 => device
  | count + 1 =>
      blockWrite (writeSectors device slot memory page count) (8 * slot + count) memory
        (page + blockSectorSize * count)

/-- The `for` loop of `read_from_swap`. -/
def readSectors (device : Nat → UInt8) (slot : Nat) (memory : Nat → UInt8) (page : Nat) :
    Nat → Nat → UInt8
  | 0 => memory
  | count + 1 =>
      blockRead device (8 * slot + count) (readSectors device slot memory page count)
        (page + blockSectorSize * count)

namespace Vm

/-- `next_empty_metaswap_entry`: the first entry not filled. -/
def nextEmptyMetaswapEntry (vm : Vm) : Except String Nat :=
  match vm.swaptable.findIdx? fun entry => !entry.isfilled with
  | some index => .ok index
  | none => .error "No more swap space!!!!"

/-- `move_into_swap`: the new state and the slot's `swap_index`. -/
def moveIntoSwap (vm : Vm) (page : Option Nat) (instruction : LoadInstruction)
    (isdirty : Bool) : Except String (Vm × Nat) := do
  let some page := page | throw "Page in move_into_swap == NULL"
  let index ← vm.nextEmptyMetaswapEntry
  let some entry := vm.swaptable[index]? | throw "no empty swap entries available"
  let swapBlock := writeSectors vm.swapBlock entry.swapIndex vm.memory page 8
  let entry := { entry with isfilled := true, instructionsForPageheld := instruction, isdirty }
  return ({ vm with swapBlock, swaptable := vm.swaptable.set index entry }, entry.swapIndex)

def getMetaswapEntryByindex (vm : Vm) (index : Int) : Except String Nat :=
  if index < vm.swaptable.length then
    if 0 ≤ index then .ok index.toNat
    else .error "assertion index >= 0 failed"
  else .error "assertion swaptable_size > index failed"

def readFromSwap (vm : Vm) (index : Int) (page : Option Nat) : Except String Vm := do
  if index = -1 then throw "assertion index != -1 failed"
  let some page := page | throw "Page in read_from_swap == NULL"
  return { vm with memory := readSectors vm.swapBlock index.toNat vm.memory page 8 }

/-- `free_metaswap_entry`: the new state and the entry it returns, read after
the function's own writes. -/
def freeMetaswapEntry (vm : Vm) (index : Int) : Except String (Vm × MetaswapEntry) := do
  if index = -1 then throw "assertion index != -1 failed"
  let slot ← vm.getMetaswapEntryByindex index
  let some entry := vm.swaptable[slot]? | throw "swap_entry2free == NULL"
  if !entry.isfilled then throw "assertion swap_entry2free->isfilled failed"
  let entry := { entry with isfilled := false, instructionsForPageheld := .useless }
  return ({ vm with swaptable := vm.swaptable.set slot entry }, entry)

/-! ## What the operations change -/

theorem nextEmptyMetaswapEntry_spec {vm : Vm} {index : Nat}
    (found : vm.nextEmptyMetaswapEntry = .ok index) :
    ∃ inRange : index < vm.swaptable.length, vm.swaptable[index].isfilled = false := by
  unfold nextEmptyMetaswapEntry at found
  split at found
  · rename_i first
    cases found
    obtain ⟨inRange, empty, _⟩ := List.findIdx?_eq_some_iff_getElem.mp first
    exact ⟨inRange, by simpa using empty⟩
  · cases found

/-- Everything `move_into_swap` does: it takes the first empty slot, records the
page's kind and dirty bit there, and writes the page to the slot's sectors. -/
theorem moveIntoSwap_spec {vm next : Vm} {page : Option Nat} {instruction : LoadInstruction}
    {isdirty : Bool} {slot : Nat}
    (moved : vm.moveIntoSwap page instruction isdirty = .ok (next, slot)) :
    ∃ kpage index, page = some kpage ∧ vm.nextEmptyMetaswapEntry = .ok index ∧
      ∃ inRange : index < vm.swaptable.length,
        vm.swaptable[index].isfilled = false ∧ slot = vm.swaptable[index].swapIndex ∧
        next = { vm with
          swapBlock := writeSectors vm.swapBlock slot vm.memory kpage 8
          swaptable := vm.swaptable.set index
            { vm.swaptable[index] with
              isfilled := true, instructionsForPageheld := instruction, isdirty } } := by
  unfold moveIntoSwap at moved
  cases page with
  | none => cases moved
  | some kpage =>
      cases found : vm.nextEmptyMetaswapEntry with
      | error message => simp [found] at moved; cases moved
      | ok index =>
          obtain ⟨inRange, empty⟩ := nextEmptyMetaswapEntry_spec found
          simp only [found, bind, Except.bind, List.getElem?_eq_getElem inRange, pure,
            Except.pure, Except.ok.injEq, Prod.mk.injEq] at moved
          obtain ⟨rfl, rfl⟩ := moved
          exact ⟨kpage, index, rfl, rfl, inRange, empty, rfl, rfl⟩

theorem getMetaswapEntryByindex_spec {vm : Vm} {index : Int} {slot : Nat}
    (found : vm.getMetaswapEntryByindex index = .ok slot) :
    index = slot ∧ slot < vm.swaptable.length := by
  unfold getMetaswapEntryByindex at found
  split at found
  · split at found
    · cases found
      omega
    · cases found
  · cases found

/-- Everything `free_metaswap_entry` does, and what it returns. -/
theorem freeMetaswapEntry_spec {vm next : Vm} {index : Int} {entry : MetaswapEntry}
    (freed : vm.freeMetaswapEntry index = .ok (next, entry)) :
    ∃ slot : Nat, index = slot ∧ ∃ inRange : slot < vm.swaptable.length,
      vm.swaptable[slot].isfilled = true ∧
      entry = { vm.swaptable[slot] with isfilled := false, instructionsForPageheld := .useless } ∧
      next = { vm with swaptable := vm.swaptable.set slot entry } := by
  unfold freeMetaswapEntry at freed
  simp only [bind, Except.bind, pure, Except.pure, throw, throwThe, MonadExceptOf.throw] at freed
  -- the assertion on `index`, then `get_metaswap_entry_byindex`
  split at freed
  · cases freed
  split at freed
  · cases freed
  rename_i slot slotFound
  obtain ⟨rfl, inRange⟩ := getMetaswapEntryByindex_spec slotFound
  rw [List.getElem?_eq_getElem inRange] at freed
  simp only at freed
  -- the assertion on `isfilled`
  split at freed
  · cases freed
  rename_i filled
  simp only [Except.ok.injEq, Prod.mk.injEq] at freed
  obtain ⟨rfl, rfl⟩ := freed
  exact ⟨slot, rfl, inRange, by simpa using filled, rfl, rfl⟩

/-- The entry `free_metaswap_entry` returns always says `USELESS`: the field
was reset before the caller reads it. -/
theorem instructionsForPageheld_freeMetaswapEntry {vm next : Vm} {index : Int}
    {entry : MetaswapEntry} (freed : vm.freeMetaswapEntry index = .ok (next, entry)) :
    entry.instructionsForPageheld = .useless := by
  obtain ⟨_, _, _, _, rfl, _⟩ := freeMetaswapEntry_spec freed
  rfl

end Vm

end Pintos

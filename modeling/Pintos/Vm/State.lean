import Mathlib
import Pintos.Devices.Block
import Pintos.Userprog.Pagedir

/-!
# The data of demand paging

`vm/spagetable.h`, `vm/frametable.h` and `vm/swaptable.h`, with the parts of
`struct thread` that paging reads.  Pointers become what they identify: a
thread is its `tid`, a frame or a user page its address, a `struct file *` a
number naming the open file, and a spinfo its position in its owner's
supplemental page table (the list `spage_table` with `list_push_back`).

The machine state `Vm` gathers the globals of `frametable.c` and
`swaptable.c`, the user pool of the page allocator, kernel memory (where the
frames live), the swap device byte by byte, the live threads and the contents
of the files pages are read from.
-/

namespace Pintos

/-- `enum load_instruction`: where a page comes from when it is faulted in. -/
inductive LoadInstruction where
  | useless
  | file
  | swap
  | stack
  deriving DecidableEq, Repr

/-- `struct spinfo`: an entry of a thread's supplemental page table.  `file` is
`none` for the null pointer.  `indexIntoSwap` is left uninitialised by the
source's `malloc`; it is read only once `instructions` is `SWAP`, and
`evict_page` writes it first. -/
structure Spinfo where
  file : Option Nat
  fileOffset : Nat
  bytesToRead : Nat
  writable : Bool
  upageAddress : Nat
  kpageAddress : Option Nat
  instructions : LoadInstruction
  indexIntoSwap : Int
  deriving DecidableEq, Repr

/-- `struct metaframe`: an entry of the frame table; `owner` is the owning
thread's `tid`. -/
structure Metaframe where
  isfilled : Bool
  page : Option Nat
  owner : Option Nat
  deriving DecidableEq, Repr

/-- `struct metaswap_entry`: an entry of the swap table. -/
structure MetaswapEntry where
  swapIndex : Nat
  isfilled : Bool
  instructionsForPageheld : LoadInstruction
  isdirty : Bool
  deriving DecidableEq, Repr

/-- What paging reads of a `struct thread`. -/
structure Thread where
  spageTable : List Spinfo
  pagedir : Pagedir
  personalEsp : Nat

/-- The state demand paging runs on. -/
structure Vm where
  /-- `frametable`, of `num_user_frames` entries. -/
  frametable : List Metaframe
  clockHand : Nat
  /-- `swaptable`, of `swaptable_size` entries. -/
  swaptable : List MetaswapEntry
  /-- The swap device: byte `i` of sector `s` is at `s * BLOCK_SECTOR_SIZE + i`. -/
  swapBlock : Nat → UInt8
  userPool : Pool
  memory : Nat → UInt8
  /-- The threads alive, by `tid`. -/
  threads : Nat → Option Thread
  /-- The bytes of each file a page can be read from. -/
  files : Nat → List UInt8

/-- `find_spinfo`: the first spinfo of `upage`, as a position in the table. -/
def findSpinfo (infoList : List Spinfo) (page : Nat) : Option Nat :=
  infoList.findIdx? fun info => info.upageAddress == page

namespace Vm

def setThread (vm : Vm) (tid : Nat) (thread : Thread) : Vm :=
  { vm with threads := Function.update vm.threads tid (some thread) }

def updateThread (vm : Vm) (tid : Nat) (change : Thread → Thread) : Vm :=
  { vm with threads := Function.update vm.threads tid ((vm.threads tid).map change) }

@[simp]
theorem setThread_frametable (vm : Vm) (tid : Nat) (thread : Thread) :
    (vm.setThread tid thread).frametable = vm.frametable := rfl

@[simp]
theorem setThread_swaptable (vm : Vm) (tid : Nat) (thread : Thread) :
    (vm.setThread tid thread).swaptable = vm.swaptable := rfl

@[simp]
theorem setThread_threads (vm : Vm) (tid : Nat) (thread : Thread) (other : Nat) :
    (vm.setThread tid thread).threads other =
      if other = tid then some thread else vm.threads other := by
  simp only [setThread, Function.update_apply]

theorem setThread_threads_self (vm : Vm) (tid : Nat) (thread : Thread) :
    (vm.setThread tid thread).threads tid = some thread := by
  simp

@[simp]
theorem setThread_setThread (vm : Vm) (tid : Nat) (first second : Thread) :
    (vm.setThread tid first).setThread tid second = vm.setThread tid second := by
  simp only [setThread, Function.update_idem]

@[simp]
theorem updateThread_frametable (vm : Vm) (tid : Nat) (change : Thread → Thread) :
    (vm.updateThread tid change).frametable = vm.frametable := rfl

@[simp]
theorem updateThread_swaptable (vm : Vm) (tid : Nat) (change : Thread → Thread) :
    (vm.updateThread tid change).swaptable = vm.swaptable := rfl

@[simp]
theorem updateThread_threads (vm : Vm) (tid : Nat) (change : Thread → Thread) (other : Nat) :
    (vm.updateThread tid change).threads other =
      if other = tid then (vm.threads tid).map change else vm.threads other := by
  simp only [updateThread, Function.update_apply]

end Vm

namespace Thread

/-- Apply `change` to the spinfo at position `index` (a write through the
`struct spinfo *` that `find_spinfo` returned). -/
def modifySpinfo (thread : Thread) (index : Nat) (change : Spinfo → Spinfo) : Thread :=
  { thread with spageTable := thread.spageTable.modify index change }

@[simp]
theorem modifySpinfo_pagedir (thread : Thread) (index : Nat) (change : Spinfo → Spinfo) :
    (thread.modifySpinfo index change).pagedir = thread.pagedir := rfl

@[simp]
theorem length_modifySpinfo (thread : Thread) (index : Nat) (change : Spinfo → Spinfo) :
    (thread.modifySpinfo index change).spageTable.length = thread.spageTable.length := by
  simp [modifySpinfo]

end Thread

theorem findSpinfo_spec {infoList : List Spinfo} {page index : Nat}
    (found : findSpinfo infoList page = some index) :
    ∃ inRange : index < infoList.length, infoList[index].upageAddress = page := by
  obtain ⟨inRange, matching, _⟩ := List.findIdx?_eq_some_iff_getElem.mp found
  exact ⟨inRange, by simpa using matching⟩

theorem findSpinfo_eq_none {infoList : List Spinfo} {page : Nat} :
    findSpinfo infoList page = none ↔ ∀ info ∈ infoList, info.upageAddress ≠ page := by
  simp [findSpinfo, List.findIdx?_eq_none_iff]

end Pintos

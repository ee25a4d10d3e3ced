import Mathlib
import Pintos.Vm.Process

/-!
# The page-fault handler

`page_fault` of `userprog/exception.c`, with `kill`.  The handler takes a frame
with `assign_page` before it looks at the faulting address; it then finds the
spinfo of the page, adds a STACK spinfo for an access that looks like stack
growth, and kills the thread when there is no spinfo, or when a read-only page
is written.  Otherwise it fills the frame from the file or from swap, maps it
and records it in the spinfo.

`kill` ends a user thread with `thread_exit` and panics on a fault taken in
kernel mode.
-/

namespace Pintos

/-- The byte the `FILE` branch of `page_fault` leaves at `offset` in the
frame: `bytes_to_read` bytes of the file from `file_offset`, then zeros. -/
def Spinfo.fileByte (info : Spinfo) (contents : List UInt8) (offset : Nat) : UInt8 :=
  if offset < info.bytesToRead then contents.getD (info.fileOffset + offset) 0 else 0

end Pintos

namespace Pintos.Vm

/-- `kill` for a page fault of thread `current`: the code segment of the faulting
context is the user's exactly when the fault was taken in user mode. -/
def kill (vm : Vm) (current : Nat) (user : Bool) : Except String Vm :=
  if user then vm.threadExit current
  else .error "Kernel bug - unexpected interrupt in kernel"

/-- The stack-growth heuristic of `page_fault` (and of `check_pointer`). -/
def isStackAccess (faultAddr espHolder : Nat) : Bool :=
  (faultAddr < physBase && espHolder ≤ faultAddr) || ptrSub espHolder 0x20 == faultAddr ||
    ptrSub espHolder 0x04 == faultAddr

/-- The spinfo `page_fault` creates for stack growth. -/
def stackSpinfo (faultAddr : Nat) : Spinfo :=
  { file := none, fileOffset := 0, bytesToRead := 0, writable := true,
    upageAddress := pgRoundDown faultAddr, kpageAddress := none, instructions := .stack,
    indexIntoSwap := -1 }

/-- The `FILE` branch: `file_seek` and `file_read` of `bytes_to_read` bytes into
the frame, a panic if fewer were read, then zeros to the end of the page. -/
def loadFromFile (vm : Vm) (info : Spinfo) (kpage : Nat) : Except String Vm := do
  let some file := info.file | throw "spage_info->file == NULL dereferenced"
  let bytes := ((vm.files file).drop info.fileOffset).take info.bytesToRead
  if bytes.length ≠ info.bytesToRead then
    let _ ← vm.freeFrame (some kpage)
    throw "reading the file failed in page fault handler"
  let memory := Memory.write vm.memory kpage bytes
  return { vm with
    memory := Memory.fill memory (kpage + info.bytesToRead) (pgsize - info.bytesToRead) 0 }

/-- The loading part of `page_fault`: fill the frame `kpage` from the file for a
FILE spinfo, from swap for a SWAP spinfo (freeing the slot and taking the kind
from the entry `free_metaswap_entry` returns), and leave it zeroed otherwise.
Returns the spinfo as updated, and the freed swap entry if there is one. -/
def fillFrame (vm : Vm) (info : Spinfo) (kpage : Nat) :
    Except String (Vm × Spinfo × Option MetaswapEntry) :=
  match info.instructions with
  | .file => do
      let vm ← vm.loadFromFile info kpage
      pure (vm, info, none)
  | .swap => do
      let vm ← vm.readFromSwap info.indexIntoSwap (some kpage)
      let (vm, freedEntry) ← vm.freeMetaswapEntry info.indexIntoSwap
      let info := { info with
        instructions := freedEntry.instructionsForPageheld
        indexIntoSwap := -1 }
      pure (vm, info, some freedEntry)
  | _ => pure (vm, info, none)

section Handler

variable (findSpinfoByKpage : List Spinfo → Option Nat → Option Nat)

/-- `page_fault` for thread `current` at `faultAddr`; `write` and `user` are the
`PF_W` and `PF_U` bits of the error code and `esp` is `f->esp`. -/
def pageFault (vm : Vm) (current faultAddr : Nat) (write user : Bool) (esp : Nat) :
    Except String Vm := do
  let (vm, kpage) ← assignPage findSpinfoByKpage vm current
  let some kpage := kpage | throw "assign_page page failed while loading from file"
  let some thread := vm.threads current | throw "thread_current freed"
  let espHolder := if user then esp else thread.personalEsp
  let fpageAddress := pgRoundDown faultAddr
  let found := findSpinfo thread.spageTable fpageAddress
  -- stack growth: a new STACK spinfo at the end of the table
  let (thread, found) :=
    if isStackAccess faultAddr espHolder ∧ found = none then
      ({ thread with spageTable := thread.spageTable ++ [stackSpinfo faultAddr] },
        some thread.spageTable.length)
    else (thread, found)
  let vm := vm.setThread current thread
  let some index := found | kill vm current user
  let some info := thread.spageTable[index]? | throw "spage_info out of range"
  if !info.writable && write then vm.threadExit current else
  let (vm, info, freed) ← vm.fillFrame info kpage
  -- map the frame and record it in the spinfo
  let some thread := vm.threads current | throw "thread_current freed"
  match ← installPage thread info.upageAddress kpage info.writable with
  | none => do
      let _ ← vm.freeFrame (some kpage)
      throw "install page failed."
  | some thread =>
      let thread := { thread with
        spageTable := thread.spageTable.set index { info with kpageAddress := some kpage } }
      let thread := match freed with
        | some entry =>
            { thread with pagedir := thread.pagedir.setDirty info.upageAddress entry.isdirty }
        | none => thread
      return vm.setThread current thread

end Handler

/-- Whatever kind the page had when it went to swap, the spinfo comes back
from swap as `USELESS`: `fillFrame` copies the kind from the entry
`free_metaswap_entry` has already reset. -/
theorem fillFrame_swap_useless {vm next : Vm} {info updated : Spinfo} {kpage : Nat}
    {freed : Option MetaswapEntry} (swapped : info.instructions = .swap)
    (filled : vm.fillFrame info kpage = .ok (next, updated, freed)) :
    updated.instructions = .useless := by
  unfold fillFrame at filled
  rw [swapped] at filled
  simp only [bind, Except.bind] at filled
  split at filled
  · cases filled
  split at filled
  · cases filled
  rename_i freedState freedEntry freeResult
  simp only [pure, Except.pure, Except.ok.injEq, Prod.mk.injEq] at filled
  obtain ⟨_, rfl, _⟩ := filled
  exact instructionsForPageheld_freeMetaswapEntry freeResult

theorem loadFromFile_eq_ok {vm next : Vm} {info : Spinfo} {kpage : Nat}
    (loaded : vm.loadFromFile info kpage = .ok next) :
    ∃ file, info.file = some file ∧
      let bytes := ((vm.files file).drop info.fileOffset).take info.bytesToRead
      bytes.length = info.bytesToRead ∧
        next = { vm with
          memory := Memory.fill (Memory.write vm.memory kpage bytes) (kpage + info.bytesToRead)
            (pgsize - info.bytesToRead) 0 } := by
  unfold loadFromFile at loaded
  cases fileEq : info.file with
  | none =>
      simp only [fileEq] at loaded
      cases loaded
  | some file =>
      simp only [fileEq, bind, Except.bind] at loaded
      split at loaded
      · split at loaded <;> cases loaded
      · rename_i read
        simp only [pure, Except.pure, Except.ok.injEq] at loaded
        exact ⟨file, rfl, not_not.mp read, loaded.symm⟩

theorem loadFromFile_memory {vm next : Vm} {info : Spinfo} {kpage offset : Nat}
    (loaded : vm.loadFromFile info kpage = .ok next) (fits : info.bytesToRead ≤ pgsize)
    (inPage : offset < pgsize) :
    ∃ file, info.file = some file ∧
      next.memory (kpage + offset) = info.fileByte (vm.files file) offset := by
  obtain ⟨file, fileEq, read, rfl⟩ := loadFromFile_eq_ok loaded
  refine ⟨file, fileEq, ?_⟩
  dsimp only
  unfold Spinfo.fileByte
  split
  · rename_i wasRead
    rw [Memory.fill_outside _ _ (by omega), Memory.write_inside _ _ (by rw [read]; exact wasRead)]
    simp [List.getD_eq_getElem?_getD, wasRead]
  · rename_i zeroed
    have shifted : kpage + offset = kpage + info.bytesToRead + (offset - info.bytesToRead) := by
      omega
    rw [shifted, Memory.fill_inside _ _ _ (by omega)]
end Pintos.Vm

import Mathlib
import Pintos.Vm.PageFault
import Pintos.Transition

/-!
# Demand paging as a transition system

The events are what happens to paging while processes run: a process starts
(`spawn`, with an empty supplemental page table and page directory), `load`
records a segment (`load_segment`) or sets up the stack (`setup_stack`), a
process reads or writes a byte of its memory, and a process exits
(`thread_exit`).  A user access the page tables permit is done by the MMU,
which sets the accessed bit and, on a write, the dirty bit; any other access
traps to `page_fault`, and the access is retried if the handler returned.

The initial states are those `init_frametable` and `swaptable_init` leave, with
an unused user pool and no process.
-/

namespace Pintos.Vm

/-- The events of demand paging. -/
inductive Event where
  | spawn (tid : Nat)
  | loadSegment (tid file ofs upage readBytes zeroBytes : Nat) (writable : Bool)
  | setupStack (tid : Nat) (argv : List (List UInt8))
  /-- A user-mode access with the user stack pointer `esp`; `byte` is written
  when `write` is set. -/
  | access (tid address : Nat) (write : Bool) (byte : UInt8) (esp : Nat)
  | exit (tid : Nat)

/-- What the MMU does for an access the page tables permit. -/
def perform (vm : Vm) (tid : Nat) (thread : Thread) (address : Nat) (write : Bool)
    (byte : UInt8) : Vm :=
  let memory := match thread.pagedir.getPage address with
    | some kaddr => if write then Memory.write vm.memory kaddr [byte] else vm.memory
    | none => vm.memory
  { vm.setThread tid { thread with pagedir := thread.pagedir.touch address write } with memory }

/-- A record for a new process: nothing recorded, nothing mapped. -/
def freshThread : Thread :=
  { spageTable := [], pagedir := Pagedir.empty, personalEsp := 0 }

section Step

variable (findSpinfoByKpage : List Spinfo → Option Nat → Option Nat)

/-- A user access: done at once if permitted, else after the page fault. -/
def userAccess (vm : Vm) (tid address : Nat) (write : Bool) (byte : UInt8) (esp : Nat) :
    Except String Vm := do
  let some thread := vm.threads tid | return vm
  if thread.pagedir.permits address write then
    return vm.perform tid thread address write byte
  let vm ← pageFault findSpinfoByKpage vm tid address write true esp
  match vm.threads tid with
  | some thread =>
      return if thread.pagedir.permits address write then
        vm.perform tid thread address write byte else vm
  | none => return vm

/-- One event.  Events of a thread that is not alive (or, for `spawn`, that is)
change nothing. -/
def step (vm : Vm) : Event → Except String Vm
  | .spawn tid =>
      if (vm.threads tid).isSome then .ok vm else .ok (vm.setThread tid freshThread)
  | .loadSegment tid file ofs upage readBytes zeroBytes writable =>
      if (vm.threads tid).isSome then
        vm.loadSegment tid file ofs upage readBytes zeroBytes writable
      else .ok vm
  | .setupStack tid argv =>
      if (vm.threads tid).isSome then
        (fun result => result.1) <$> vm.setupStack findSpinfoByKpage tid argv
      else .ok vm
  | .access tid address write byte esp => userAccess findSpinfoByKpage vm tid address write byte esp
  | .exit tid => if (vm.threads tid).isSome then vm.threadExit tid else .ok vm

/-- A `load_segment` call that returns is the event. -/
theorem step_loadSegment {vm next : Vm} {tid file ofs upage readBytes zeroBytes : Nat}
    {writable : Bool}
    (loaded : vm.loadSegment tid file ofs upage readBytes zeroBytes writable = .ok next) :
    step findSpinfoByKpage vm (.loadSegment tid file ofs upage readBytes zeroBytes writable) =
      .ok next := by
  obtain ⟨thread, alive, -⟩ := loadSegment_eq_ok loaded
  simp only [step, alive, Option.isSome_some, if_true]
  exact loaded

/-- A `setup_stack` call that returns is the event. -/
theorem step_setupStack {vm : Vm} {tid : Nat} {argv : List (List UInt8)} {result : Vm × Nat}
    (set : vm.setupStack findSpinfoByKpage tid argv = .ok result) :
    step findSpinfoByKpage vm (.setupStack tid argv) = .ok result.1 := by
  simp only [step, alive_of_setupStack findSpinfoByKpage set, if_true, set]
  rfl

end Step

/-- The swap-table entry `swaptable_init` writes at position `index`. -/
def emptyMetaswapEntry (index : Nat) : MetaswapEntry :=
  { swapIndex := index, isfilled := false, instructionsForPageheld := .useless, isdirty := false }

def emptyMetaframe : Metaframe := { isfilled := false, page := none, owner := none }

/-- The states paging starts from, for any number of frames and swap slots. -/
structure Initial (vm : Vm) : Prop where
  clockHand : vm.clockHand = 0
  frames : ∀ frame ∈ vm.frametable, frame = emptyMetaframe
  slots : ∀ (index : Nat) (inRange : index < vm.swaptable.length),
    vm.swaptable[index] = emptyMetaswapEntry index
  pool : ∀ bit ∈ vm.userPool.usedMap, bit = false
  threads : ∀ tid, vm.threads tid = none

/-- A state `init_frametable` and `swaptable_init` can leave: `numUserFrames`
empty frames, `swaptableSize` empty slots, the clock hand at 0 and no thread,
with memory and the swap device zeroed. -/
def init (numUserFrames swaptableSize : Nat) (userPool : Pool) (files : Nat → List UInt8) :
    Vm where
  frametable := List.replicate numUserFrames emptyMetaframe
  clockHand := 0
  swaptable := (List.range swaptableSize).map emptyMetaswapEntry
  swapBlock := fun _ => 0
  userPool
  memory := fun _ => 0
  threads := fun _ => none
  files

theorem initial_init {numUserFrames swaptableSize : Nat} {userPool : Pool}
    {files : Nat → List UInt8} (unused : ∀ bit ∈ userPool.usedMap, bit = false) :
    Initial (init numUserFrames swaptableSize userPool files) where
  clockHand := rfl
  frames := fun _ member => List.eq_of_mem_replicate member
  slots := fun index inRange => by simp [init]
  pool := unused
  threads := fun _ => rfl

def Reachable (findSpinfoByKpage : List Spinfo → Option Nat → Option Nat) : Vm → Prop :=
  Transition.Reachable Initial (step findSpinfoByKpage)

end Pintos.Vm

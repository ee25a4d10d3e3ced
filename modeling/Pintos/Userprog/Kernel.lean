import Mathlib
import Pintos.Userprog.Syscall
import Pintos.Vm.Invariants

/-!
# The kernel as a transition system

The events are those of demand paging (a process starts, records a segment,
sets up its stack, touches its memory in user mode, or exits) and the system
calls of the processes.  Each system call runs to its end or to its stop as
one step: between calls no thread holds `syscall_lock`, unless one ended while
it held it.  That makes `close_h` and `thread_exit` whole steps too, although
they hold no lock; `Filesys.Race` shows the interleaving this hides, an exit
that frees an inode a locked `open_h` is about to reopen.  No program is
loaded: `exec_h` reaches `process_execute` and no further, so no process has a
`code_file`.

Processes keep in step with paging: a thread `spawn` starts gets a process as
`thread_create` leaves it, and a thread that paging ended (killed by
`page_fault`, or exiting) closes its files as `thread_exit` does.

The initial states are those of paging, with a file system as
`filesys_init (true)` formats it, no process, and `syscall_lock` free.
-/

namespace Pintos.Kernel

/-- The events of the kernel. -/
inductive Event where
  | paging (event : Vm.Event)
  /-- Thread `tid` traps to `syscall_handler` with user stack pointer `esp`. -/
  | syscall (tid esp : Nat)

def pagingTid : Vm.Event → Nat
  | .spawn tid => tid
  | .loadSegment tid .. => tid
  | .setupStack tid .. => tid
  | .access tid .. => tid
  | .exit tid => tid

/-- Keep the processes in step with paging after a paging event of `tid`. -/
def afterPaging (k : Kernel) (vm : Vm) (tid : Nat) : Except String Kernel :=
  match vm.threads tid, k.procs tid with
  | some _, none => .ok { k with vm, procs := Function.update k.procs tid (some Proc.fresh) }
  | none, some _ => { k with vm }.exitFiles tid
  | _, _ => .ok { k with vm }

section Step

variable (findSpinfoByKpage : List Spinfo → Option Nat → Option Nat)

/-- One event.  After `shutdown_power_off` nothing happens; a system call of a
thread that is not a live process changes nothing. -/
def step (k : Kernel) (event : Event) : Except String Kernel :=
  if k.poweredOff then .ok k
  else
    match event with
    | .paging event => do
        let vm ← Vm.step findSpinfoByKpage k.vm event
        k.afterPaging vm (pagingTid event)
    | .syscall tid esp =>
        if (k.vm.threads tid).isSome && (k.procs tid).isSome then
          (fun result => result.2) <$> (syscallHandler findSpinfoByKpage tid esp).run.run k
        else .ok k

end Step

structure Initial (k : Kernel) : Prop where
  vm : Vm.Initial k.vm
  fs : ∃ sectorCount, Filesys.filesysInit sectorCount = .ok k.fs
  procs : ∀ tid, k.procs tid = none
  syscallLock : k.syscallLock = none
  console : k.console = []
  keysRead : k.keysRead = 0
  poweredOff : k.poweredOff = false

def Reachable (findSpinfoByKpage : List Spinfo → Option Nat → Option Nat) : Kernel → Prop :=
  Transition.Reachable Initial (step findSpinfoByKpage)

/-- A kernel as it starts, on paging `vm` and file system `fs`. -/
def boot (vm : Vm) (fs : Filesys) (keyboard : Nat → UInt8) (ramPages : Nat)
    (ramPages_le : ramPages ≤ 0x4000) : Kernel where
  vm
  fs
  procs := fun _ => none
  syscallLock := none
  console := []
  keyboard
  keysRead := 0
  poweredOff := false
  ramPages
  ramPages_le

theorem initial_boot {vm : Vm} {fs : Filesys} {keyboard : Nat → UInt8} {ramPages : Nat}
    {ramPages_le : ramPages ≤ 0x4000} {sectorCount : Nat} (started : Vm.Initial vm)
    (formatted : Filesys.filesysInit sectorCount = .ok fs) :
    Initial (boot vm fs keyboard ramPages ramPages_le) where
  vm := started
  fs := ⟨sectorCount, formatted⟩
  procs := fun _ => rfl
  syscallLock := rfl
  console := rfl
  keysRead := rfl
  poweredOff := rfl

/-! ## Runs from a small machine -/

/-- A machine of 4 MB with four user frames, four swap slots and a keyboard of
spaces. -/
def smallMachine : Kernel :=
  boot (Vm.init 4 4 (Vm.freshUserPool 4) fun _ => []) Filesys.formatted64 (fun _ => 0x20) 0x400
    (by decide)

theorem initial_smallMachine : Initial smallMachine :=
  initial_boot (Vm.initial_init (by decide)) Filesys.filesysInit_formatted64

/-- User-mode stores of a 32-bit word, least significant byte first. -/
def storeWord (tid address value esp : Nat) : List Event :=
  (wordBytes value).zipIdx.map fun (byte, i) => .paging (.access tid (address + i) true byte esp)

/-- A system call: the user stores the call number and the argument words at
`esp` and traps. -/
def callWith (tid esp : Nat) (words : List Nat) : List Event :=
  (words.zipIdx.flatMap fun (word, n) => storeWord tid (esp + 4 * n) word esp) ++
    [.syscall tid esp]

/-- A process with its stack set up and the argument `"a"` on it. -/
def startedProcess : List Event :=
  [.paging (.spawn 1), .paging (.setupStack 1 [[0x61]])]

/-- A process's first system call traps with the stack pointer at the top of
the address space.  `check_pointer` lets the pointer through as a stack access
below the null `personal_esp`, and loading the call number faults in kernel
mode on an address no page table maps. -/
theorem syscall_panics_on_top_stack_pointer :
    ∃ k, Reachable Vm.firstSpinfoByKpage k ∧ (k.procs 1).isSome ∧
      step Vm.firstSpinfoByKpage k (.syscall 1 0xfffffffc) =
        .error "Kernel bug - unexpected interrupt in kernel" := by
  have panics : Transition.runSatisfies (step Vm.firstSpinfoByKpage) smallMachine
      startedProcess (fun k => (k.procs 1).isSome &&
        Transition.stopsWith (step Vm.firstSpinfoByKpage k (.syscall 1 0xfffffffc))
          "Kernel bug - unexpected interrupt in kernel") = true := by
    decide +kernel
  obtain ⟨k, reached, holds⟩ := Transition.Reachable.of_runSatisfies initial_smallMachine panics
  rw [Bool.and_eq_true] at holds
  exact ⟨k, reached, holds.1, Transition.eq_error_of_stopsWith holds.2⟩

/-- The page of a read-only code segment. -/
def codePage : Nat := 0x08048000

/-- Where the process puts its system call frames, in its stack page. -/
def frameEsp : Nat := physBase - 0x100

/-- The string `"a"` that `setup_stack` stored for the process's argument. -/
def nameAddress : Nat := physBase - 2

/-- The process maps a read-only code page, creates and opens the file `"a"`
(descriptor 2), and reads the file into its code page.  `read_h` holds
`syscall_lock` while `file_read` stores into the page; the store faults, and
`page_fault` ends the thread for writing a read-only page. -/
def lockLostRun : List Event :=
  [.paging (.spawn 1), .paging (.loadSegment 1 0 0 codePage 0 pgsize false),
    .paging (.setupStack 1 [[0x61]]), .paging (.access 1 codePage false 0 frameEsp)] ++
  callWith 1 frameEsp [4, nameAddress, 10] ++
  callWith 1 frameEsp [6, nameAddress] ++
  callWith 1 frameEsp [8, 2, codePage, 10]

theorem thread_dies_holding_syscall_lock :
    ∃ k holder, Reachable Vm.firstSpinfoByKpage k ∧ k.syscallLock = some holder ∧
      k.procs holder = none ∧ k.vm.threads holder = none ∧
      ∀ current, current ≠ holder →
        (lockAcquire current).run.run k = .ok (.error (.blocked holder), k) := by
  have lost : Transition.runSatisfies (step Vm.firstSpinfoByKpage) smallMachine lockLostRun
      (fun k => k.syscallLock == some 1 && (k.procs 1).isNone && (k.vm.threads 1).isNone) =
      true := by
    decide +kernel
  obtain ⟨k, reached, holds⟩ := Transition.Reachable.of_runSatisfies initial_smallMachine lost
  simp only [Bool.and_eq_true, beq_iff_eq, Option.isNone_iff_eq_none] at holds
  obtain ⟨⟨held, noProc⟩, noThread⟩ := holds
  exact ⟨k, 1, reached, held, noProc, noThread, fun current other =>
    lockAcquire_blocked held (Ne.symm other)⟩

end Pintos.Kernel

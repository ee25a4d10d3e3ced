import Mathlib
import Pintos.Control
import Pintos.Vm.System
import Pintos.Filesys.File

/-!
# System calls

`userprog/syscall.c`.  The handler of interrupt `0x30` checks the user stack
pointer with `check_pointer`, reads the call number and the argument words
from the user stack, checks each with `check_pointer`, and runs the call's
helper.

The kernel touches user memory with ordinary loads and stores, taken here one
byte at a time.  A user address the page tables permit is read or written at
once (the MMU sets the accessed and dirty bits); any other access traps to
`page_fault` in kernel mode, which maps the page, ends the thread, or panics.
The kernel's own page tables map the first `ramPages` pages of physical memory
from `PHYS_BASE` on (`paging_init`), and `start.S` caps memory at 64 MB, 0x4000 pages.

The kernel state adds to paging the file system, the part of each `struct
thread` that system calls use, `syscall_lock` (the thread holding it), the
console, the keyboard, and whether the machine was powered off.  Kernel code
runs in `KernelM`: it changes the state, may stop the call (`Stop`: the thread
ended, waits for `syscall_lock`, or loops forever), and may stop the machine
with an error (a panic or a failed assertion).

`exec` and `wait` end here with what `process_execute` and `process_wait` are
asked for; the exec and wait protocols are modelled on their own.  The
status holder `exit_h` writes belongs to the wait protocol too.
-/

namespace Pintos

def maxFiles : Nat := 128

def maxArgs : Nat := 25

def stdinFileno : Int := 0

def stdoutFileno : Int := 1

/-- A 32-bit word read as a C `int`. -/
def toInt32 (word : Nat) : Int :=
  if word < 2 ^ 31 then word else (word : Int) - 2 ^ 32

/-- The 32-bit word holding a C `int` (or `unsigned`), as `eax` holds it. -/
def wordOfInt (value : Int) : Nat := (value % 2 ^ 32).toNat

def ptrAdd (ptr n : Nat) : Nat := (ptr + n) % 2 ^ 32

/-- The longest string a loop over user memory reads: the address space. -/
def stringFuel : Nat := 2 ^ 32

/-- The `struct thread` fields of a process that its system calls use. -/
structure Proc where
  /-- `open_files`, by file descriptor (`MAX_FILES` slots). -/
  openFiles : List (Option Nat)
  indexFd : Nat
  codeFile : Option Nat
  statusNumber : Int
  deriving DecidableEq, Repr

/-- A process as `init_thread` and `thread_create` leave it. -/
def Proc.fresh : Proc where
  openFiles := List.replicate maxFiles none
  indexFd := 2
  codeFile := none
  statusNumber := -1

/-- The kernel.  The keys `input_getc` returns are `keyboard 0`, `keyboard 1`,
and so on, of which `keysRead` are gone. -/
structure Kernel where
  vm : Vm
  fs : Filesys
  procs : Nat → Option Proc
  /-- The thread holding `syscall_lock`. -/
  syscallLock : Option Nat
  /-- What `putbuf` printed. -/
  console : List UInt8
  keyboard : Nat → UInt8
  keysRead : Nat
  poweredOff : Bool
  ramPages : Nat
  ramPages_le : ramPages ≤ 0x4000

/-- How a system call stops before it returns. -/
inductive Stop where
  /-- The thread ended (`thread_exit`). -/
  | exited
  /-- The thread waits for `syscall_lock`, which `holder` holds. -/
  | blocked (holder : Nat)
  /-- The thread loops forever in the kernel. -/
  | loops
  deriving DecidableEq, Repr

abbrev KernelM := ExceptT Stop (StateT Kernel (Except String))

/-- The system call numbers of `lib/syscall-nr.h` that the handler's `switch`
has a case for. -/
inductive SyscallNumber where
  | sysHalt
  | sysExit
  | sysExec
  | sysWait
  | sysCreate
  | sysRemove
  | sysOpen
  | sysFilesize
  | sysRead
  | sysWrite
  | sysSeek
  | sysTell
  | sysClose
  deriving DecidableEq, Repr

def SyscallNumber.ofInt (number : Int) : Option SyscallNumber :=
  if number < 0 then none
  else
    [.sysHalt, .sysExit, .sysExec, .sysWait, .sysCreate, .sysRemove, .sysOpen, .sysFilesize,
      .sysRead, .sysWrite, .sysSeek, .sysTell, .sysClose][number.toNat]?

/-- What a system call that returns leaves for the user, or asks of the process
code. -/
inductive Outcome where
  /-- The call returns; `f->eax` is set to `eax`, or left alone. -/
  | returned (eax : Option Nat)
  | halted
  /-- `process_execute` of the command line, past its length check. -/
  | exec (fileName : List UInt8)
  | wait (tid : Int)
  deriving DecidableEq, Repr

/-- `find_open_file`: the file of a descriptor in range. -/
def Proc.findOpenFile (proc : Proc) (fd : Int) : Option Nat :=
  if fd < 0 ∨ (maxFiles : Int) ≤ fd then none else proc.openFiles[fd.toNat]?.join

/-- The loop of `assign_fd` from descriptor `i`: the first free slot.  After
the last slot the source sets `i = 2` and its `i++` follows, so the search goes
on from 3.  `none` when `fuel` slots were visited without finding one. -/
def assignFdLoop (files : List (Option Nat)) : Nat → Nat → Option Nat
  | _, 0 => none
  | i, fuel + 1 =>
      if i < maxFiles then
        if files[i]?.join = none then some i
        else assignFdLoop files (if i = maxFiles - 1 then 3 else i + 1) fuel
      else none

/-- `assign_fd`: the file goes into the first free slot from `index_fd` on,
which becomes `index_fd`.  Two turns of the table visit every slot the loop
ever visits, so with no free slot among them the loop never ends (`none`). -/
def Proc.assignFd (proc : Proc) (newFile : Nat) : Option Proc :=
  match assignFdLoop proc.openFiles proc.indexFd (2 * maxFiles) with
  | some i => some { proc with openFiles := proc.openFiles.set i (some newFile), indexFd := i }
  | none => none

/-- From descriptor 3 on, the loop of `assign_fd` never comes back to slot 2:
with slots 3 to 127 taken it finds nothing, however long it runs. -/
theorem assignFdLoop_eq_none_of_taken {files : List (Option Nat)}
    (taken : ∀ j, 3 ≤ j → j < maxFiles → files[j]?.join ≠ none) :
    ∀ (fuel i : Nat), 3 ≤ i → assignFdLoop files i fuel = none := by
  intro fuel
  induction fuel with
  | zero =>
      intro i _
      rfl
  | succ fuel inductionHypothesis =>
      intro i start
      unfold assignFdLoop
      by_cases inRange : i < maxFiles
      · -- the slot under `i` is taken, and the next `i` is 3 or `i + 1`
        have next : 3 ≤ (if i = maxFiles - 1 then 3 else i + 1) := by
          split <;> omega
        rw [if_pos inRange, if_neg (taken i start inRange)]
        exact inductionHypothesis _ next
      · rw [if_neg inRange]

/-- `assign_fd` from an `index_fd` of 3 or more, with slots 3 to 127 taken,
spins for ever, also when slot 2 is free. -/
theorem assignFd_spins_past_slot_two {proc : Proc}
    (taken : ∀ j, 3 ≤ j → j < maxFiles → proc.openFiles[j]?.join ≠ none)
    (start : 3 ≤ proc.indexFd) (newFile : Nat) :
    (∀ fuel, assignFdLoop proc.openFiles proc.indexFd fuel = none) ∧
      proc.assignFd newFile = none := by
  have spins := fun fuel => assignFdLoop_eq_none_of_taken taken fuel proc.indexFd start
  refine ⟨spins, ?_⟩
  unfold Proc.assignFd
  rw [spins]

/-- The table after 126 opens and a `close (2)`: slot 2 is free, `index_fd`
is 127. -/
def slotTwoFree : Proc :=
  { Proc.fresh with
    openFiles := [none, none, none] ++ List.replicate (maxFiles - 3) (some 0)
    indexFd := maxFiles - 1 }

theorem slotTwoFree_spins :
    slotTwoFree.openFiles[2]?.join = none ∧
      (∀ fuel, assignFdLoop slotTwoFree.openFiles slotTwoFree.indexFd fuel = none) ∧
      slotTwoFree.assignFd 0 = none := by
  have taken : ∀ j, 3 ≤ j → j < maxFiles → slotTwoFree.openFiles[j]?.join ≠ none := by
    intro j low high
    have past : ([none, none, none] : List (Option Nat)).length ≤ j := low
    rw [slotTwoFree, List.getElem?_append_right past, List.getElem?_replicate,
      if_pos (by simp [maxFiles] at high ⊢; omega)]
    simp
  exact ⟨rfl, assignFd_spins_past_slot_two taken (by decide) 0⟩

/-- `find_fd`: the first descriptor from 2 on that holds `target`. -/
def findFd (files : List (Option Nat)) (target : Nat) : Int :=
  match (files.drop 2).findIdx? fun file => file == some target with
  | some i => i + 2
  | none => -1

/-- `close_files`: close the file of every descriptor from 2 on. -/
def closeFiles (fs : Filesys) (files : List (Option Nat)) : Except String Filesys :=
  (files.drop 2).foldlM Filesys.fileClose fs

namespace Kernel

/-- Whether the kernel's page tables map a kernel virtual address. -/
def kernelMapped (k : Kernel) (address : Nat) : Bool :=
  physBase ≤ address && address < physBase + k.ramPages * pgsize

/-- The part of `thread_exit` after paging: `file_close` of the executable,
`close_files`, and the thread is gone.  Nothing here releases `syscall_lock`. -/
def exitFiles (k : Kernel) (current : Nat) : Except String Kernel := do
  let some proc := k.procs current | throw "thread_current freed"
  let fs ← k.fs.fileClose proc.codeFile
  let fs ← closeFiles fs proc.openFiles
  return { k with fs, procs := Function.update k.procs current none }

/-- `thread_exit` of `current`: paging is torn down, then `exitFiles`. -/
def threadExit (k : Kernel) (current : Nat) : Except String Kernel := do
  let vm ← k.vm.threadExit current
  { k with vm }.exitFiles current

def currentProc (current : Nat) : KernelM Proc := do
  let some proc := (← get).procs current | throwThe String "thread_current freed"
  return proc

def setProc (current : Nat) (proc : Proc) : KernelM Unit :=
  modify fun k => { k with procs := Function.update k.procs current (some proc) }

/-- The end of a thread whose paging `page_fault` has already torn down. -/
def endThread {α : Type} (current : Nat) : KernelM α := do
  set (← (← get).exitFiles current)
  throwThe Stop .exited

/-- `exit_h`: record the status and end the thread. -/
def exitH {α : Type} (current : Nat) (status : Int) : KernelM α := do
  let k ← get
  let k := { k with
    procs := Function.update k.procs current
      ((k.procs current).map fun (proc : Proc) => { proc with statusNumber := status }) }
  set (← k.threadExit current)
  throwThe Stop .exited

/-- Whether `check_pointer` lets a pointer through: a mapped user address, or
else one that looks like stack growth against `personal_esp` or whose page a
spinfo covers. -/
def pointerPasses (thread : Thread) (pointer : Nat) : Bool :=
  !(isKernelVaddr pointer || thread.pagedir.getPage pointer == none) ||
    Vm.isStackAccess pointer thread.personalEsp ||
    findSpinfo thread.spageTable (pgRoundDown pointer) != none

/-- `check_pointer`: only the pointer's own byte is looked at; a pointer that
does not pass ends the thread with status -1. -/
def checkPointer (current pointer : Nat) : KernelM Unit := do
  let some thread := (← get).vm.threads current | throwThe String "thread_current freed"
  if !pointerPasses thread pointer then exitH current (-1)

def lockAcquire (current : Nat) : KernelM Unit := do
  let k ← get
  match k.syscallLock with
  | some holder =>
      if holder = current then
        throwThe String "assertion !lock_held_by_current_thread (lock) failed"
      else throwThe Stop (.blocked holder)
  | none => set { k with syscallLock := some current }

/-- A thread that asks for `syscall_lock` while another holds it waits, and
nothing changes. -/
theorem lockAcquire_blocked {k : Kernel} {holder current : Nat}
    (held : k.syscallLock = some holder) (other : holder ≠ current) :
    (lockAcquire current).run.run k = .ok (.error (.blocked holder), k) := by
  simp only [lockAcquire, Control.run_bind, Control.run_get, held, if_neg other,
    Control.run_throwStop]

def lockRelease (current : Nat) : KernelM Unit := do
  let k ← get
  if k.syscallLock = some current then set { k with syscallLock := none }
  else throwThe String "assertion lock_held_by_current_thread (lock) failed"

def withFs {α : Type} (operation : Filesys → Except String (Filesys × α)) : KernelM α := do
  let k ← get
  let (fs, result) ← operation k.fs
  set { k with fs }
  return result

section Calls

variable (findSpinfoByKpage : List Spinfo → Option Nat → Option Nat)

/-- `page_fault` for a kernel access of `current` to `address`: the page is
mapped as the access needs, or the thread ended, or the machine stopped. -/
def kernelPageFault (current address : Nat) (write : Bool) : KernelM Thread := do
  let k ← get
  -- `f->esp` is the kernel's stack pointer here: the handler uses `personal_esp`
  let vm ← Vm.pageFault findSpinfoByKpage k.vm current address write false 0
  set { k with vm }
  match vm.threads current with
  | none => endThread current
  | some thread =>
      if thread.pagedir.permits address write then return thread
      else throwThe String "the access faults again"

/-- A kernel load at `address` on behalf of `current` (or, with `write`, a
store of `byte`): the byte loaded or stored. -/
def kernelAccess (current address : Nat) (write : Bool) (byte : UInt8) : KernelM UInt8 := do
  let k ← get
  if k.kernelMapped address then
    if write then
      set { k with vm := { k.vm with memory := Memory.write k.vm.memory address [byte] } }
      return byte
    else return k.vm.memory address
  let some thread := k.vm.threads current | throwThe String "thread_current freed"
  let thread ← if thread.pagedir.permits address write then pure thread
    else kernelPageFault findSpinfoByKpage current address write
  let k ← get
  let some kaddr := thread.pagedir.getPage address | throwThe String "the access faults again"
  set { k with vm := k.vm.perform current thread address write byte }
  return if write then byte else k.vm.memory kaddr

def readUserBytes (current address : Nat) : Nat → KernelM (List UInt8)
  | 0 => return []
  | count + 1 => do
      let byte ← kernelAccess findSpinfoByKpage current address false 0
      let rest ← readUserBytes current (ptrAdd address 1) count
      return byte :: rest

def writeUserBytes (current address : Nat) : List UInt8 → KernelM Unit
  | [] => return ()
  | byte :: rest => do
      let _ ← kernelAccess findSpinfoByKpage current address true byte
      writeUserBytes current (ptrAdd address 1) rest

/-- The string at `address` without its null byte, as `strlen` walks it. -/
def readUserString (current address : Nat) : Nat → KernelM (List UInt8)
  | 0 => return []
  | fuel + 1 => do
      let byte ← kernelAccess findSpinfoByKpage current address false 0
      if byte = 0 then return []
      let rest ← readUserString current (ptrAdd address 1) fuel
      return byte :: rest

def readWord (current address : Nat) : KernelM Nat := do
  let bytes ← readUserBytes findSpinfoByKpage current address 4
  return bytes.foldr (fun byte word => byte.toNat + 0x100 * word) 0

/-- The loop of `read_h` on the keyboard: `count` keys from `input_getc`,
stored from `address` on. -/
def inputLoop (current address : Nat) : Nat → KernelM Unit
  | 0 => return ()
  | count + 1 => do
      let k ← get
      let key := k.keyboard k.keysRead
      set { k with keysRead := k.keysRead + 1 }
      let _ ← kernelAccess findSpinfoByKpage current address true key
      inputLoop current (ptrAdd address 1) count

/-- `exec_h`: `process_execute` measures the command line under
`syscall_lock` and panics when it cannot fit the stack page. -/
def execH (current cmdLine : Nat) : KernelM Outcome := do
  checkPointer current cmdLine
  lockAcquire current
  let fileName ← readUserString findSpinfoByKpage current cmdLine stringFuel
  if 4096 - (19 + maxArgs * 4) < fileName.length then
    throwThe String "Not enough space for arguments"
  lockRelease current
  return .exec fileName

/-- `create_h`: `filesys_create` of the name with `(off_t) initial_size`. -/
def createH (current file initialSize : Nat) : KernelM Bool := do
  checkPointer current file
  lockAcquire current
  let name ← readUserString findSpinfoByKpage current file stringFuel
  let success ← withFs fun fs => fs.filesysCreate name (toInt32 initialSize)
  lockRelease current
  return success

def removeH (current file : Nat) : KernelM Bool := do
  checkPointer current file
  lockAcquire current
  let name ← readUserString findSpinfoByKpage current file stringFuel
  let success ← withFs fun fs => fs.filesysRemove name
  lockRelease current
  return success

/-- `open_h`: the new file gets a descriptor with `assign_fd`, found again by
`find_fd`. -/
def openH (current file : Nat) : KernelM Int := do
  checkPointer current file
  lockAcquire current
  let name ← readUserString findSpinfoByKpage current file stringFuel
  let openFile ← withFs fun fs => fs.filesysOpen name
  lockRelease current
  match openFile with
  | none => return -1
  | some openFile =>
      match (← currentProc current).assignFd openFile with
      | none => throwThe Stop .loops
      | some proc =>
          setProc current proc
          return findFd proc.openFiles openFile

/-- `filesize_h`, which takes no lock. -/
def filesizeH (current : Nat) (fd : Int) : KernelM Int := do
  match (← currentProc current).findOpenFile fd with
  | some file => (← get).fs.fileLength file
  | none => return -1

/-- `read_h`: keys for descriptor 0, else `file_read` under `syscall_lock`
with `(off_t) size`, which stores what it read into the buffer. -/
def readH (current : Nat) (fd : Int) (buffer size : Nat) : KernelM Int := do
  checkPointer current buffer
  if fd = stdinFileno then
    -- `for (i = 0; i < (int) size; i++)`
    inputLoop findSpinfoByKpage current buffer (toInt32 size).toNat
    return toInt32 size
  match (← currentProc current).findOpenFile fd with
  | none => return -1
  | some file =>
      lockAcquire current
      let bytes ← withFs fun fs => fs.fileRead file (toInt32 size)
      writeUserBytes findSpinfoByKpage current buffer bytes
      lockRelease current
      return bytes.length

/-- `write_h`: `putbuf` for descriptor 1, else `file_write` under
`syscall_lock` with `(off_t) size`, which loads from the buffer as many bytes
as it writes. -/
def writeH (current : Nat) (fd : Int) (buffer size : Nat) : KernelM Int := do
  checkPointer current buffer
  if fd = stdoutFileno then
    let bytes ← readUserBytes findSpinfoByKpage current buffer size
    modify fun k => { k with console := k.console ++ bytes }
    return toInt32 size
  match (← currentProc current).findOpenFile fd with
  | none => return -1
  | some file =>
      lockAcquire current
      -- how many bytes `inode_write_at` copies does not depend on what they are
      let (_, count) ← (← get).fs.fileWrite file [] (toInt32 size)
      let bytes ← readUserBytes findSpinfoByKpage current buffer count.toNat
      let written ← withFs fun fs => fs.fileWrite file bytes (toInt32 size)
      lockRelease current
      return written

/-- `seek_h`: `file_seek` with `(off_t) position`. -/
def seekH (current : Nat) (fd : Int) (position : Nat) : KernelM Int := do
  match (← currentProc current).findOpenFile fd with
  | none => return -1
  | some file =>
      lockAcquire current
      withFs fun fs => do
        let fs ← fs.fileSeek file (toInt32 position)
        return (fs, ())
      lockRelease current
      return 1

def tellH (current : Nat) (fd : Int) : KernelM Int := do
  match (← currentProc current).findOpenFile fd with
  | none => return -1
  | some file =>
      lockAcquire current
      let position ← (← get).fs.fileTell file
      lockRelease current
      return position

/-- `close_h`: the slot is cleared and the file closed, without
`syscall_lock`. -/
def closeH (current : Nat) (fd : Int) : KernelM Int := do
  let proc ← currentProc current
  match proc.findOpenFile fd with
  | none => return -1
  | some file =>
      setProc current { proc with openFiles := proc.openFiles.set fd.toNat none }
      withFs fun fs => do
        let fs ← fs.fileClose (some file)
        return (fs, ())
      return 1

def returnsInt (value : Int) : Outcome := .returned (some (wordOfInt value))

/-- `syscall_handler` for thread `current` trapping with stack pointer
`esp`.  Argument `n` is the word at `esp + 4 * n`. -/
def syscallHandler (current esp : Nat) : KernelM Outcome := do
  checkPointer current esp
  modify fun k => { k with
    vm := k.vm.updateThread current fun thread => { thread with personalEsp := esp } }
  let word := fun n => readWord findSpinfoByKpage current (ptrAdd esp (4 * n))
  let check := fun n => checkPointer current (ptrAdd esp (4 * n))
  let number := toInt32 (← word 0)
  match SyscallNumber.ofInt number with
  | some .sysHalt =>
      modify fun k => { k with poweredOff := true }
      return .halted
  | some .sysExit =>
      check 1
      exitH current (toInt32 (← word 1))
  | some .sysExec =>
      check 1
      execH findSpinfoByKpage current (← word 1)
  | some .sysWait =>
      check 1
      return .wait (toInt32 (← word 1))
  | some .sysCreate =>
      check 1
      check 2
      let initialSize ← word 2
      let success ← createH findSpinfoByKpage current (← word 1) initialSize
      return returnsInt (if success then 1 else 0)
  | some .sysRemove =>
      check 1
      let success ← removeH findSpinfoByKpage current (← word 1)
      return returnsInt (if success then 1 else 0)
  | some .sysOpen =>
      check 1
      returnsInt <$> openH findSpinfoByKpage current (← word 1)
  | some .sysFilesize =>
      check 1
      returnsInt <$> filesizeH current (toInt32 (← word 1))
  | some .sysRead =>
      check 1
      check 2
      check 3
      let fd := toInt32 (← word 1)
      let size ← word 3
      returnsInt <$> readH findSpinfoByKpage current fd (← word 2) size
  | some .sysWrite =>
      check 1
      check 2
      check 3
      let fd := toInt32 (← word 1)
      let size ← word 3
      returnsInt <$> writeH findSpinfoByKpage current fd (← word 2) size
  | some .sysSeek =>
      check 1
      check 2
      let fd := toInt32 (← word 1)
      returnsInt <$> seekH current fd (← word 2)
  | some .sysTell =>
      check 1
      returnsInt <$> tellH current (toInt32 (← word 1))
  | some .sysClose =>
      check 1
      returnsInt <$> closeH current (toInt32 (← word 1))
  | none => return .returned none

end Calls

end Kernel

end Pintos

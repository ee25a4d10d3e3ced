import Mathlib
import Pintos.Filesys.File
import Pintos.Transition

/-!
# Opening files from several threads

Who calls the file system, and under which lock: `open_h`, `write_h` and
`create_h` hold `syscall_lock` around `filesys_open`, `file_write` and
`filesys_create`; `load` calls `filesys_open` and `file_deny_write` without
taking it, but `exec_h` holds it across `process_execute`, whose `sema_down`
waits for the child's `load` to finish, so a load runs under its parent's lock.
`thread_exit` closes the executable and the open files with no lock at all.

A step here is one call made whole, except `filesys_open`, which is cut where
`inode_open` has finished its loop over `open_inodes` and not yet reopened the
inode it found or pushed a new one: another thread may run there, and only an
exit can, since the opener holds the lock.  Running the two halves back to back
is `inode_open` (`inodeOpen_eq_finish`).
-/

namespace Pintos.Filesys

/-- Where a process is in its use of the file system. -/
inductive RacePc where
  | idle
  /-- Inside `filesys_open` (for `load` when `forLoad`), with the root
  directory open as `dir`: `inode_open` of `sector` has found `found`. -/
  | opening (forLoad : Bool) (dir sector : Nat) (found : Option Nat)
  deriving DecidableEq, Repr

/-- The inode `inode_open` has found in its loop, if any. -/
def RacePc.found : RacePc → Option Nat
  | .idle => none
  | .opening _ _ _ found => found

/-- A process: where it is, its `code_file`, and the files it opened. -/
structure RaceProc where
  pc : RacePc
  codeFile : Option Nat
  openFiles : List Nat
  deriving DecidableEq, Repr

structure Race where
  fs : Filesys
  procs : Nat → Option RaceProc
  /-- The process inside `filesys_open` (or whose load it is) or holding
  `syscall_lock` for a whole call; a load's lock is its parent's. -/
  syscallLock : Option Nat

inductive RaceEvent where
  | start (t : Nat)
  | create (t : Nat) (name : List UInt8) (initialSize : Int)
  /-- `filesys_open` of `name`, up to the end of the loop of `inode_open`. -/
  | openBegin (t : Nat) (name : List UInt8) (forLoad : Bool)
  /-- The rest of `filesys_open`; for `load`, `code_file` and
  `file_deny_write`, else the new descriptor's file. -/
  | openEnd (t : Nat)
  /-- `write_h` of `bytes` to the process's file `file`. -/
  | write (t file : Nat) (bytes : List UInt8)
  /-- The end of `thread_exit`: `file_close` of `code_file`, `close_files`. -/
  | exit (t : Nat)
  deriving DecidableEq, Repr

def RaceEvent.thread : RaceEvent → Nat
  | .start t | .create t .. | .openBegin t .. | .openEnd t | .write t .. | .exit t => t

/-- The first half of `filesys_open` of `name`: `dir_open_root`, the lookup,
and the loop of `inode_open` for the entry's sector.  Without an entry,
`filesys_open` returns a null pointer: the directory is closed and nothing is
open (`none`). -/
def openBegin (fs : Filesys) (name : List UInt8) (forLoad : Bool) :
    Except String (Filesys × Option RacePc) := do
  let (fs, dir) ← fs.dirOpenRoot
  match fs.lookup name >>= fun index => fs.rootDir[index]? with
  | some entry =>
      return (fs, some (.opening forLoad dir entry.inodeSector (fs.findOpenInode entry.inodeSector)))
  | none => do
      let fs ← fs.dirClose dir
      return (fs, none)

/-- The second half: the end of `inode_open`, `dir_close` and `file_open`. -/
def openEnd (fs : Filesys) (dir sector : Nat) (found : Option Nat) :
    Except String (Filesys × Nat) := do
  let (fs, inode) ← fs.inodeOpenFinish sector found
  let fs ← fs.dirClose dir
  let (fs, file) := fs.fileOpen (some inode)
  match file with
  | some file => return (fs, file)
  | none => throw "file_open failed"

namespace Race

/-- Run an event of a live, idle process (`openEnd` of one inside
`filesys_open`).  A call that needs `syscall_lock` while another holds it does
not start. -/
def stepProc (race : Race) (t : Nat) (proc : RaceProc) : RaceEvent → Except String Race
  | .start _ => .ok race
  | .create _ name initialSize =>
      if proc.pc = .idle ∧ race.syscallLock = none then do
        let (fs, _) ← race.fs.filesysCreate name initialSize
        return { race with fs }
      else .ok race
  | .openBegin _ name forLoad =>
      if proc.pc = .idle ∧ race.syscallLock = none then do
        let (fs, pc) ← openBegin race.fs name forLoad
        let proc := { proc with pc := pc.getD .idle }
        -- the lock stays held until `openEnd`; without an entry the call is over
        return ⟨fs, Function.update race.procs t (some proc), pc.map fun _ => t⟩
      else .ok race
  | .openEnd _ =>
      match proc.pc with
      | .opening forLoad dir sector found => do
          let (fs, file) ← openEnd race.fs dir sector found
          if forLoad then
            let fs ← fs.fileDenyWrite file
            let loaded := { proc with pc := .idle, codeFile := some file }
            return ⟨fs, Function.update race.procs t (some loaded), none⟩
          else
            let opened := { proc with pc := .idle, openFiles := proc.openFiles ++ [file] }
            return ⟨fs, Function.update race.procs t (some opened), none⟩
      | .idle => .ok race
  | .write _ file bytes =>
      if proc.pc = .idle ∧ file ∈ proc.openFiles ∧ race.syscallLock = none then do
        let (fs, _) ← race.fs.fileWrite file bytes bytes.length
        return { race with fs }
      else .ok race
  | .exit _ =>
      -- `thread_exit` takes no lock
      if proc.pc = .idle then do
        let fs ← race.fs.fileClose proc.codeFile
        let fs ← proc.openFiles.foldlM (fun fs file => fs.fileClose (some file)) fs
        return { race with fs := fs, procs := Function.update race.procs t none }
      else .ok race

/-- One event: `start` of a process not yet alive, or a step of a live one. -/
def step (race : Race) (event : RaceEvent) : Except String Race :=
  match race.procs event.thread, event with
  | none, .start t =>
      .ok { race with procs := Function.update race.procs t (some ⟨.idle, none, []⟩) }
  | none, _ => .ok race
  | some proc, event => race.stepProc event.thread proc event

/-- The states the processes start from: a freshly formatted file system,
no process and the lock free. -/
def Initial (race : Race) : Prop :=
  (∃ sectorCount, filesysInit sectorCount = .ok race.fs) ∧ (∀ t, race.procs t = none) ∧
    race.syscallLock = none

def Reachable : Race → Prop := Transition.Reachable Initial step

theorem initial_formatted64 :
    Initial { fs := formatted64, procs := fun _ => none, syscallLock := none } :=
  ⟨⟨64, filesysInit_formatted64⟩, fun _ => rfl, rfl⟩

def nameA : List UInt8 := [0x61]

/-- Process 1 creates `"a"` and process 2 loads it.  Process 3's `open_h`
takes the lock, and its `inode_open` finds process 2's inode; process 2 exits,
and its `file_close` of `code_file` closes the inode's last opener and frees it;
process 3's `inode_reopen` then writes to the freed inode. -/
def freedReopenRun : List RaceEvent :=
  [.start 1, .create 1 nameA 16, .start 2, .openBegin 2 nameA true, .openEnd 2,
    .start 3, .openBegin 3 nameA false, .exit 2]

theorem open_reopens_freed_inode :
    ∃ race address, Reachable race ∧ race.syscallLock = some 3 ∧ race.procs 2 = none ∧
      ((race.procs 3).bind fun proc => proc.pc.found) = some address ∧
      race.fs.inodes.get address = none ∧
      step race (.openEnd 3) = .error "struct inode used after free" := by
  have freed : Transition.runSatisfies step
      { fs := formatted64, procs := fun _ => none, syscallLock := none } freedReopenRun
      (fun race => race.syscallLock == some 3 && (race.procs 2).isNone &&
        ((race.procs 3).bind fun proc => proc.pc.found).any (fun address =>
          (race.fs.inodes.get address).isNone) &&
        Transition.stopsWith (step race (.openEnd 3)) "struct inode used after free") = true := by
    decide +kernel
  obtain ⟨race, reached, holds⟩ :=
    Transition.Reachable.of_runSatisfies initial_formatted64 freed
  simp only [Bool.and_eq_true, beq_iff_eq, Option.isNone_iff_eq_none, Option.any_eq_true] at holds
  obtain ⟨⟨⟨locked, exited⟩, address, found, gone⟩, failed⟩ := holds
  exact ⟨race, address, reached, locked, exited, found, gone,
    Transition.eq_error_of_stopsWith failed⟩

end Race

end Pintos.Filesys

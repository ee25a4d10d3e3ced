import Mathlib
import Pintos.Control
import Pintos.Filesys.OpenTable
import Pintos.Userprog.Kernel

/-!
# Open files over the kernel's runs

Between system calls, in every state the kernel of `Pintos.Userprog.Kernel` reaches:

* the table of open inodes is right with nothing held (`Filesys.OpenTable`): an open inode's
  `open_cnt` counts the files open on it, its `deny_write_cnt` those that deny writes, and no
  sector has two;
* every descriptor of a live process names a live `struct file`, and no two descriptors, of one
  process or of two, name the same one.

Every handler of `syscall.c` is shown to keep this with the rules of `Control.Triple`, one lemma
per function; `close_h` and `close_files` can then free a file only once, and `open_h` gives the
new descriptor a file nobody else names.

This is over the kernel's steps, in which each call and each exit is whole and no program is
loaded (`Pintos.Userprog.Kernel`); with an exit cut in between the two halves of a locked
`inode_open`, as in `Filesys.Race`, the table does not survive.
-/

namespace Pintos.Kernel

open Filesys Control

/-- The invariant: the table, the descriptors' files, and no executable kept open (nothing in
this kernel opens one). -/
structure FilesHeld (k : Kernel) : Prop where
  table : OpenTable k.fs []
  live : ∀ (t : Nat) (proc : Proc) (fd f : Nat), k.procs t = some proc →
    proc.openFiles[fd]? = some (some f) → (k.fs.files.get f).isSome
  once : ∀ (t u : Nat) (proc proc' : Proc) (fd fd' f : Nat), k.procs t = some proc →
    k.procs u = some proc' → proc.openFiles[fd]? = some (some f) →
    proc'.openFiles[fd']? = some (some f) → t = u ∧ fd = fd'
  noCode : ∀ (t : Nat) (proc : Proc), k.procs t = some proc → proc.codeFile = none

/-- A file that is live and that no descriptor names. -/
def Unnamed (k : Kernel) (f : Nat) : Prop :=
  (k.fs.files.get f).isSome ∧
    ∀ (t : Nat) (proc : Proc) (fd : Nat), k.procs t = some proc →
      proc.openFiles[fd]? ≠ some (some f)

section FilesHeld

variable {k k' : Kernel}

theorem FilesHeld.congr (held : FilesHeld k) (fs : k'.fs = k.fs) (procs : k'.procs = k.procs) :
    FilesHeld k' := by
  obtain ⟨table, live, once, noCode⟩ := held
  rw [← fs, ← procs] at *
  exact ⟨table, live, once, noCode⟩

theorem Unnamed.congr {f : Nat} (unnamed : Unnamed k f) (fs : k'.fs = k.fs)
    (procs : k'.procs = k.procs) : Unnamed k' f := by
  rw [Unnamed, fs, procs]
  exact unnamed

theorem FilesHeld.setFs (held : FilesHeld k) {fs : Filesys} (table : OpenTable fs [])
    (live : ∀ f : Nat, (k.fs.files.get f).isSome → (fs.files.get f).isSome) :
    FilesHeld { k with fs } :=
  ⟨table, fun t proc fd f found named => live f (held.live t proc fd f found named), held.once,
    held.noCode⟩

theorem FilesHeld.setProc (held : FilesHeld k) {t : Nat} {proc proc' : Proc}
    (found : k.procs t = some proc)
    (files : ∀ fd f : Nat, proc'.openFiles[fd]? = some (some f) →
      proc.openFiles[fd]? = some (some f))
    (code : proc'.codeFile = proc.codeFile) :
    FilesHeld { k with procs := Function.update k.procs t (some proc') } := by
  have before : ∀ (u : Nat) (p : Proc), Function.update k.procs t (some proc') u = some p →
      ∃ q, k.procs u = some q ∧
        (∀ fd f : Nat, p.openFiles[fd]? = some (some f) → q.openFiles[fd]? = some (some f)) ∧
        q.codeFile = p.codeFile := by
    intro u p updated
    by_cases same : u = t
    · subst same
      simp only [Function.update_self, Option.some.injEq] at updated
      subst updated
      exact ⟨proc, found, files, code.symm⟩
    · rw [Function.update_of_ne same] at updated
      exact ⟨p, updated, fun _ _ named => named, rfl⟩
  refine ⟨held.table, fun u p fd f updated named => ?_, fun u v p p' fd fd' f first second
    named named' => ?_, fun u p updated => ?_⟩
  · obtain ⟨q, found', named'', -⟩ := before u p updated
    exact held.live u q fd f found' (named'' fd f named)
  · obtain ⟨q, found', was, -⟩ := before u p first
    obtain ⟨q', found'', was', -⟩ := before v p' second
    exact held.once u v q q' fd fd' f found' found'' (was fd f named) (was' fd' f named')
  · obtain ⟨q, found', -, sameCode⟩ := before u p updated
    rw [← sameCode]
    exact held.noCode u q found'

theorem FilesHeld.assign (held : FilesHeld k) {t fd f : Nat} {proc : Proc}
    (found : k.procs t = some proc) (empty : proc.openFiles[fd]?.join = none)
    (unnamed : Unnamed k f) :
    FilesHeld { k with procs := (Function.update k.procs t
      (some { proc with openFiles := proc.openFiles.set fd (some f), indexFd := fd })) } := by
  -- a descriptor of the new process is the new one, or one it had
  have slots : ∀ j g : Nat, (proc.openFiles.set fd (some f))[j]? = some (some g) →
      (j = fd ∧ g = f) ∨ (j ≠ fd ∧ proc.openFiles[j]? = some (some g)) := by
    intro j g named
    rw [List.getElem?_set] at named
    by_cases same : fd = j
    · subst same
      rw [if_pos rfl] at named
      split at named
      · exact .inl ⟨rfl, (Option.some.inj (Option.some.inj named)).symm⟩
      · cases named
    · rw [if_neg same] at named
      exact .inr ⟨Ne.symm same, named⟩
  have before : ∀ (u : Nat) (p : Proc), Function.update k.procs t (some { proc with
      openFiles := proc.openFiles.set fd (some f), indexFd := fd }) u = some p →
      (u = t ∧ p = { proc with openFiles := proc.openFiles.set fd (some f), indexFd := fd }) ∨
        (u ≠ t ∧ k.procs u = some p) := by
    intro u p updated
    by_cases same : u = t
    · subst same
      simp only [Function.update_self, Option.some.injEq] at updated
      exact .inl ⟨rfl, updated.symm⟩
    · rw [Function.update_of_ne same] at updated
      exact .inr ⟨same, updated⟩
  -- where a descriptor of the new state names a file: the new descriptor, or an old one
  have named : ∀ (u : Nat) (p : Proc) (j g : Nat), Function.update k.procs t (some { proc with
      openFiles := proc.openFiles.set fd (some f), indexFd := fd }) u = some p →
      p.openFiles[j]? = some (some g) →
      (u = t ∧ j = fd ∧ g = f) ∨ ∃ q, k.procs u = some q ∧ q.openFiles[j]? = some (some g) := by
    intro u p j g updated slot
    rcases before u p updated with ⟨rfl, rfl⟩ | ⟨_, found'⟩
    · rcases slots j g slot with ⟨rfl, rfl⟩ | ⟨_, old⟩
      · exact .inl ⟨rfl, rfl, rfl⟩
      · exact .inr ⟨proc, found, old⟩
    · exact .inr ⟨p, found', slot⟩
  refine ⟨held.table, fun u p j g updated slot => ?_, fun u v p p' j j' g first second
    slot slot' => ?_, fun u p updated => ?_⟩
  · rcases named u p j g updated slot with ⟨-, -, rfl⟩ | ⟨q, found', old⟩
    · exact unnamed.1
    · exact held.live u q j g found' old
  · rcases named u p j g first slot with ⟨rfl, rfl, rfl⟩ | ⟨q, found', old⟩ <;>
      rcases named v p' j' g second slot' with ⟨rfl, rfl, same⟩ | ⟨q', found'', old'⟩
    · exact ⟨rfl, rfl⟩
    · exact absurd old' (unnamed.2 v q' j' found'')
    · exact absurd (same ▸ old) (unnamed.2 u q j found')
    · exact held.once u v q q' j j' g found' found'' old old'
  · rcases before u p updated with ⟨rfl, rfl⟩ | ⟨_, found'⟩
    · exact held.noCode u proc found
    · exact held.noCode u p found'

theorem FilesHeld.freeFile (held : FilesHeld k) {fs : Filesys} {f : Nat} (table : OpenTable fs [])
    (freed : fs.files = k.fs.files.free f) (unnamed : Unnamed k f) : FilesHeld { k with fs } := by
  refine ⟨table, fun u p j g found named => ?_, held.once, held.noCode⟩
  have other : g ≠ f := fun same => unnamed.2 u p j found (same ▸ named)
  show (fs.files.get g).isSome
  rw [freed, Heap.get_free, if_neg other]
  exact held.live u p j g found named

theorem FilesHeld.drop (held : FilesHeld k) {t : Nat} {fs : Filesys} (table : OpenTable fs [])
    (live : ∀ (u : Nat) (proc : Proc) (fd f : Nat), u ≠ t → k.procs u = some proc →
      proc.openFiles[fd]? = some (some f) → (fs.files.get f).isSome) :
    FilesHeld { k with fs, procs := Function.update k.procs t none } := by
  have before : ∀ (u : Nat) (p : Proc), Function.update k.procs t none u = some p →
      u ≠ t ∧ k.procs u = some p := by
    intro u p updated
    by_cases same : u = t
    · subst same
      simp at updated
    · rw [Function.update_of_ne same] at updated
      exact ⟨same, updated⟩
  refine ⟨table, fun u p fd f updated named => ?_, fun u v p p' fd fd' f first second
    named named' => ?_, fun u p updated => held.noCode u p (before u p updated).2⟩
  · obtain ⟨apart, found⟩ := before u p updated
    exact live u p fd f apart found named
  · exact held.once u v p p' fd fd' f (before u p first).2 (before v p' second).2 named named'

end FilesHeld

/-- A process as `thread_create` leaves it names no file. -/
theorem FilesHeld.spawn (held : FilesHeld k) {t : Nat} (vm : Vm) :
    FilesHeld { k with vm, procs := Function.update k.procs t (some Proc.fresh) } := by
  have fresh : ∀ j f : Nat, Proc.fresh.openFiles[j]? ≠ some (some f) := by
    intro j f named
    rw [Proc.fresh, List.getElem?_replicate] at named
    split at named <;> cases named
  have before : ∀ (u : Nat) (p : Proc), Function.update k.procs t (some Proc.fresh) u = some p →
      p = Proc.fresh ∨ k.procs u = some p := by
    intro u p updated
    by_cases same : u = t
    · subst same
      simp only [Function.update_self, Option.some.injEq] at updated
      exact .inl updated.symm
    · rw [Function.update_of_ne same] at updated
      exact .inr updated
  refine ⟨held.table, fun u p j f updated named => ?_, fun u v p p' j j' f first second named
    named' => ?_, fun u p updated => ?_⟩
  · rcases before u p updated with rfl | found
    · exact absurd named (fresh j f)
    · exact held.live u p j f found named
  · rcases before u p first with rfl | found
    · exact absurd named (fresh j f)
    rcases before v p' second with rfl | found'
    · exact absurd named' (fresh j' f)
    · exact held.once u v p p' j j' f found found' named named'
  · rcases before u p updated with rfl | found
    · rfl
    · exact held.noCode u p found

/-! ## Descriptors -/

theorem findOpenFile_eq_some {proc : Proc} {fd : Int} {f : Nat}
    (found : proc.findOpenFile fd = some f) : proc.openFiles[fd.toNat]? = some (some f) := by
  unfold Proc.findOpenFile at found
  split at found
  · cases found
  · exact Option.join_eq_some_iff.mp found

/-- The loop of `assign_fd` stops at an empty descriptor. -/
theorem assignFdLoop_eq_some {files : List (Option Nat)} {i j fuel : Nat}
    (found : assignFdLoop files i fuel = some j) : files[j]?.join = none := by
  induction fuel generalizing i with
  | zero => cases found
  | succ fuel inductionHypothesis =>
      unfold assignFdLoop at found
      split at found
      · split at found
        · rename_i free
          cases found
          exact free
        · exact inductionHypothesis found
      · cases found

theorem assignFd_eq_some {proc proc' : Proc} {f : Nat} (assigned : proc.assignFd f = some proc') :
    ∃ fd, proc.openFiles[fd]?.join = none ∧
      proc' = { proc with openFiles := proc.openFiles.set fd (some f), indexFd := fd } := by
  unfold Proc.assignFd at assigned
  split at assigned
  · rename_i fd found
    cases assigned
    exact ⟨fd, assignFdLoop_eq_some found, rfl⟩
  · cases assigned

/-- `close_h` clears the descriptor before it closes the file: the file is then live and
nobody's. -/
theorem FilesHeld.clear {k : Kernel} (held : FilesHeld k) {t fd f : Nat} {proc : Proc}
    (found : k.procs t = some proc) (named : proc.openFiles[fd]? = some (some f)) :
    FilesHeld { k with procs := (Function.update k.procs t
        (some { proc with openFiles := proc.openFiles.set fd none })) } ∧
      Unnamed { k with procs := (Function.update k.procs t
        (some { proc with openFiles := proc.openFiles.set fd none })) } f := by
  -- what a cleared table still names, it named before, elsewhere than `fd`
  have kept : ∀ j g : Nat, (proc.openFiles.set fd none)[j]? = some (some g) →
      j ≠ fd ∧ proc.openFiles[j]? = some (some g) := by
    intro j g slot
    rw [List.getElem?_set] at slot
    split at slot
    · split at slot <;> cases slot
    · rename_i apart
      exact ⟨Ne.symm apart, slot⟩
  refine ⟨held.setProc found (fun j g slot => (kept j g slot).2) rfl,
    held.live t proc fd f found named, fun u p j found' slot => ?_⟩
  by_cases same : u = t
  · subst same
    simp only [Function.update_self, Option.some.injEq] at found'
    subst found'
    obtain ⟨apart, old⟩ := kept j f slot
    exact apart (held.once u u proc proc j fd f found found old named).2
  · simp only [Function.update_of_ne same] at found'
    exact same (held.once u t p proc j fd f found' found slot named).1

/-! ## `thread_exit` -/

/-- `close_files` keeps the table, and every file it was not given. -/
theorem closeFiles_openTable {files : List (Option Nat)} {fs fs' : Filesys}
    (table : OpenTable fs []) (closed : files.foldlM Filesys.fileClose fs = .ok fs') :
    OpenTable fs' [] ∧ ∀ f : Nat, some f ∉ files → fs'.files.get f = fs.files.get f := by
  induction files generalizing fs with
  | nil =>
      cases closed
      exact ⟨table, fun _ _ => rfl⟩
  | cons file rest inductionHypothesis =>
      obtain ⟨middle, first, closing⟩ := bind_eq_ok closed
      -- the first descriptor's file, if any, is closed; the rest by induction
      have step : OpenTable middle [] ∧
          ∀ f : Nat, some f ≠ file → middle.files.get f = fs.files.get f := by
        cases file with
        | none =>
            cases first
            exact ⟨table, fun _ _ => rfl⟩
        | some g =>
            obtain ⟨middleTable, freed⟩ := fileClose_openTable table first
            refine ⟨middleTable, fun f apart => ?_⟩
            have other : f ≠ g := fun same => apart (same ▸ rfl)
            rw [freed, Heap.get_free, if_neg other]
      obtain ⟨restTable, kept⟩ := inductionHypothesis step.1 closing
      refine ⟨restTable, fun f notGiven => ?_⟩
      rw [List.mem_cons, not_or] at notGiven
      rw [kept f notGiven.2, step.2 f notGiven.1]

theorem exitFiles_filesHeld {k k' : Kernel} {t : Nat} (held : FilesHeld k)
    (exited : k.exitFiles t = .ok k') : FilesHeld k' := by
  unfold exitFiles at exited
  split at exited
  · rename_i proc found
    obtain ⟨codeClosed, closingCode, rest⟩ := bind_eq_ok exited
    rw [held.noCode t proc found] at closingCode
    cases closingCode
    obtain ⟨closed, closing, returned⟩ := bind_eq_ok rest
    cases returned
    obtain ⟨closedTable, kept⟩ := closeFiles_openTable held.table closing
    refine held.drop closedTable fun u p fd f apart found' named => ?_
    -- a file another process names is not among those closed
    have notOurs : some f ∉ proc.openFiles.drop 2 := by
      intro ours
      obtain ⟨j, ourSlot⟩ := List.getElem?_of_mem ours
      rw [List.getElem?_drop] at ourSlot
      exact apart (held.once u t p proc fd (2 + j) f found' found named ourSlot).1
    rw [kept f notOurs]
    exact held.live u p fd f found' named
  · cases exited

theorem threadExit_filesHeld {k k' : Kernel} {t : Nat} (held : FilesHeld k)
    (exited : k.threadExit t = .ok k') : FilesHeld k' := by
  unfold threadExit at exited
  obtain ⟨vm, _, exiting⟩ := bind_eq_ok exited
  have paged : FilesHeld { k with vm } := held.congr rfl rfl
  exact exitFiles_filesHeld paged exiting

/-- `exit_h` records the status, which is no descriptor. -/
theorem FilesHeld.setStatus (held : FilesHeld k) (t : Nat) (status : Int) :
    FilesHeld { k with procs := (Function.update k.procs t
      ((k.procs t).map fun (proc : Proc) => { proc with statusNumber := status })) } := by
  cases found : k.procs t with
  | none =>
      rw [Option.map_none, ← found, Function.update_eq_self]
      exact held.congr rfl rfl
  | some proc => exact held.setProc found (fun _ _ named => named) rfl

/-! ## Code that keeps the invariant -/

/-- Kernel code that keeps `FilesHeld`, whether it returns or stops. -/
def KeepsFiles {α : Type} (x : KernelM α) : Prop :=
  Triple FilesHeld x (fun _ => FilesHeld) (fun _ => FilesHeld)

section KeepsFiles

variable {α β : Type}

theorem KeepsFiles.bind {x : KernelM α} {f : α → KernelM β} (first : KeepsFiles x)
    (rest : ∀ a, KeepsFiles (f a)) : KeepsFiles (x >>= f) :=
  Triple.bind first rest

theorem KeepsFiles.get_bind {f : Kernel → KernelM α} (rest : ∀ k, FilesHeld k → KeepsFiles (f k)) :
    KeepsFiles (get >>= f) :=
  Triple.get_bind fun k held =>
    (rest k held).mono (fun _ same => same ▸ held) (fun _ _ after => after) fun _ _ after => after

theorem KeepsFiles.lift_bind {x : Except String α} {f : α → KernelM β}
    (rest : ∀ a, x = .ok a → KeepsFiles (f a)) : KeepsFiles (monadLift x >>= f) :=
  Triple.bind Triple.lift fun a =>
    ⟨fun s b s' holds ran => (rest a holds.2).returns s b s' holds.1 ran,
      fun s e s' holds ran => (rest a holds.2).stops s e s' holds.1 ran⟩

theorem KeepsFiles.map {x : KernelM α} {f : α → β} (kept : KeepsFiles x) : KeepsFiles (f <$> x) :=
  Triple.map kept fun _ _ after => after

theorem keepsFiles_pure (a : α) : KeepsFiles (pure a : KernelM α) :=
  Triple.pure fun _ held => held

theorem keepsFiles_set {k : Kernel} (held : FilesHeld k) : KeepsFiles (set k : KernelM PUnit) :=
  Triple.set fun _ _ => held

theorem KeepsFiles.set_bind {k : Kernel} {f : PUnit → KernelM α} (held : FilesHeld k)
    (rest : ∀ u, KeepsFiles (f u)) : KeepsFiles (set k >>= f) :=
  (keepsFiles_set held).bind rest

theorem keepsFiles_modify {f : Kernel → Kernel} (kept : ∀ k, FilesHeld k → FilesHeld (f k)) :
    KeepsFiles (modify f : KernelM PUnit) :=
  Triple.modify kept

theorem keepsFiles_liftM (x : Except String α) : KeepsFiles (liftM x : KernelM α) :=
  Triple.lift.mono (fun _ held => held) (fun _ _ after => after.1) fun _ _ after => after

theorem keepsFiles_throwStop (e : Stop) : KeepsFiles (throwThe Stop e : KernelM α) :=
  Triple.throwStop fun _ held => held

theorem keepsFiles_throwError (d : String) : KeepsFiles (throwThe String d : KernelM α) :=
  Triple.throwError

end KeepsFiles

/-! ## The kernel's helpers -/

/-- `thread_current ()`, and that it is the process of `t`. -/
theorem currentProc_triple {P : Kernel → Prop} {R : Stop → Kernel → Prop} (t : Nat) :
    Triple P (currentProc t) (fun proc k => P k ∧ k.procs t = some proc) R := by
  unfold currentProc
  refine Triple.get_bind fun k holds => ?_
  split
  · rename_i proc found
    exact Triple.pure fun s same => same ▸ ⟨holds, found⟩
  · exact Triple.throwError

/-- `lock_acquire (&syscall_lock)` changes only the lock. -/
theorem lockAcquire_triple {P : Kernel → Prop}
    (stable : ∀ k lock, P k → P { k with syscallLock := lock }) (t : Nat) :
    Triple P (lockAcquire t) (fun _ => P) (fun _ => P) := by
  unfold lockAcquire
  refine Triple.get_bind fun k holds => ?_
  split
  · split
    · exact Triple.throwError
    · exact Triple.throwStop fun s same => same ▸ holds
  · exact Triple.set fun _ _ => stable k _ holds

theorem lockRelease_triple {P : Kernel → Prop} {R : Stop → Kernel → Prop}
    (stable : ∀ k lock, P k → P { k with syscallLock := lock }) (t : Nat) :
    Triple P (lockRelease t) (fun _ => P) R := by
  unfold lockRelease
  refine Triple.get_bind fun k holds => ?_
  split
  · exact Triple.set fun _ _ => stable k _ holds
  · exact Triple.throwError

theorem keepsFiles_lockAcquire (t : Nat) : KeepsFiles (lockAcquire t) :=
  lockAcquire_triple (fun _ _ held => held.congr rfl rfl) t

theorem keepsFiles_lockRelease (t : Nat) : KeepsFiles (lockRelease t) :=
  lockRelease_triple (fun _ _ held => held.congr rfl rfl) t

theorem withFs_triple {α : Type} {op : Filesys → Except String (Filesys × α)} {P : Kernel → Prop}
    {Q : α → Kernel → Prop} {R : Stop → Kernel → Prop}
    (post : ∀ k fs a, P k → op k.fs = .ok (fs, a) → Q a { k with fs }) :
    Triple P (withFs op) Q R := by
  unfold withFs
  refine Triple.get_bind fun k holds => Triple.bind Triple.lift fun result => ?_
  obtain ⟨fs, a⟩ := result
  exact Triple.bind (Triple.set fun _ ran => post k fs a holds ran.2)
    fun _ => Triple.pure fun _ after => after

theorem keepsFiles_endThread (t : Nat) : KeepsFiles (endThread t : KernelM α) := by
  unfold endThread
  refine KeepsFiles.get_bind fun k held => KeepsFiles.lift_bind fun k' exited => ?_
  exact (keepsFiles_set (exitFiles_filesHeld held exited)).bind fun _ => keepsFiles_throwStop _

theorem keepsFiles_exitH (t : Nat) (status : Int) : KeepsFiles (exitH t status : KernelM α) := by
  unfold exitH
  refine KeepsFiles.get_bind fun k held => KeepsFiles.lift_bind fun k' exited => ?_
  exact (keepsFiles_set (threadExit_filesHeld (held.setStatus t status) exited)).bind
    fun _ => keepsFiles_throwStop _

theorem keepsFiles_checkPointer (t pointer : Nat) : KeepsFiles (checkPointer t pointer) := by
  unfold checkPointer
  refine KeepsFiles.get_bind fun k held => ?_
  split
  · split
    · exact keepsFiles_exitH t (-1)
    · exact keepsFiles_pure _
  · exact keepsFiles_throwError _

section Access

variable (findSpinfoByKpage : List Spinfo → Option Nat → Option Nat)

/-! ## User memory: only paging changes -/

theorem keepsFiles_kernelPageFault (t address : Nat) (write : Bool) :
    KeepsFiles (kernelPageFault findSpinfoByKpage t address write) := by
  unfold kernelPageFault
  refine KeepsFiles.get_bind fun k held => KeepsFiles.lift_bind fun vm _ => ?_
  refine KeepsFiles.set_bind (held.congr rfl rfl) fun _ => ?_
  -- a thread that the fault killed has already lost its pages
  split
  · exact keepsFiles_endThread t
  · split
    · exact keepsFiles_pure _
    · exact keepsFiles_throwError _

theorem keepsFiles_kernelAccess (t address : Nat) (write : Bool) (byte : UInt8) :
    KeepsFiles (kernelAccess findSpinfoByKpage t address write byte) := by
  unfold kernelAccess
  refine KeepsFiles.get_bind fun k held => ?_
  split
  · split
    · exact KeepsFiles.set_bind (held.congr rfl rfl) fun _ => keepsFiles_pure _
    · exact keepsFiles_pure _
  · split
    · -- the page is mapped already, or after the fault; then the access is made
      dsimp only
      refine Triple.ite_bind (fun _ => keepsFiles_pure _)
        (fun _ => keepsFiles_kernelPageFault findSpinfoByKpage t address write)
        fun thread => KeepsFiles.get_bind fun k' held' => ?_
      split
      · exact KeepsFiles.set_bind (held'.congr rfl rfl) fun _ => keepsFiles_pure _
      · exact keepsFiles_throwError _
    · exact keepsFiles_throwError _

theorem keepsFiles_readUserBytes (t address count : Nat) :
    KeepsFiles (readUserBytes findSpinfoByKpage t address count) := by
  induction count generalizing address with
  | zero => exact keepsFiles_pure _
  | succ count inductionHypothesis =>
      rw [readUserBytes]
      exact (keepsFiles_kernelAccess findSpinfoByKpage t address false 0).bind fun _ =>
        (inductionHypothesis _).bind fun _ => keepsFiles_pure _

theorem keepsFiles_writeUserBytes (t address : Nat) (bytes : List UInt8) :
    KeepsFiles (writeUserBytes findSpinfoByKpage t address bytes) := by
  induction bytes generalizing address with
  | nil => exact keepsFiles_pure _
  | cons byte rest inductionHypothesis =>
      rw [writeUserBytes]
      exact (keepsFiles_kernelAccess findSpinfoByKpage t address true byte).bind fun _ =>
        inductionHypothesis _

theorem keepsFiles_readUserString (t address fuel : Nat) :
    KeepsFiles (readUserString findSpinfoByKpage t address fuel) := by
  induction fuel generalizing address with
  | zero => exact keepsFiles_pure _
  | succ fuel inductionHypothesis =>
      rw [readUserString]
      refine (keepsFiles_kernelAccess findSpinfoByKpage t address false 0).bind fun byte => ?_
      split
      · exact keepsFiles_pure _
      · exact (inductionHypothesis _).bind fun _ => keepsFiles_pure _

theorem keepsFiles_readWord (t address : Nat) :
    KeepsFiles (readWord findSpinfoByKpage t address) :=
  (keepsFiles_readUserBytes findSpinfoByKpage t address 4).bind fun _ => keepsFiles_pure _

/-- The keyboard loop of `read_h` changes the keys read and user memory. -/
theorem keepsFiles_inputLoop (t address count : Nat) :
    KeepsFiles (inputLoop findSpinfoByKpage t address count) := by
  induction count generalizing address with
  | zero => exact keepsFiles_pure _
  | succ count inductionHypothesis =>
      rw [inputLoop]
      refine KeepsFiles.get_bind fun k held => KeepsFiles.set_bind (held.congr rfl rfl) fun _ => ?_
      exact (keepsFiles_kernelAccess findSpinfoByKpage t address true _).bind fun _ =>
        inductionHypothesis _

/-! ## The file system under `syscall_lock` -/

theorem keepsFiles_withFs {α : Type} {op : Filesys → Except String (Filesys × α)}
    (kept : ∀ fs fs' a, OpenTable fs [] → op fs = .ok (fs', a) →
      OpenTable fs' [] ∧ ∀ f : Nat, (fs.files.get f).isSome → (fs'.files.get f).isSome) :
    KeepsFiles (withFs op) :=
  withFs_triple fun k fs a held ran =>
    let ⟨table, live⟩ := kept k.fs fs a held.table ran
    held.setFs table live

theorem isSome_get_set_file {fs : Filesys} {f : Nat} {file : File} (found : fs.files.get f = some file)
    (file' : File) (g : Nat) : ((fs.files.set f file').get g).isSome = (fs.files.get g).isSome :=
  Heap.isSome_get_set found file' g

theorem keepsFiles_filesysCreate (name : List UInt8) (initialSize : Int) :
    KeepsFiles (withFs fun fs => fs.filesysCreate name initialSize) :=
  keepsFiles_withFs fun _ _ _ table created =>
    let ⟨createdTable, sameFiles⟩ := filesysCreate_openTable table created
    ⟨createdTable, fun _ live => sameFiles ▸ live⟩

theorem keepsFiles_filesysRemove (name : List UInt8) :
    KeepsFiles (withFs fun fs => fs.filesysRemove name) :=
  keepsFiles_withFs fun _ _ _ table removed =>
    let ⟨removedTable, sameFiles⟩ := filesysRemove_openTable table removed
    ⟨removedTable, fun _ live => sameFiles ▸ live⟩

theorem keepsFiles_fileRead (file : Nat) (size : Int) :
    KeepsFiles (withFs fun fs => fs.fileRead file size) :=
  keepsFiles_withFs fun _ _ _ table read => by
    obtain ⟨readTable, old, found, moved⟩ := fileRead_openTable table read
    exact ⟨readTable, fun f live => by rwa [moved, isSome_get_set_file found]⟩

theorem keepsFiles_fileWrite (file : Nat) (bytes : List UInt8) (size : Int) :
    KeepsFiles (withFs fun fs => fs.fileWrite file bytes size) :=
  keepsFiles_withFs fun _ _ _ table wrote => by
    obtain ⟨wroteTable, old, found, moved⟩ := fileWrite_openTable table wrote
    exact ⟨wroteTable, fun f live => by rwa [moved, isSome_get_set_file found]⟩

theorem keepsFiles_fileSeek (file : Nat) (position : Int) :
    KeepsFiles (withFs fun fs => do
      let fs ← fs.fileSeek file position
      return (fs, ())) :=
  keepsFiles_withFs fun _ _ _ table ran => by
    obtain ⟨sought, seeking, returned⟩ := bind_eq_ok ran
    cases returned
    obtain ⟨soughtTable, old, found, moved⟩ := fileSeek_openTable table seeking
    exact ⟨soughtTable, fun f live => by rwa [moved, isSome_get_set_file found]⟩

section Handlers

variable (findSpinfoByKpage : List Spinfo → Option Nat → Option Nat)

theorem keepsFiles_execH (t cmdLine : Nat) : KeepsFiles (execH findSpinfoByKpage t cmdLine) := by
  unfold execH
  refine (keepsFiles_checkPointer t cmdLine).bind fun _ => (keepsFiles_lockAcquire t).bind fun _ =>
    (keepsFiles_readUserString findSpinfoByKpage t cmdLine stringFuel).bind fun fileName => ?_
  split
  · exact keepsFiles_throwError _
  · exact (keepsFiles_lockRelease t).bind fun _ => keepsFiles_pure _

theorem keepsFiles_createH (t file initialSize : Nat) :
    KeepsFiles (createH findSpinfoByKpage t file initialSize) :=
  (keepsFiles_checkPointer t file).bind fun _ => (keepsFiles_lockAcquire t).bind fun _ =>
    (keepsFiles_readUserString findSpinfoByKpage t file stringFuel).bind fun name =>
      (keepsFiles_filesysCreate name (toInt32 initialSize)).bind fun _ =>
        (keepsFiles_lockRelease t).bind fun _ => keepsFiles_pure _

theorem keepsFiles_removeH (t file : Nat) : KeepsFiles (removeH findSpinfoByKpage t file) :=
  (keepsFiles_checkPointer t file).bind fun _ => (keepsFiles_lockAcquire t).bind fun _ =>
    (keepsFiles_readUserString findSpinfoByKpage t file stringFuel).bind fun name =>
      (keepsFiles_filesysRemove name).bind fun _ =>
        (keepsFiles_lockRelease t).bind fun _ => keepsFiles_pure _

theorem keepsFiles_filesizeH (t : Nat) (fd : Int) : KeepsFiles (filesizeH t fd) := by
  unfold filesizeH
  refine (currentProc_triple t).bind fun proc => ?_
  split
  · refine (KeepsFiles.get_bind fun k _ => ?_).mono (fun _ holds => holds.1)
      (fun _ _ after => after) fun _ _ after => after
    exact keepsFiles_liftM _
  · exact Triple.pure fun _ holds => holds.1

theorem keepsFiles_currentProc_bind {α : Type} {f : Proc → KernelM α} (t : Nat)
    (rest : ∀ proc, KeepsFiles (f proc)) : KeepsFiles (currentProc t >>= f) :=
  (currentProc_triple t).bind fun proc =>
    (rest proc).mono (fun _ holds => holds.1) (fun _ _ after => after) fun _ _ after => after

theorem keepsFiles_readH (t : Nat) (fd : Int) (buffer size : Nat) :
    KeepsFiles (readH findSpinfoByKpage t fd buffer size) := by
  unfold readH
  refine (keepsFiles_checkPointer t buffer).bind fun _ => ?_
  split
  · exact (keepsFiles_inputLoop findSpinfoByKpage t buffer _).bind fun _ => keepsFiles_pure _
  · refine keepsFiles_currentProc_bind t fun proc => ?_
    split
    · exact keepsFiles_pure _
    · exact (keepsFiles_lockAcquire t).bind fun _ => (keepsFiles_fileRead _ _).bind fun bytes =>
        (keepsFiles_writeUserBytes findSpinfoByKpage t buffer bytes).bind fun _ =>
          (keepsFiles_lockRelease t).bind fun _ => keepsFiles_pure _

theorem keepsFiles_writeH (t : Nat) (fd : Int) (buffer size : Nat) :
    KeepsFiles (writeH findSpinfoByKpage t fd buffer size) := by
  unfold writeH
  refine (keepsFiles_checkPointer t buffer).bind fun _ => ?_
  split
  · refine (keepsFiles_readUserBytes findSpinfoByKpage t buffer size).bind fun _ =>
      (keepsFiles_modify fun _ held => ?_).bind fun _ => keepsFiles_pure _
    exact held.congr rfl rfl
  · refine keepsFiles_currentProc_bind t fun proc => ?_
    split
    · exact keepsFiles_pure _
    · -- the count `file_write` would write is computed first, on the same file system
      refine (keepsFiles_lockAcquire t).bind fun _ => KeepsFiles.get_bind fun k _ =>
        KeepsFiles.lift_bind fun counted _ => ?_
      obtain ⟨_, count⟩ := counted
      exact (keepsFiles_readUserBytes findSpinfoByKpage t buffer count.toNat).bind fun bytes =>
        (keepsFiles_fileWrite _ bytes _).bind fun _ =>
          (keepsFiles_lockRelease t).bind fun _ => keepsFiles_pure _

theorem keepsFiles_seekH (t : Nat) (fd : Int) (position : Nat) :
    KeepsFiles (seekH t fd position) := by
  unfold seekH
  refine keepsFiles_currentProc_bind t fun proc => ?_
  split
  · exact keepsFiles_pure _
  · exact (keepsFiles_lockAcquire t).bind fun _ => (keepsFiles_fileSeek _ _).bind fun _ =>
      (keepsFiles_lockRelease t).bind fun _ => keepsFiles_pure _

theorem keepsFiles_tellH (t : Nat) (fd : Int) : KeepsFiles (tellH t fd) := by
  unfold tellH
  refine keepsFiles_currentProc_bind t fun proc => ?_
  split
  · exact keepsFiles_pure _
  · exact (keepsFiles_lockAcquire t).bind fun _ => KeepsFiles.get_bind fun k _ =>
      KeepsFiles.lift_bind fun _ _ => (keepsFiles_lockRelease t).bind fun _ => keepsFiles_pure _

/-- `file_close` of a file no descriptor names. -/
theorem closeFile_triple (f : Nat) :
    Triple (fun k => FilesHeld k ∧ Unnamed k f)
      (withFs fun fs => do
        let fs ← fs.fileClose (some f)
        return (fs, ()))
      (fun _ => FilesHeld) (fun _ => FilesHeld) :=
  withFs_triple fun _ _ _ holds ran => by
    obtain ⟨closed, closing, returned⟩ := bind_eq_ok ran
    cases returned
    obtain ⟨table, freed⟩ := fileClose_openTable holds.1.table closing
    exact holds.1.freeFile table freed holds.2

theorem keepsFiles_closeH (t : Nat) (fd : Int) : KeepsFiles (closeH t fd) := by
  unfold closeH
  refine (currentProc_triple t).bind fun proc => ?_
  split
  · exact Triple.pure fun _ holds => holds.1
  · rename_i file found
    have cleared : Triple (fun k => FilesHeld k ∧ k.procs t = some proc)
        (setProc t { proc with openFiles := proc.openFiles.set fd.toNat none })
        (fun _ k => FilesHeld k ∧ Unnamed k file) (fun _ => FilesHeld) :=
      Triple.modify fun _ holds => holds.1.clear holds.2 (findOpenFile_eq_some found)
    exact cleared.bind fun _ => (closeFile_triple file).bind fun _ => keepsFiles_pure _

/-- `filesys_open` returns a file no descriptor names. -/
theorem filesysOpen_triple (name : List UInt8) :
    Triple FilesHeld (withFs fun fs => fs.filesysOpen name)
      (fun file k => FilesHeld k ∧ ∀ f, file = some f → Unnamed k f) (fun _ => FilesHeld) :=
  withFs_triple fun k _ _ held opened => by
    obtain ⟨table, live, fresh⟩ := filesysOpen_openTable held.table opened
    refine ⟨held.setFs table live, fun f made => ⟨(fresh f made).2, fun u proc fd found named => ?_⟩⟩
    have wasLive := held.live u proc fd f found named
    rw [(fresh f made).1] at wasLive
    cases wasLive

theorem keepsFiles_openH (t file : Nat) : KeepsFiles (openH findSpinfoByKpage t file) := by
  unfold openH
  refine (keepsFiles_checkPointer t file).bind fun _ => (keepsFiles_lockAcquire t).bind fun _ =>
    (keepsFiles_readUserString findSpinfoByKpage t file stringFuel).bind fun name =>
      (filesysOpen_triple name).bind fun openFile => ?_
  -- `syscall_lock` is let go before the descriptor is assigned
  refine (lockRelease_triple (fun _ _ holds =>
    ⟨holds.1.congr rfl rfl, fun f made => (holds.2 f made).congr rfl rfl⟩) t).bind fun _ => ?_
  split
  · exact Triple.pure fun _ holds => holds.1
  · rename_i opened
    refine (currentProc_triple t).bind fun proc => ?_
    split
    · exact Triple.throwStop fun _ holds => holds.1.1
    · rename_i assigned
      obtain ⟨fd, empty, rfl⟩ := assignFd_eq_some assigned
      have filled : Triple (fun k => (FilesHeld k ∧ ∀ f, some opened = some f → Unnamed k f) ∧
            k.procs t = some proc)
          (setProc t { proc with openFiles := proc.openFiles.set fd (some opened), indexFd := fd })
          (fun _ => FilesHeld) (fun _ => FilesHeld) :=
        Triple.modify fun _ holds => holds.1.1.assign holds.2 empty (holds.1.2 opened rfl)
      exact filled.bind fun _ => keepsFiles_pure _

theorem keepsFiles_syscallHandler (t esp : Nat) :
    KeepsFiles (syscallHandler findSpinfoByKpage t esp) := by
  unfold syscallHandler
  have word := fun n => keepsFiles_readWord findSpinfoByKpage t (ptrAdd esp (4 * n))
  have check := fun n => keepsFiles_checkPointer t (ptrAdd esp (4 * n))
  refine (keepsFiles_checkPointer t esp).bind fun _ =>
    KeepsFiles.bind (keepsFiles_modify fun _ held => held.congr rfl rfl) fun _ =>
      (word 0).bind fun number => ?_
  -- the cases of the `switch`, each a sequence of the handlers above
  dsimp only
  split
  · exact KeepsFiles.bind (keepsFiles_modify fun _ held => held.congr rfl rfl) fun _ =>
      keepsFiles_pure _
  · exact (check 1).bind fun _ => (word 1).bind fun _ => keepsFiles_exitH t _
  · exact (check 1).bind fun _ => (word 1).bind fun _ =>
      keepsFiles_execH findSpinfoByKpage t _
  · exact (check 1).bind fun _ => (word 1).bind fun _ => keepsFiles_pure _
  · exact (check 1).bind fun _ => (check 2).bind fun _ => (word 2).bind fun _ =>
      (word 1).bind fun _ => (keepsFiles_createH findSpinfoByKpage t _ _).bind fun _ =>
        keepsFiles_pure _
  · exact (check 1).bind fun _ => (word 1).bind fun _ =>
      (keepsFiles_removeH findSpinfoByKpage t _).bind fun _ => keepsFiles_pure _
  · exact (check 1).bind fun _ => (word 1).bind fun _ =>
      (keepsFiles_openH findSpinfoByKpage t _).map
  · exact (check 1).bind fun _ => (word 1).bind fun _ => (keepsFiles_filesizeH t _).map
  · exact (check 1).bind fun _ => (check 2).bind fun _ => (check 3).bind fun _ =>
      (word 1).bind fun _ => (word 3).bind fun _ => (word 2).bind fun _ =>
        (keepsFiles_readH findSpinfoByKpage t _ _ _).map
  · exact (check 1).bind fun _ => (check 2).bind fun _ => (check 3).bind fun _ =>
      (word 1).bind fun _ => (word 3).bind fun _ => (word 2).bind fun _ =>
        (keepsFiles_writeH findSpinfoByKpage t _ _ _).map
  · exact (check 1).bind fun _ => (check 2).bind fun _ => (word 1).bind fun _ =>
      (word 2).bind fun _ => (keepsFiles_seekH t _ _).map
  · exact (check 1).bind fun _ => (word 1).bind fun _ => (keepsFiles_tellH t _).map
  · exact (check 1).bind fun _ => (word 1).bind fun _ => (keepsFiles_closeH t _).map
  · exact keepsFiles_pure _

end Handlers

/-! ## Every run -/

/-- Processes follow paging: a thread that paging started gets a fresh process, and one that
paging ended closes its files. -/
theorem afterPaging_filesHeld {k k' : Kernel} {vm : Vm} {tid : Nat} (held : FilesHeld k)
    (after : k.afterPaging vm tid = .ok k') : FilesHeld k' := by
  unfold afterPaging at after
  split at after
  · cases after
    exact held.spawn vm
  · have paged : FilesHeld { k with vm } := held.congr rfl rfl
    exact exitFiles_filesHeld paged after
  · cases after
    exact held.congr rfl rfl

theorem step_filesHeld {k k' : Kernel} {event : Event} (held : FilesHeld k)
    (stepped : step findSpinfoByKpage k event = .ok k') : FilesHeld k' := by
  unfold step at stepped
  split at stepped
  · cases stepped
    exact held
  split at stepped
  · obtain ⟨vm, _, after⟩ := bind_eq_ok stepped
    exact afterPaging_filesHeld held after
  · rename_i tid esp
    split at stepped
    · -- the handler's run ends with a state, whether it returned or stopped
      cases ran : (syscallHandler findSpinfoByKpage tid esp).run.run k with
      | error d =>
          rw [ran] at stepped
          cases stepped
      | ok result =>
          rw [ran] at stepped
          cases stepped
          obtain ⟨outcome, k''⟩ := result
          cases outcome with
          | ok a => exact (keepsFiles_syscallHandler findSpinfoByKpage tid esp).returns k a k'' held ran
          | error e => exact (keepsFiles_syscallHandler findSpinfoByKpage tid esp).stops k e k'' held ran
    · cases stepped
      exact held

theorem initial_filesHeld {k : Kernel} (start : Initial k) : FilesHeld k := by
  obtain ⟨sectorCount, formatted⟩ := start.fs
  refine ⟨filesysInit_openTable formatted, fun t proc _ _ found _ => ?_,
    fun t _ proc _ _ _ _ found => ?_, fun t proc found => ?_⟩ <;>
  · rw [start.procs t] at found
    cases found

theorem reachable_filesHeld {k : Kernel} (reached : Reachable findSpinfoByKpage k) : FilesHeld k :=
  Transition.Reachable.invariant (fun _ start => initial_filesHeld start)
    (fun _ _ _ held stepped => step_filesHeld findSpinfoByKpage held stepped) reached

end Access

/-- A process that created the file `"a"` and opened it as descriptor 2. -/
def openedRun : List Event :=
  startedProcess ++ callWith 1 frameEsp [4, nameAddress, 10] ++ callWith 1 frameEsp [6, nameAddress]

theorem openedFile_filesHeld :
    ∃ k, Reachable Vm.firstSpinfoByKpage k ∧
      ((k.procs 1).any fun proc => proc.openFiles[2]?.join.isSome) = true ∧ FilesHeld k := by
  have opened : Transition.runSatisfies (step Vm.firstSpinfoByKpage) smallMachine openedRun
      (fun k => (k.procs 1).any fun proc => proc.openFiles[2]?.join.isSome) = true := by
    decide +kernel
  obtain ⟨k, reached, named⟩ := Transition.Reachable.of_runSatisfies initial_smallMachine opened
  exact ⟨k, reached, named, reachable_filesHeld Vm.firstSpinfoByKpage reached⟩

end Pintos.Kernel

import Mathlib
import Pintos.Heap
import Pintos.Threads.Synch
import Pintos.Transition
import Pintos.Userprog.Syscall

/-!
# The exec and wait protocols

How processes start and end, from `userprog/process.c` and `threads/thread.c`:
`process_execute` creates a thread that runs `start_process`, which loads the
program and reports to its parent through the parent's `childExecSuccess` and
`exec_sema`; `exit_h` leaves the status in a status holder that the parent
owns, and `process_wait` waits on the child's own `wait_sema`.

Each thread runs its code step by step, and any thread may run between two
steps of another (interrupts are on, so the timer preempts).  A step is one
statement of the source, or a run of statements no other thread observes.  A
struct thread lives in a page of the kernel pool (the initial thread's apart),
and so does a status holder: both are heaps here, so a pointer kept after its
page was freed names nothing, and following it is the use after free.
`thread_exit` ends in `schedule`, and the thread that runs next frees the dying
thread's page (`thread_schedule_tail`) before it goes on.

Whether `load` succeeds is the environment's choice.  `process_execute` panics
on a command line too long for the stack page; of the command line only its
length matters here, the copy `malloc` makes of it is not modelled, and what
`thread_exit` does to paging and files is modelled elsewhere.
-/

namespace Pintos

/-- Where a thread is in the code of the two protocols. -/
inductive Pc where
  /-- Running its program, or back in it from a system call. -/
  | user
  /-- `process_execute`, after `thread_create` returned `tid`. -/
  | execCreated (tid : Int)
  /-- `process_execute`: `sema_down (&thread_current ()->exec_sema)`. -/
  | execDown (tid : Int)
  /-- `process_execute`, past the `sema_down`. -/
  | execCheck (tid : Int)
  /-- `start_process`, before `load`. -/
  | startLoad
  /-- `start_process`: `thread_current ()->parent->childExecSuccess = success`. -/
  | startFlag (success : Bool)
  /-- `start_process`: `sema_up (&thread_current ()->parent->exec_sema)`. -/
  | startUp (success : Bool)
  /-- `start_process` after a failed load, before its `thread_exit`. -/
  | loadFailed
  /-- `process_wait`: `sema_down` on the `wait_sema` of the holder's owner. -/
  | waitDown (holder : Nat)
  /-- `process_wait`, past the `sema_down`. -/
  | waitRead (holder : Nat)
  /-- `thread_exit`, past `sema_up (&thread_current ()->wait_sema)`. -/
  | exiting
  /-- `THREAD_DYING`, in a page that is never freed (the initial thread's). -/
  | dead
  deriving DecidableEq, Repr

/-- `struct status_holder`: `owner_thread` is the page of the child. -/
structure StatusHolder where
  status : Int
  tid : Nat
  ownerThread : Nat
  deriving DecidableEq, Repr

/-- The `struct thread` fields of the two protocols (pointers are page
addresses), with where the thread's code is, whether it is blocked, and what
the last `process_execute` or `process_wait` returned to it. -/
structure ThreadPage where
  tid : Nat
  parent : Option Nat
  childExecSuccess : Bool
  statHolder : Option Nat
  statusNumber : Int
  /-- `list_of_children`: the thread's status holders. -/
  listOfChildren : List Nat
  execSema : Semaphore
  waitSema : Semaphore
  pc : Pc
  blocked : Bool
  returned : Option Int
  deriving DecidableEq, Repr

/-- The threads and status holders, the pages the kernel pool has left, the
`next_tid` of `allocate_tid`, and the initial thread's page. -/
structure Lifecycle where
  threads : Heap ThreadPage
  holders : Heap StatusHolder
  freePages : Nat
  nextTid : Nat
  initialThread : Nat

namespace Lifecycle

def threadAt (st : Lifecycle) (t : Nat) : Except String ThreadPage :=
  match st.threads.get t with
  | some page => .ok page
  | none => .error "struct thread used after free"

def holderAt (st : Lifecycle) (holder : Nat) : Except String StatusHolder :=
  match st.holders.get holder with
  | some sHolder => .ok sHolder
  | none => .error "struct status_holder used after free"

def setThread (st : Lifecycle) (t : Nat) (page : ThreadPage) : Lifecycle :=
  { st with threads := st.threads.set t page }

/-- `palloc_get_page` from the kernel pool: whether a page was free. -/
def pallocGetPage (st : Lifecycle) : Lifecycle × Bool :=
  if st.freePages = 0 then (st, false) else ({ st with freePages := st.freePages - 1 }, true)

/-- `palloc_free_page` to the kernel pool. -/
def pallocFreePage (st : Lifecycle) : Lifecycle := { st with freePages := st.freePages + 1 }

/-- `thread_unblock` of the waiter a `sema_up` woke, if any. -/
def wake (st : Lifecycle) : Option Nat → Except String Lifecycle
  | none => .ok st
  | some t => do
      let page ← st.threadAt t
      return st.setThread t { page with blocked := false }

/-- The thread `init_thread` and `thread_create` make for `start_process`. -/
def startPage (tid parent holder : Nat) : ThreadPage where
  tid
  parent := some parent
  childExecSuccess := false
  statHolder := some holder
  statusNumber := -1
  listOfChildren := []
  execSema := .init 0
  waitSema := .init 0
  pc := .startLoad
  blocked := false
  returned := none

/-- `thread_create` by `parent` of a thread running `start_process`: the new
`tid`, or `TID_ERROR` (-1) when the pool has no page for the thread.  The status
holder's page is not tested: a null one is written through by `memset`, a
store to page 0 in kernel mode, which no page table maps and no spinfo covers
(`load` refuses page 0), so `page_fault` kills it as a kernel bug. -/
def threadCreate (st : Lifecycle) (parent : Nat) : Except String (Lifecycle × Int) := do
  let (st, gotThread) := st.pallocGetPage
  if !gotThread then return (st, -1)
  let tid := st.nextTid
  let st := { st with nextTid := tid + 1 }
  let (st, gotHolder) := st.pallocGetPage
  if !gotHolder then throw "Kernel bug - unexpected interrupt in kernel"
  let (holders, holder) := st.holders.alloc { status := -1, tid, ownerThread := st.threads.next }
  let (threads, _) := st.threads.alloc (startPage tid parent holder)
  let st := { st with threads, holders }
  let page ← st.threadAt parent
  return (st.setThread parent { page with listOfChildren := page.listOfChildren ++ [holder] }, tid)

/-- `process_execute` by `t` of a command line of `cmdLength` bytes, up to the
return of `thread_create`. -/
def processExecute (st : Lifecycle) (t cmdLength : Nat) : Except String Lifecycle := do
  if 4096 - (19 + maxArgs * 4) < cmdLength then throw "Not enough space for arguments"
  let (st, tid) ← st.threadCreate t
  let page ← st.threadAt t
  return st.setThread t { page with pc := .execCreated tid }

/-- The loop of `process_wait` over `list_of_children`: the holder of `tid`. -/
def findChild (st : Lifecycle) (tid : Int) : List Nat → Except String (Option Nat)
  | [] => .ok none
  | holder :: rest => do
      let sHolder ← st.holderAt holder
      if (sHolder.tid : Int) = tid then return some holder else st.findChild tid rest

/-- `exit_h` with `status` (or, for `none`, a thread ended without it), and
`thread_exit` up to its `sema_up (&thread_current ()->wait_sema)`. -/
def exitUp (st : Lifecycle) (t : Nat) (page : ThreadPage) (status : Option Int) :
    Except String Lifecycle := do
  let (st, page) ← match status with
    | some status => do
        let st ← match page.statHolder with
          | some holder => do
              let sHolder ← st.holderAt holder
              pure { st with holders := st.holders.set holder { sHolder with status } }
          | none => pure st
        pure (st, { page with statusNumber := status })
    | none => pure (st, page)
  let (sema, woken) := page.waitSema.up
  let st := st.setThread t { page with waitSema := sema, pc := .exiting }
  st.wake woken

/-- The events: each is the next step of thread `t`'s code. -/
inductive Event where
  /-- `exec` of a command line of `cmdLength` bytes: `process_execute` up to
  the return of `thread_create`. -/
  | exec (t cmdLength : Nat)
  | resetFlag (t : Nat)
  | execSemaDown (t : Nat)
  | execCheck (t : Nat)
  /-- `load`, with its outcome. -/
  | load (t : Nat) (success : Bool)
  | setFlag (t : Nat)
  | execSemaUp (t : Nat)
  /-- `wait`: the loop of `process_wait` over the children. -/
  | wait (t : Nat) (tid : Int)
  | waitSemaDown (t : Nat)
  | waitRead (t : Nat)
  /-- `exit_h (status)`, or an end without it, up to `sema_up (&wait_sema)`. -/
  | exit (t : Nat) (status : Option Int)
  /-- The rest of `thread_exit`: the thread is `THREAD_DYING` and its page is
  freed by the next thread to run. -/
  | finishExit (t : Nat)
  deriving DecidableEq, Repr

def Event.thread : Event → Nat
  | .exec t _ | .resetFlag t | .execSemaDown t | .execCheck t | .load t _ | .setFlag t
  | .execSemaUp t | .wait t _ | .waitSemaDown t | .waitRead t | .exit t _ | .finishExit t => t

/-- The step of thread `t`, at `page`, that `event` names, if its code is
there; otherwise nothing happens. -/
def perform (st : Lifecycle) (t : Nat) (page : ThreadPage) : Event → Except String Lifecycle
  | .exec _ cmdLength => if page.pc = .user then st.processExecute t cmdLength else .ok st
  | .resetFlag _ =>
      match page.pc with
      | .execCreated tid => .ok (st.setThread t { page with childExecSuccess := false, pc := .execDown tid })
      | _ => .ok st
  | .execSemaDown _ =>
      match page.pc with
      | .execDown tid =>
          let (sema, took) := page.execSema.down t
          .ok (st.setThread t (if took then { page with execSema := sema, pc := .execCheck tid }
            else { page with execSema := sema, blocked := true }))
      | _ => .ok st
  | .execCheck _ =>
      match page.pc with
      | .execCheck tid =>
          if !page.childExecSuccess then
            .ok (st.setThread t { page with pc := .user, returned := some (-1) })
          -- `free_frame (fn_copy)`: no frame holds the copy
          else if tid = -1 then .error "frame2free == NULL dereferenced"
          else .ok (st.setThread t { page with pc := .user, returned := some tid })
      | _ => .ok st
  | .load _ success =>
      if page.pc = .startLoad then .ok (st.setThread t { page with pc := .startFlag success })
      else .ok st
  | .setFlag _ =>
      match page.pc, page.parent with
      | .startFlag success, some parent => do
          let parentPage ← st.threadAt parent
          let st := st.setThread parent { parentPage with childExecSuccess := success }
          return st.setThread t { page with pc := .startUp success }
      | _, _ => .ok st
  | .execSemaUp _ =>
      match page.pc, page.parent with
      | .startUp success, some parent => do
          let parentPage ← st.threadAt parent
          let (sema, woken) := parentPage.execSema.up
          let st ← (st.setThread parent { parentPage with execSema := sema }).wake woken
          return st.setThread t { page with pc := if success then .user else .loadFailed }
      | _, _ => .ok st
  | .wait _ tid =>
      if page.pc = .user then do
        match ← st.findChild tid page.listOfChildren with
        | some holder => return st.setThread t { page with pc := .waitDown holder }
        | none => return st.setThread t { page with returned := some (-1) }
      else .ok st
  | .waitSemaDown _ =>
      match page.pc with
      | .waitDown holder => do
          let sHolder ← st.holderAt holder
          let owner ← st.threadAt sHolder.ownerThread
          let (sema, took) := owner.waitSema.down t
          let st := st.setThread sHolder.ownerThread { owner with waitSema := sema }
          return st.setThread t
            (if took then { page with pc := .waitRead holder } else { page with blocked := true })
      | _ => .ok st
  | .waitRead _ =>
      match page.pc with
      | .waitRead holder => do
          let sHolder ← st.holderAt holder
          let st := { st with holders := st.holders.free holder }.pallocFreePage
          return st.setThread t { page with
            listOfChildren := page.listOfChildren.erase holder, pc := .user,
            returned := some sHolder.status }
      | _ => .ok st
  | .exit _ status =>
      if page.pc = .user ∨ (page.pc = .loadFailed ∧ status = none) then st.exitUp t page status
      else .ok st
  | .finishExit _ =>
      if page.pc = .exiting then
        if t = st.initialThread then .ok (st.setThread t { page with pc := .dead })
        else .ok { st with threads := st.threads.free t }.pallocFreePage
      else .ok st

/-- One event: a thread that is gone or blocked does not run. -/
def step (st : Lifecycle) (event : Event) : Except String Lifecycle :=
  match st.threads.get event.thread with
  | some page => if page.blocked then .ok st else st.perform event.thread page event
  | none => .ok st

def initialPage : ThreadPage where
  tid := 1
  parent := none
  childExecSuccess := false
  statHolder := none
  statusNumber := 0
  listOfChildren := []
  execSema := .init 0
  waitSema := .init 0
  pc := .user
  blocked := false
  returned := none

/-- The initial thread alone, with `freePages` pages in the kernel pool. -/
def init (freePages : Nat) : Lifecycle where
  threads := (Heap.empty.alloc initialPage).1
  holders := Heap.empty
  freePages
  nextTid := 2
  initialThread := 0

def Initial (st : Lifecycle) : Prop := ∃ freePages, st = init freePages

def Reachable : Lifecycle → Prop := Transition.Reachable Initial step

theorem initial_init (freePages : Nat) : Initial (init freePages) := ⟨freePages, rfl⟩

/-! ## Runs of the protocols -/

/-- The initial thread execs a program while the pool has three pages; the new
thread (page 1) loads it and reports before its parent goes on. -/
def execRun : List Event :=
  [.exec 0 5, .resetFlag 0, .execSemaDown 0, .load 1 true, .setFlag 1, .execSemaUp 1,
    .execSemaDown 0, .execCheck 0]

/-- The child runs first: it loads and reports before its parent resets
`childExecSuccess`, so the parent takes the `sema_up` and reads `false`. -/
def earlyChildRun : List Event :=
  [.exec 0 5, .load 1 true, .setFlag 1, .execSemaUp 1, .resetFlag 0, .execSemaDown 0,
    .execCheck 0]

theorem exec_misses_early_child :
    ∃ st parentPage childPage, Reachable st ∧
      st.threads.get 0 = some parentPage ∧ parentPage.pc = .user ∧
      parentPage.returned = some (-1) ∧
      st.threads.get 1 = some childPage ∧ childPage.parent = some 0 ∧ childPage.pc = .user := by
  have missed : Transition.runSatisfies step (init 3) earlyChildRun (fun st =>
      match st.threads.get 0, st.threads.get 1 with
      | some parentPage, some childPage =>
          parentPage.pc == .user && parentPage.returned == some (-1) &&
            childPage.parent == some 0 && childPage.pc == .user
      | some _, none | none, some _ | none, none => false) = true := by
    decide
  obtain ⟨st, reached, holds⟩ := Transition.Reachable.of_runSatisfies (initial_init 3) missed
  revert holds
  split
  · rename_i parentPage childPage parentFound childFound
    simp only [Bool.and_eq_true, beq_iff_eq]
    rintro ⟨⟨⟨returnedToUser, failed⟩, childOf⟩, loaded⟩
    exact ⟨st, parentPage, childPage, reached, parentFound, returnedToUser, failed, childFound,
      childOf, loaded⟩
  all_goals
    intro impossible
    cases impossible

/-- After one exec the pool has a single page left: the next exec gets the
thread's page and no page for the status holder. -/
theorem exec_panics_without_holder_page :
    ∃ st page, Reachable st ∧ st.threads.get 0 = some page ∧ page.pc = .user ∧
      step st (.exec 0 5) = .error "Kernel bug - unexpected interrupt in kernel" := by
  have panics : Transition.runSatisfies step (init 3) execRun (fun st =>
      match st.threads.get 0 with
      | some page => page.pc == .user &&
          Transition.stopsWith (step st (.exec 0 5)) "Kernel bug - unexpected interrupt in kernel"
      | none => false) = true := by
    decide
  obtain ⟨st, reached, holds⟩ := Transition.Reachable.of_runSatisfies (initial_init 3) panics
  revert holds
  split
  · rename_i page found
    simp only [Bool.and_eq_true, beq_iff_eq]
    rintro ⟨returnedToUser, stopped⟩
    exact ⟨st, page, reached, found, returnedToUser, Transition.eq_error_of_stopsWith stopped⟩
  · intro impossible
    cases impossible

/-- The child exits and its page is freed; its parent then waits for it. -/
def exitBeforeWaitRun : List Event :=
  execRun ++ [.exit 1 (some 7), .finishExit 1, .wait 0 2]

theorem wait_downs_freed_wait_sema :
    ∃ st page holder, Reachable st ∧ st.threads.get 0 = some page ∧
      page.pc = .waitDown holder ∧
      step st (.waitSemaDown 0) = .error "struct thread used after free" := by
  have freed : Transition.runSatisfies step (init 3) exitBeforeWaitRun (fun st =>
      match st.threads.get 0 with
      | some page => page.pc == .waitDown 0 &&
          Transition.stopsWith (step st (.waitSemaDown 0)) "struct thread used after free"
      | none => false) = true := by
    decide
  obtain ⟨st, reached, holds⟩ := Transition.Reachable.of_runSatisfies (initial_init 3) freed
  revert holds
  split
  · rename_i page found
    simp only [Bool.and_eq_true, beq_iff_eq]
    rintro ⟨waiting, stopped⟩
    exact ⟨st, page, 0, reached, found, waiting, Transition.eq_error_of_stopsWith stopped⟩
  · intro impossible
    cases impossible

end Lifecycle

end Pintos

import Mathlib
import Pintos.Transition
import Pintos.Threads.Synch

/-!
# Threads, semaphores and locks on one CPU

`threads/thread.c` and `threads/synch.c`: the ready list, the idle thread, `schedule` with
`thread_schedule_tail`, `sema_down`/`sema_try_down`/`sema_up` and `lock_acquire`/
`lock_try_acquire`/`lock_release`.

A `struct thread` lives at the start of the page `palloc_get_page` gave it, and a pointer to a
thread is that page; when `thread_schedule_tail` frees a dying thread's page, the next
`palloc_get_page` may hand the same page to a new thread.  The CPU runs `current`
(`running_thread ()`).

A thread runs either its own code, which may call a primitive at any time, or the code of the
primitive it is in: the pieces it has left, each a stretch of code between two points where the
timer can interrupt it, so that a piece runs atomically.  The pieces a thread resumes with
after `thread_block` (`semaRetest`, `lockRetest`) and those that follow a primitive's inner call
(`setHolder`, `lockUp`) are put in front of the thread's code by the piece before them.  A
thread in the loop of `sema_down` runs with interrupts off; everywhere else interrupts are on
once `thread_start` has enabled them, and the timer may then make the running thread yield.

The semaphores are `thread_start`'s `idle_started`, the kernel's others, and the one inside each
lock; semaphores inside thread pages (`exec_sema`, `wait_sema`) are left to the exec and wait
protocols.  `ups` and `downs` count the completed `sema_up`s and `sema_down`s (successful
`sema_try_down`s included), and `held` is the set of locks whose `lock_acquire` has returned and
whose `lock_release` has not begun: records of the past that the code does not keep.
-/

namespace Pintos.Scheduler

open Function

/-- `enum thread_status`. -/
inductive ThreadStatus where
  | running
  | ready
  | blocked
  | dying
  deriving DecidableEq, Repr

/-- The locks: the kernel pool's `pool->lock` that `palloc_get_page` takes, `tid_lock`,
`memory_master_lock`, and the kernel's others. -/
inductive LockRef where
  | pool
  | tid
  | memoryMaster
  | other (i : Nat)
  deriving DecidableEq, Repr

/-- A semaphore of its own: `thread_start`'s `idle_started`, or one of the kernel's others. -/
inductive Sema where
  | idleStarted
  | other (i : Nat)
  deriving DecidableEq, Repr

/-- Any semaphore: one of its own, or the one inside a lock. -/
inductive SemaRef where
  | plain (s : Sema)
  | lock (l : LockRef)
  deriving DecidableEq, Repr

/-- The pieces of the primitives' code. -/
inductive Piece where
  /-- `sema_down`, from its `intr_disable ()` to its return or to the `thread_block` of its
  loop. -/
  | semaDown (s : Sema)
  /-- The loop of `sema_down` again, after its `thread_block` has returned. -/
  | semaRetest (s : Sema)
  | semaTryDown (s : Sema)
  | semaUp (s : Sema)
  /-- `ASSERT (!lock_held_by_current_thread (lock))`. -/
  | checkNotHeld (l : LockRef)
  /-- `sema_down (&lock->semaphore)` of `lock_acquire`. -/
  | lockDown (l : LockRef)
  /-- The loop of that `sema_down` again. -/
  | lockRetest (l : LockRef)
  /-- `lock->holder = thread_current ()`. -/
  | setHolder (l : LockRef)
  /-- `sema_try_down (&lock->semaphore)` of `lock_try_acquire`. -/
  | tryAcquire (l : LockRef)
  /-- `ASSERT (lock_held_by_current_thread (lock)); lock->holder = NULL;` -/
  | clearHolder (l : LockRef)
  /-- `sema_up (&lock->semaphore)` of `lock_release`. -/
  | lockUp (l : LockRef)
  /-- `thread_exit`: `if (!lock_held_by_current_thread (lock)) lock_acquire (lock)`. -/
  | acquireUnlessHeld (l : LockRef)
  /-- `thread_exit`: `if (lock_held_by_current_thread (lock)) lock_release (lock)`. -/
  | releaseIfHeld (l : LockRef)
  | yield
  /-- `bitmap_scan_and_flip` of the `palloc_get_page (PAL_ZERO)` in `thread_create`, with the
  `init_thread` of the page; `idle` for the thread of `thread_start`. -/
  | pallocThread (idle : Bool)
  /-- The `palloc_get_page (0)` of the status holder, and the `memset` on it. -/
  | pallocHolder
  /-- `thread_unblock (t)` at the end of `thread_create`. -/
  | unblockCreated
  /-- `thread_exit` from its `intr_disable ()` on. -/
  | exitTail
  /-- `intr_enable ()` of `thread_start`. -/
  | intrEnable
  /-- `idle_thread = thread_current ()`. -/
  | idleStart
  /-- A turn of `idle`'s loop: `intr_disable (); thread_block ();` and then `sti; hlt`. -/
  | idleBlock
  deriving DecidableEq, Repr

def lockAcquireCode (l : LockRef) : List Piece := [.checkNotHeld l, .lockDown l]

def lockTryAcquireCode (l : LockRef) : List Piece := [.checkNotHeld l, .tryAcquire l]

def lockReleaseCode (l : LockRef) : List Piece := [.clearHolder l]

/-- `thread_create` up to the scan of `palloc_get_page`. -/
def threadCreateCode (idle : Bool) : List Piece := lockAcquireCode .pool ++ [.pallocThread idle]

/-- `thread_create` once it has the thread's page: the end of `palloc_get_page`,
`allocate_tid`, the status holder's page and `thread_unblock`. -/
def threadCreateRest : List Piece :=
  lockReleaseCode .pool ++ lockAcquireCode .tid ++ lockReleaseCode .tid ++
    lockAcquireCode .pool ++ [.pallocHolder] ++ lockReleaseCode .pool ++ [.unblockCreated]

/-- `thread_exit`; `process_exit` and the rest of its body are other calls of the thread. -/
def threadExitCode : List Piece :=
  [.acquireUnlessHeld .memoryMaster, .releaseIfHeld .memoryMaster, .exitTail]

/-- `thread_start`, which `main` calls first. -/
def threadStartCode : List Piece := threadCreateCode true ++ [.intrEnable, .semaDown .idleStarted]

/-- `idle`, from `kernel_thread` on. -/
def idleCode : List Piece := [.idleStart, .semaUp .idleStarted, .idleBlock]

/-- The primitives a thread's own code calls. -/
inductive Call where
  | semaDown (i : Nat)
  | semaTryDown (i : Nat)
  | semaUp (i : Nat)
  | lockAcquire (l : LockRef)
  | lockTryAcquire (l : LockRef)
  | lockRelease (l : LockRef)
  | threadCreate
  | threadYield
  | threadExit
  deriving DecidableEq, Repr

def Call.code : Call → List Piece
  | .semaDown i => [.semaDown (.other i)]
  | .semaTryDown i => [.semaTryDown (.other i)]
  | .semaUp i => [.semaUp (.other i)]
  | .lockAcquire l => lockAcquireCode l
  | .lockTryAcquire l => lockTryAcquireCode l
  | .lockRelease l => lockReleaseCode l
  | .threadCreate => threadCreateCode false
  | .threadYield => [.yield]
  | .threadExit => threadExitCode

/-- A `struct thread`: its status, where its code is, whether it runs `idle`, `thread_create`'s
local `t` (the thread it made and has not yet unblocked), and the locks it holds. -/
structure Thread where
  status : ThreadStatus
  code : List Piece
  idle : Bool
  created : Option Nat
  held : List LockRef
  deriving DecidableEq, Repr

/-- `init_thread`: a blocked thread about to run `idle` or a kernel function. -/
def initThread (idle : Bool) : Thread where
  status := .blocked
  code := if idle then idleCode else []
  idle
  created := none
  held := []

end Pintos.Scheduler

namespace Pintos

open Scheduler

structure Sched where
  threads : Nat → Option Thread
  current : Nat
  readyList : List Nat
  idleThread : Option Nat
  initialThread : Nat
  semas : SemaRef → Semaphore
  holder : LockRef → Option Nat
  threadTicks : Nat
  /-- Whether `thread_start` has enabled interrupts. -/
  started : Bool
  ups : SemaRef → Nat
  downs : SemaRef → Nat

end Pintos

namespace Pintos.Scheduler

open Function

/-- `TIME_SLICE`. -/
def timeSlice : Nat := 4

/-- The value `sema_init` gives: `idle_started` 0, a lock's semaphore 1, the others `values`. -/
def initValue (values : Nat → Nat) : SemaRef → Nat
  | .plain .idleStarted => 0
  | .plain (.other i) => values i
  | .lock _ => 1

/-- The machine after `thread_init`: the initial thread runs on page `main`, about to call
`thread_start`, with interrupts off. -/
def boot (main : Nat) (values : Nat → Nat) : Sched where
  threads := update (fun _ => none) main
    (some { status := .running, code := threadStartCode, idle := false, created := none, held := [] })
  current := main
  readyList := []
  idleThread := none
  initialThread := main
  semas s := Semaphore.init (initValue values s)
  holder _ := none
  threadTicks := 0
  started := false
  ups _ := 0
  downs _ := 0

end Pintos.Scheduler

namespace Pintos.Sched

open Scheduler Function

def setThread (st : Sched) (t : Nat) (th : Thread) : Sched :=
  { st with threads := update st.threads t (some th) }

def setSema (st : Sched) (s : SemaRef) (sema : Semaphore) : Sched :=
  { st with semas := update st.semas s sema }

/-- `thread_unblock (t)`. -/
def threadUnblock (st : Sched) (t : Nat) : Except String Sched :=
  match st.threads t with
  | none => throw "assertion is_thread (t) failed"
  | some th =>
    if th.status = .blocked then
      pure { st.setThread t { th with status := .ready } with readyList := st.readyList ++ [t] }
    else throw "assertion t->status == THREAD_BLOCKED failed"

/-- `next_thread_to_run`, and the ready list it leaves. -/
def nextThreadToRun (st : Sched) : Option Nat × List Nat :=
  match st.readyList with
  | [] => (st.idleThread, [])
  | t :: rest => (some t, rest)

/-- `schedule` once the running thread has left `THREAD_RUNNING`, with the
`thread_schedule_tail` that the thread switched to runs: it is marked running, and the page of
a dying thread switched from is freed unless it is the initial thread's. -/
def schedule (st : Sched) : Except String Sched :=
  match st.threads st.current with
  | none => throw "assertion is_thread (cur) failed"
  | some cur =>
    if cur.status = .running then throw "assertion cur->status != THREAD_RUNNING failed" else
    match st.nextThreadToRun with
    | (none, _) => throw "assertion is_thread (next) failed"
    | (some next, readyList) =>
      match st.threads next with
      | none => throw "assertion is_thread (next) failed"
      | some nextThread =>
        let switched := { st.setThread next { nextThread with status := .running } with
          current := next, readyList, threadTicks := 0 }
        if next ≠ st.current ∧ cur.status = .dying ∧ st.current ≠ st.initialThread then
          pure { switched with threads := update switched.threads st.current none }
        else pure switched

/-- A test of the loop of `sema_down (s)` by the running thread `t`: it takes one and goes on
with `taken` (what its caller does next, if it is a piece of its own) and `rest`, or joins the
waiters and blocks to resume with `retest`. -/
def semaDownTest (st : Sched) (t : Nat) (th : Thread) (s : SemaRef) (taken : Option Piece)
    (retest : Piece) (rest : List Piece) : Except String Sched :=
  match (st.semas s).down t with
  | (sema, true) =>
    pure { (st.setSema s sema).setThread t { th with code := taken.toList ++ rest } with
      downs := update st.downs s (st.downs s + 1) }
  | (sema, false) =>
    ((st.setSema s sema).setThread t { th with status := .blocked, code := retest :: rest }).schedule

/-- `sema_try_down (s)`: whether it took one. -/
def semaTryDown (st : Sched) (s : SemaRef) : Sched × Bool :=
  if 0 < (st.semas s).value then
    ({ st.setSema s { st.semas s with value := (st.semas s).value - 1 } with
      downs := update st.downs s (st.downs s + 1) }, true)
  else (st, false)

/-- `sema_up (s)`: wake the first waiter, if any, and add one. -/
def semaUp (st : Sched) (s : SemaRef) : Except String Sched :=
  match (st.semas s).up with
  | (sema, woken) =>
    let st := { st.setSema s sema with ups := update st.ups s (st.ups s + 1) }
    match woken with
    | some u => st.threadUnblock u
    | none => pure st

/-- `thread_yield` by the running thread `t`, which goes on with `rest`: the idle thread does not
go on the ready list. -/
def threadYield (st : Sched) (t : Nat) (th : Thread) (rest : List Piece) : Except String Sched :=
  let readyList := if st.idleThread = some t then st.readyList else st.readyList ++ [t]
  ({ st.setThread t { th with status := .ready, code := rest } with readyList }).schedule

/-- The running thread `t` runs `piece` and goes on with `rest`; `page` is what
`palloc_get_page` returns, where the piece calls it. -/
def runPiece (st : Sched) (t : Nat) (th : Thread) (page : Option Nat) (rest : List Piece) :
    Piece → Except String Sched
  | .semaDown s | .semaRetest s =>
    st.semaDownTest t th (.plain s) none (.semaRetest s) rest
  | .semaTryDown s => pure ((st.semaTryDown (.plain s)).1.setThread t { th with code := rest })
  | .semaUp s => (st.setThread t { th with code := rest }).semaUp (.plain s)
  | .checkNotHeld l =>
    if st.holder l = some t then throw "assertion !lock_held_by_current_thread (lock) failed"
    else pure (st.setThread t { th with code := rest })
  | .lockDown l | .lockRetest l =>
    st.semaDownTest t th (.lock l) (some (.setHolder l)) (.lockRetest l) rest
  | .setHolder l =>
    pure { st.setThread t { th with code := rest, held := th.held.insert l } with
      holder := update st.holder l (some t) }
  | .tryAcquire l =>
    match st.semaTryDown (.lock l) with
    | (st', success) => pure (st'.setThread t { th with code := if success then .setHolder l :: rest else rest })
  | .clearHolder l =>
    if st.holder l = some t then
      pure { st.setThread t { th with code := .lockUp l :: rest, held := th.held.erase l } with
        holder := update st.holder l none }
    else throw "assertion lock_held_by_current_thread (lock) failed"
  | .lockUp l => (st.setThread t { th with code := rest }).semaUp (.lock l)
  | .acquireUnlessHeld l =>
    pure (st.setThread t { th with code := if st.holder l = some t then rest else lockAcquireCode l ++ rest })
  | .releaseIfHeld l =>
    pure (st.setThread t { th with code := if st.holder l = some t then lockReleaseCode l ++ rest else rest })
  | .yield => st.threadYield t th rest
  | .pallocThread idle =>
    match page with
    -- `thread_create` returns `TID_ERROR` once `palloc_get_page` has let go of the pool
    | none => pure (st.setThread t { th with code := lockReleaseCode .pool ++ rest })
    | some p =>
      -- a page that holds a thread is not one `palloc_get_page` can return
      if (st.threads p).isSome then pure st
      else pure ((st.setThread p (initThread idle)).setThread t
        { th with code := threadCreateRest ++ rest, created := some p })
  | .pallocHolder =>
    match page with
    -- `memset` through the null pointer: a kernel page fault that `page_fault` kills
    | none => throw "Kernel bug - unexpected interrupt in kernel"
    | some _ => pure (st.setThread t { th with code := rest })
  | .unblockCreated =>
    match th.created with
    | none => throw "assertion is_thread (t) failed"
    | some p => (st.setThread t { th with code := rest, created := none }).threadUnblock p
  | .exitTail => (st.setThread t { th with status := .dying, code := rest }).schedule
  | .intrEnable => pure { st.setThread t { th with code := rest } with started := true }
  | .idleStart => pure { st.setThread t { th with code := rest } with idleThread := some t }
  -- the loop goes on: the thread resumes at the same piece
  | .idleBlock => (st.setThread t { th with status := .blocked }).schedule

/-- Whether interrupts are on where the running thread is: once `thread_start` has enabled them,
everywhere but in the loop of a `sema_down`. -/
def intrOn (st : Sched) (th : Thread) : Bool :=
  st.started &&
    match th.code with
    | .semaRetest _ :: _ | .lockRetest _ :: _ => false
    | _ => true

end Pintos.Sched

namespace Pintos.Scheduler

open Function

/-- What happens next: the running thread calls a primitive from its own code, or runs its next
piece; or an interrupt comes. -/
inductive Action where
  | call (c : Call)
  /-- `page` is what `palloc_get_page` returns, if the piece calls it. -/
  | next (page : Option Nat)
  /-- The timer interrupt, whose `thread_tick` may make the running thread yield. -/
  | tick
  /-- An interrupt handler's `sema_up` or `sema_try_down`. -/
  | handlerUp (i : Nat)
  | handlerTryDown (i : Nat)
  deriving DecidableEq, Repr

open Sched in
def step (st : Sched) : Action → Except String Sched
  | .call c =>
    match st.threads st.current with
    | some th => if th.code = [] then pure (st.setThread st.current { th with code := c.code }) else pure st
    | none => pure st
  | .next page =>
    match st.threads st.current with
    | some th =>
      match th.code with
      | piece :: rest => st.runPiece st.current th page rest piece
      | [] => pure st
    | none => pure st
  | .tick =>
    match st.threads st.current with
    | some th =>
      if st.intrOn th then
        -- `thread_tick`: `if (++thread_ticks >= TIME_SLICE) intr_yield_on_return ()`
        let st' := { st with threadTicks := st.threadTicks + 1 }
        if timeSlice ≤ st'.threadTicks then st'.threadYield st.current th th.code else pure st'
      else pure st
    | none => pure st
  | .handlerUp i =>
    match st.threads st.current with
    | some th => if st.intrOn th then st.semaUp (.plain (.other i)) else pure st
    | none => pure st
  | .handlerTryDown i =>
    match st.threads st.current with
    | some th => if st.intrOn th then pure (st.semaTryDown (.plain (.other i))).1 else pure st
    | none => pure st

/-- The states the machine reaches from `boot main values`. -/
def Reachable (main : Nat) (values : Nat → Nat) : Sched → Prop :=
  Transition.Reachable (· = boot main values) step

end Pintos.Scheduler

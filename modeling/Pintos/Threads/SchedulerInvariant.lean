import Mathlib
import Pintos.Enumerates
import Pintos.Threads.Scheduler

/-!
# What the scheduler keeps

Every reachable state of the machine of `Pintos.Threads.Scheduler` satisfies `Inv`:

* `Queues`: each thread has a place (`Sched.place`), read off its status and the piece it
  resumes with; exactly one thread runs, the ready list enumerates the ready threads other than
  the idle thread, and each semaphore's waiters enumerate the threads blocked in its
  `sema_down`;
* `Counted`: a semaphore's value is its initial value plus its completed `sema_up`s minus its
  completed `sema_down`s;
* `Locks`: at most one thread is inside a lock, between the `sema_down` of its `lock_acquire`
  and the `sema_up` of its `lock_release`, and a thread that holds a lock is its holder;
* `Shaped`: what the code of each thread can look like.

The converse of the last part of `Locks` fails: a thread that ends in `thread_exit` holding a
lock stays its holder after its page is freed, and a thread later made on the same page holds
the lock without having acquired it.
-/

namespace Pintos.Scheduler

open Function

/-- Where a thread is, as the scheduler's lists see it. -/
inductive Place where
  | running
  /-- `THREAD_READY`, and on the ready list. -/
  | queued
  /-- `THREAD_READY` idle thread, which `thread_yield` keeps off the ready list. -/
  | aside
  /-- `THREAD_BLOCKED` in the loop of `sema_down (s)`. -/
  | waiting (s : SemaRef)
  /-- `THREAD_BLOCKED` elsewhere: made and not yet unblocked, or `idle` in its loop. -/
  | asleep
  | dying
  /-- No thread on the page. -/
  | free
  deriving DecidableEq, Repr

/-- The semaphore whose loop a piece resumes. -/
def Piece.retest : Piece → Option SemaRef
  | .semaRetest s => some (.plain s)
  | .lockRetest l => some (.lock l)
  | _ => none

def Thread.place (th : Thread) (isIdle : Bool) : Place :=
  match th.status with
  | .running => .running
  | .ready => if isIdle then .aside else .queued
  | .blocked =>
    match th.code.head?.bind Piece.retest with
    | some s => .waiting s
    | none => .asleep
  | .dying => .dying

end Pintos.Scheduler

namespace Pintos.Sched

open Scheduler Function

def place (st : Sched) (t : Nat) : Place :=
  match st.threads t with
  | some th => th.place (st.idleThread == some t)
  | none => .free

section Fields

variable (st : Sched) (t : Nat) (th : Thread) (s : SemaRef) (sema : Semaphore)

@[simp] theorem setThread_threads : (st.setThread t th).threads = update st.threads t (some th) := rfl
@[simp] theorem setThread_current : (st.setThread t th).current = st.current := rfl
@[simp] theorem setThread_readyList : (st.setThread t th).readyList = st.readyList := rfl
@[simp] theorem setThread_idleThread : (st.setThread t th).idleThread = st.idleThread := rfl
@[simp] theorem setThread_initialThread : (st.setThread t th).initialThread = st.initialThread := rfl
@[simp] theorem setThread_semas : (st.setThread t th).semas = st.semas := rfl
@[simp] theorem setThread_holder : (st.setThread t th).holder = st.holder := rfl
@[simp] theorem setThread_started : (st.setThread t th).started = st.started := rfl
@[simp] theorem setThread_ups : (st.setThread t th).ups = st.ups := rfl
@[simp] theorem setThread_downs : (st.setThread t th).downs = st.downs := rfl

@[simp] theorem setSema_threads : (st.setSema s sema).threads = st.threads := rfl
@[simp] theorem setSema_current : (st.setSema s sema).current = st.current := rfl
@[simp] theorem setSema_readyList : (st.setSema s sema).readyList = st.readyList := rfl
@[simp] theorem setSema_idleThread : (st.setSema s sema).idleThread = st.idleThread := rfl
@[simp] theorem setSema_initialThread : (st.setSema s sema).initialThread = st.initialThread := rfl
@[simp] theorem setSema_semas : (st.setSema s sema).semas = update st.semas s sema := rfl
@[simp] theorem setSema_holder : (st.setSema s sema).holder = st.holder := rfl
@[simp] theorem setSema_started : (st.setSema s sema).started = st.started := rfl
@[simp] theorem setSema_ups : (st.setSema s sema).ups = st.ups := rfl
@[simp] theorem setSema_downs : (st.setSema s sema).downs = st.downs := rfl

theorem semaTryDown_threads : (st.semaTryDown s).1.threads = st.threads := by
  unfold semaTryDown
  split <;> rfl

theorem semaTryDown_current : (st.semaTryDown s).1.current = st.current := by
  unfold semaTryDown
  split <;> rfl

end Fields

theorem place_setThread (st : Sched) (t u : Nat) (th : Thread) :
    (st.setThread t th).place u =
      if u = t then th.place (st.idleThread == some t) else st.place u := by
  by_cases same : u = t
  · subst same
    simp [place]
  · simp [place, same]

theorem place_eq_free {st : Sched} {t : Nat} : st.place t = .free ↔ st.threads t = none := by
  unfold place
  cases found : st.threads t with
  | none => simp
  | some th =>
    simp only [reduceCtorEq, iff_false]
    unfold Thread.place
    split
    · simp
    · split <;> simp
    · split <;> simp
    · simp

end Pintos.Sched

namespace Pintos.Scheduler

open Function Sched

/-! ## The invariant -/

/-- Exactly one thread runs, the ready list enumerates the ready threads other than the idle
thread, and each semaphore's waiters enumerate the threads blocked in its `sema_down`. -/
structure Queues (st : Sched) : Prop where
  running : ∀ t, st.place t = .running ↔ t = st.current
  ready : Enumerates st.readyList (st.place · = .queued)
  waiters : ∀ s, Enumerates (st.semas s).waiters (st.place · = .waiting s)

/-- What `schedule` finds: the lists are right and no thread runs, since the running thread has
just left `THREAD_RUNNING`; the idle thread is ready or asleep. -/
structure Switching (st : Sched) : Prop where
  notRunning : ∀ t, st.place t ≠ .running
  ready : Enumerates st.readyList (st.place · = .queued)
  waiters : ∀ s, Enumerates (st.semas s).waiters (st.place · = .waiting s)
  idle : ∀ i, st.idleThread = some i → st.place i = .aside ∨ st.place i = .asleep

/-- A semaphore's value is its initial value plus its completed `sema_up`s minus its completed
`sema_down`s. -/
def Counted (values : Nat → Nat) (st : Sched) : Prop :=
  ∀ s, (st.semas s).value + st.downs s = initValue values s + st.ups s

/-- The lock whose `lock_acquire` or `lock_release` a piece continues after its inner call. -/
def Piece.midLock : Piece → Option LockRef
  | .setHolder l | .lockUp l => some l
  | _ => none

/-- The lock the thread is in the middle of acquiring or releasing, past the semaphore. -/
def Thread.midLock (th : Thread) : Option LockRef := th.code.head?.bind Piece.midLock

/-- Inside lock `l`: from the `sema_down` of its `lock_acquire` (or the `sema_try_down` of its
`lock_try_acquire`) to the `sema_up` of its `lock_release`. -/
def Thread.Inside (th : Thread) (l : LockRef) : Prop := l ∈ th.held ∨ th.midLock = some l

/-- At most one thread is inside a lock, and only while its semaphore is 0; a thread that holds
a lock is its holder, and nobody is while a thread is past the semaphore but not holding. -/
structure Locks (st : Sched) : Prop where
  atMostOne : ∀ l, (st.semas (.lock l)).value ≤ 1
  outside : ∀ l t th, (st.semas (.lock l)).value = 1 → st.threads t = some th → ¬th.Inside l
  exclusive : ∀ l t u th uh, st.threads t = some th → st.threads u = some uh → th.Inside l →
    uh.Inside l → t = u
  taken : ∀ l t, st.holder l = some t → (st.semas (.lock l)).value = 0
  unset : ∀ l t th, st.threads t = some th → th.midLock = some l → st.holder l = none
  holder : ∀ l t th, st.threads t = some th → l ∈ th.held → st.holder l = some t
  nodup : ∀ t th, st.threads t = some th → th.held.Nodup
  midFree : ∀ l t th, st.threads t = some th → th.midLock = some l → l ∉ th.held

/-- Pieces that only stand at the front of a thread's code: those a thread resumes with, and
those that follow a primitive's inner call. -/
def Piece.front : Piece → Bool
  | .semaRetest _ | .lockRetest _ | .setHolder _ | .lockUp _ => true
  | _ => false

/-- The code of a thread: front pieces only in front, `idle`'s code for the idle thread and no
piece of it for the others, and `thread_start`'s creation of the idle thread at most once. -/
structure CodeShape (idle : Bool) (code : List Piece) : Prop where
  front : ∀ p ∈ code.tail, p.front = false
  idleCode : idle = true → code = idleCode ∨ code = idleCode.tail ∨ code = [.idleBlock]
  kernelCode : idle = false → .idleStart ∉ code ∧ .idleBlock ∉ code
  createsIdle : code.count (.pallocThread true) ≤ 1

/-- The codes have their shape; the idle thread never dies and is the one thread running
`idle`, whose creation is pending in at most one thread's code; a thread `thread_create` has
made and not yet unblocked is as `init_thread` left it. -/
structure Shaped (st : Sched) : Prop where
  code : ∀ t th, st.threads t = some th → CodeShape th.idle th.code
  idleStatus : ∀ t th, st.threads t = some th → th.idle = true → th.status ≠ .dying
  idleThread : ∀ i, st.idleThread = some i →
    ∃ th, st.threads i = some th ∧ th.idle = true ∧ th.code ≠ idleCode
  oneIdle : ∀ t u th uh, st.threads t = some th → st.threads u = some uh → th.idle = true →
    uh.idle = true → t = u
  pendingIdle : ∀ t th, st.threads t = some th → .pallocThread true ∈ th.code →
    ∀ u uh, st.threads u = some uh → uh.idle = false ∧ (.pallocThread true ∈ uh.code → u = t)
  created : ∀ t th p, st.threads t = some th → th.created = some p →
    (∃ ph, st.threads p = some ph ∧ ph = initThread ph.idle) ∧
      ∀ u uh, st.threads u = some uh → uh.created = some p → u = t

structure Inv (values : Nat → Nat) (st : Sched) : Prop where
  queues : Queues st
  counted : Counted values st
  locks : Locks st
  shaped : Shaped st

/-! ## `schedule` -/

/-- What a `schedule` that switched from `cur` to `next` did. -/
structure Switched (st st' : Sched) (cur next : Thread) (n : Nat) : Prop where
  found : st.threads st.current = some cur
  leaving : cur.status ≠ .running
  picked : st.nextThreadToRun.1 = some n
  nextFound : st.threads n = some next
  current : st'.current = n
  readyList : st'.readyList = st.nextThreadToRun.2
  threads : ∀ u, st'.threads u =
    if u = n then some { next with status := .running }
    else if u = st.current ∧ cur.status = .dying ∧ st.current ≠ st.initialThread then none
    else st.threads u
  idleThread : st'.idleThread = st.idleThread
  semas : st'.semas = st.semas
  holder : st'.holder = st.holder
  ups : st'.ups = st.ups
  downs : st'.downs = st.downs
  started : st'.started = st.started

theorem schedule_ok {st st' : Sched} (scheduled : st.schedule = .ok st') :
    ∃ cur next n, Switched st st' cur next n := by
  unfold Sched.schedule at scheduled
  split at scheduled
  · cases scheduled
  rename_i cur found
  split at scheduled
  · cases scheduled
  rename_i leaving
  split at scheduled
  · cases scheduled
  rename_i n readyList picked
  split at scheduled
  · cases scheduled
  rename_i next nextFound
  have picked' : st.nextThreadToRun.1 = some n := by rw [picked]
  have rest : readyList = st.nextThreadToRun.2 := by rw [picked]
  have running : ∀ u, (update st.threads n (some { next with status := .running })) u =
      if u = n then some { next with status := .running } else st.threads u := fun u => by
    by_cases same : u = n <;> simp [same]
  -- the page of `prev` is freed when it was dying and not the initial thread's
  split at scheduled <;> cases scheduled
  · rename_i freed
    refine ⟨cur, next, n, found, leaving, picked', nextFound, rfl, rest, fun u => ?_, rfl, rfl, rfl,
      rfl, rfl, rfl⟩
    by_cases same : u = n
    · subst same
      simp [freed.1]
    · by_cases current : u = st.current
      · subst current
        simp [same, freed.2]
      · simp [same, current]
  · rename_i kept
    refine ⟨cur, next, n, found, leaving, picked', nextFound, rfl, rest, fun u => ?_, rfl, rfl, rfl,
      rfl, rfl, rfl⟩
    rw [setThread_threads, running u]
    by_cases same : u = n
    · simp [same]
    · simp only [same, if_false]
      split
      · rename_i freed
        exact absurd ⟨freed.1 ▸ Ne.symm same, freed.2⟩ kept
      · rfl

namespace Switched

variable {st st' : Sched} {cur next : Thread} {n : Nat}

theorem place_next (switched : Switched st st' cur next n) : st'.place n = .running := by
  simp [Sched.place, switched.threads, Thread.place]

theorem place_of_ne (switched : Switched st st' cur next n) {u : Nat} (other : u ≠ n) :
    st'.place u = st.place u ∨ (st.place u = .dying ∧ st'.place u = .free) := by
  by_cases freed : u = st.current ∧ cur.status = .dying ∧ st.current ≠ st.initialThread
  · obtain ⟨rfl, dying, notInitial⟩ := freed
    right
    simp [Sched.place, switched.threads, other, switched.found, dying, notInitial, Thread.place]
  · left
    simp only [Sched.place, switched.threads, other, if_false, freed, switched.idleThread]

/-- The thread `next_thread_to_run` picks is the front of the ready list, or the idle thread
when the list is empty. -/
theorem picked_cases (switched : Switched st st' cur next n) :
    (∃ rest, st.readyList = n :: rest ∧ st'.readyList = rest) ∨
      (st.readyList = [] ∧ st.idleThread = some n ∧ st'.readyList = []) := by
  have picked := switched.picked
  have readyList := switched.readyList
  unfold Sched.nextThreadToRun at picked readyList
  split at picked
  · rename_i empty
    exact .inr ⟨empty, picked, by simpa [empty] using readyList⟩
  · rename_i t rest listed
    cases picked
    exact .inl ⟨rest, listed, by simpa [listed] using readyList⟩

end Switched

theorem Switching.queues {st st' : Sched} {cur next : Thread} {n : Nat} (switching : Switching st)
    (switched : Switched st st' cur next n) : Queues st' := by
  -- the thread switched to was queued, or is the idle thread, aside or asleep
  have wasPicked : st.place n = .queued ∨ st.place n = .aside ∨ st.place n = .asleep := by
    rcases switched.picked_cases with ⟨rest, listed, -⟩ | ⟨-, idle, -⟩
    · exact .inl ((switching.ready.mem_iff n).mp (by simp [listed]))
    · exact .inr (switching.idle n idle)
  -- a thread other than it keeps its place unless its page is freed
  have others : ∀ u, u ≠ n → ∀ p, p ≠ .free → p ≠ .dying → (st'.place u = p ↔ st.place u = p) := by
    intro u other p notFree notDying
    rcases switched.place_of_ne other with same | ⟨dying, free⟩
    · rw [same]
    · rw [dying, free]
      exact ⟨fun h => absurd h.symm notFree, fun h => absurd h.symm notDying⟩
  refine ⟨fun t => ?_, ?_, fun s => ?_⟩
  · rw [switched.current]
    by_cases same : t = n
    · simp [same, switched.place_next]
    · simp only [same, iff_false]
      rw [others t same .running (by simp) (by simp)]
      exact switching.notRunning t
  · rcases switched.picked_cases with ⟨rest, listed, readyList⟩ | ⟨empty, -, readyList⟩
    · rw [readyList]
      apply (listed ▸ switching.ready).tail
      intro b
      by_cases same : b = n
      · simp [same, switched.place_next]
      · simp [same, others b same .queued (by simp) (by simp)]
    · rw [readyList]
      apply Enumerates.nil
      intro b queued
      by_cases same : b = n
      · simp [same, switched.place_next] at queued
      · rw [others b same .queued (by simp) (by simp)] at queued
        exact (empty ▸ switching.ready).not_of_nil b queued
  · rw [switched.semas]
    apply (switching.waiters s).congr
    intro b
    by_cases same : b = n
    · subst same
      simp only [switched.place_next, reduceCtorEq, false_iff]
      rcases wasPicked with picked | picked | picked <;> simp [picked]
    · exact others b same (.waiting s) (by simp) (by simp)

theorem Thread.inside_congr {th th' : Thread} (held : th'.held = th.held) (midLock : th'.midLock = th.midLock)
    (l : LockRef) : th'.Inside l ↔ th.Inside l := by
  simp [Thread.Inside, held, midLock]

/-- A thread that keeps its held locks and keeps or leaves the lock it is in the middle of is
inside fewer locks. -/
theorem Thread.inside_of_sub {th th' : Thread} (held : th'.held = th.held)
    (midLock : th'.midLock = th.midLock ∨ th'.midLock = none) {l : LockRef} (inside : th'.Inside l) :
    th.Inside l := by
  rcases midLock with same | none
  · exact (Thread.inside_congr held same l).mp inside
  · rcases inside with member | mid
    · exact .inl (held ▸ member)
    · rw [none] at mid
      cases mid

theorem Thread.midLock_of_sub {th th' : Thread} (midLock : th'.midLock = th.midLock ∨ th'.midLock = none)
    {l : LockRef} (mid : th'.midLock = some l) : th.midLock = some l := by
  rcases midLock with same | none
  · exact same ▸ mid
  · rw [none] at mid
    cases mid

/-- `Locks` sees a thread only through its held locks and the lock it is in the middle of: a step
that keeps those, or only leaves the middle of a lock, keeps the lock semaphores and the holders,
and at most frees pages, keeps it. -/
theorem Locks.of_sub {st st' : Sched} (locks : Locks st)
    (values : ∀ l, (st'.semas (.lock l)).value = (st.semas (.lock l)).value)
    (holder : st'.holder = st.holder)
    (threads : ∀ t th', st'.threads t = some th' →
      ∃ th, st.threads t = some th ∧ th'.held = th.held ∧ (th'.midLock = th.midLock ∨ th'.midLock = none)) :
    Locks st' where
  atMostOne l := values l ▸ locks.atMostOne l
  outside l t th' unlocked found inside := by
    obtain ⟨th, old, held, midLock⟩ := threads t th' found
    exact locks.outside l t th (values l ▸ unlocked) old (Thread.inside_of_sub held midLock inside)
  exclusive l t u th' uh' found foundU inside insideU := by
    obtain ⟨th, old, held, midLock⟩ := threads t th' found
    obtain ⟨uh, oldU, heldU, midLockU⟩ := threads u uh' foundU
    exact locks.exclusive l t u th uh old oldU (Thread.inside_of_sub held midLock inside)
      (Thread.inside_of_sub heldU midLockU insideU)
  taken l t held := values l ▸ locks.taken l t (holder ▸ held)
  unset l t th' found mid := by
    obtain ⟨th, old, -, midLock⟩ := threads t th' found
    exact holder ▸ locks.unset l t th old (Thread.midLock_of_sub midLock mid)
  holder l t th' found member := by
    obtain ⟨th, old, held, -⟩ := threads t th' found
    exact holder ▸ locks.holder l t th old (held ▸ member)
  nodup t th' found := by
    obtain ⟨th, old, held, -⟩ := threads t th' found
    exact held ▸ locks.nodup t th old
  midFree l t th' found mid := by
    obtain ⟨th, old, held, midLock⟩ := threads t th' found
    exact held ▸ locks.midFree l t th old (Thread.midLock_of_sub midLock mid)

theorem Shaped.idle_place {st : Sched} (shaped : Shaped st) {i : Nat} (idle : st.idleThread = some i)
    (notRunning : st.place i ≠ .running) : st.place i = .aside ∨ st.place i = .asleep := by
  obtain ⟨th, found, isIdle, started⟩ := shaped.idleThread i idle
  have shape := (shaped.code i th found).idleCode isIdle
  have alive := shaped.idleStatus i th found isIdle
  simp only [Sched.place, found, idle, beq_self_eq_true] at notRunning ⊢
  unfold Thread.place at notRunning ⊢
  rcases shape with same | same | same
  · exact absurd same started
  all_goals cases status : th.status <;> simp_all [idleCode, Piece.retest]

theorem Switching.of {st : Sched} (notRunning : ∀ t, st.place t ≠ .running)
    (ready : Enumerates st.readyList (st.place · = .queued))
    (waiters : ∀ s, Enumerates (st.semas s).waiters (st.place · = .waiting s)) (shaped : Shaped st) :
    Switching st :=
  ⟨notRunning, ready, waiters, fun i idle => shaped.idle_place idle (notRunning i)⟩

namespace Switched

variable {st st' : Sched} {cur next : Thread} {n : Nat}

theorem threads_some (switched : Switched st st' cur next n) {t : Nat} {th' : Thread}
    (found : st'.threads t = some th') :
    ∃ th, st.threads t = some th ∧ th' = if t = n then { th with status := .running } else th := by
  rw [switched.threads] at found
  by_cases same : t = n
  · subst same
    simp only [if_true, Option.some.injEq] at found
    exact ⟨next, switched.nextFound, by simp [found]⟩
  · simp only [same, if_false] at found
    split at found
    · cases found
    · exact ⟨th', found, by simp [same]⟩

theorem threads_kept (switched : Switched st st' cur next n) {t : Nat} {th : Thread}
    (found : st.threads t = some th) (notDying : th.status ≠ .dying) :
    st'.threads t = some (if t = n then { th with status := .running } else th) := by
  rw [switched.threads]
  by_cases same : t = n
  · subst same
    rw [switched.nextFound] at found
    simp [← Option.some.inj found]
  · have kept : ¬(t = st.current ∧ cur.status = .dying ∧ st.current ≠ st.initialThread) := by
      rintro ⟨rfl, dying, -⟩
      rw [switched.found] at found
      exact notDying (Option.some.inj found ▸ dying)
    simp [same, kept, found]

theorem sub (switched : Switched st st' cur next n) {t : Nat} {th' : Thread}
    (found : st'.threads t = some th') :
    ∃ th, st.threads t = some th ∧ th'.code = th.code ∧ th'.idle = th.idle ∧
      th'.created = th.created ∧ th'.held = th.held := by
  obtain ⟨th, old, rfl⟩ := switched.threads_some found
  exact ⟨th, old, by split <;> simp⟩

end Switched

/-- A switch keeps the shapes: only the status of the thread switched to changes, and the page
freed was a dying thread's. -/
theorem Shaped.switched {st st' : Sched} {cur next : Thread} {n : Nat} (shaped : Shaped st)
    (switching : Switching st) (switched : Switched st st' cur next n) : Shaped st' := by
  -- a thread made and not yet unblocked is asleep and not the idle thread, so it is not switched to
  have notPicked : ∀ p ph, st.threads p = some ph → ph = initThread ph.idle → p ≠ n := by
    rintro p ph found fresh rfl
    rcases switched.picked_cases with ⟨rest, listed, -⟩ | ⟨-, idle, -⟩
    · have queued := (switching.ready.mem_iff p).mp (by simp [listed])
      rw [fresh] at found
      simp only [Sched.place, found, initThread, Thread.place] at queued
      cases isIdle : ph.idle <;> simp [isIdle, idleCode, Piece.retest] at queued
    · obtain ⟨th, foundIdle, isIdle, started⟩ := shaped.idleThread p idle
      rw [found, fresh] at foundIdle
      cases Option.some.inj foundIdle
      simp only [initThread] at isIdle started
      simp [isIdle] at started
  refine ⟨fun t th' found => ?_, fun t th' found isIdle => ?_, fun i idle => ?_,
    fun t u th' uh' found foundU isIdle isIdleU => ?_, fun t th' found pending u uh' foundU => ?_,
    fun t th' p found created => ?_⟩
  · obtain ⟨th, old, code, idle, -, -⟩ := switched.sub found
    rw [code, idle]
    exact shaped.code t th old
  · obtain ⟨th, old, rfl⟩ := switched.threads_some found
    split
    · simp
    · exact shaped.idleStatus t th old (by simpa [*] using isIdle)
  · rw [switched.idleThread] at idle
    obtain ⟨th, found, isIdle, started⟩ := shaped.idleThread i idle
    refine ⟨_, switched.threads_kept found (shaped.idleStatus i th found isIdle), ?_, ?_⟩ <;>
      split <;> simpa
  · obtain ⟨th, old, -, idle, -, -⟩ := switched.sub found
    obtain ⟨uh, oldU, -, idleU, -, -⟩ := switched.sub foundU
    exact shaped.oneIdle t u th uh old oldU (idle ▸ isIdle) (idleU ▸ isIdleU)
  · obtain ⟨th, old, code, -, -, -⟩ := switched.sub found
    obtain ⟨uh, oldU, codeU, idleU, -, -⟩ := switched.sub foundU
    rw [idleU, codeU]
    exact shaped.pendingIdle t th old (code ▸ pending) u uh oldU
  · obtain ⟨th, old, -, -, createdSame, -⟩ := switched.sub found
    obtain ⟨⟨ph, foundP, fresh⟩, only⟩ := shaped.created t th p old (createdSame ▸ created)
    have asleep : ph.status ≠ .dying := by rw [fresh]; simp [initThread]
    refine ⟨⟨ph, ?_, fresh⟩, fun u uh' foundU createdU => ?_⟩
    · rw [switched.threads_kept foundP asleep, if_neg (notPicked p ph foundP fresh)]
    · obtain ⟨uh, oldU, -, -, createdSameU, -⟩ := switched.sub foundU
      exact only u uh oldU (createdSameU ▸ createdU)

/-- `schedule` from a state whose lists are right and where no thread runs restores the
invariant. -/
theorem Inv.of_switching {values : Nat → Nat} {st st' : Sched} (switching : Switching st)
    (counted : Counted values st) (locks : Locks st) (shaped : Shaped st)
    (scheduled : st.schedule = .ok st') : Inv values st' := by
  obtain ⟨cur, next, n, switched⟩ := schedule_ok scheduled
  refine ⟨switching.queues switched, ?_, ?_, shaped.switched switching switched⟩
  · intro s
    rw [switched.semas, switched.downs, switched.ups]
    exact counted s
  · refine locks.of_sub (fun l => by rw [switched.semas]) switched.holder fun t th' found => ?_
    obtain ⟨th, old, code, -, -, held⟩ := switched.sub found
    exact ⟨th, old, held, .inl (by simp [Thread.midLock, code])⟩

/-! ## Places under the updates of a step -/

theorem Sched.place_congr {st st' : Sched} (threads : st'.threads = st.threads)
    (idleThread : st'.idleThread = st.idleThread) (u : Nat) : st'.place u = st.place u := by
  simp [Sched.place, threads, idleThread]

theorem Sched.place_replace {st st' : Sched} {t : Nat} {th : Thread}
    (threads : st'.threads = update st.threads t (some th)) (idleThread : st'.idleThread = st.idleThread)
    (u : Nat) : st'.place u = if u = t then th.place (st.idleThread == some t) else st.place u := by
  by_cases same : u = t
  · subst same
    simp [Sched.place, threads, idleThread]
  · simp [Sched.place, threads, idleThread, same]

theorem Queues.congr {st st' : Sched} (queues : Queues st) (place : ∀ u, st'.place u = st.place u)
    (current : st'.current = st.current) (readyList : st'.readyList = st.readyList)
    (waiters : ∀ s, (st'.semas s).waiters = (st.semas s).waiters) : Queues st' where
  running t := by rw [place, current]; exact queues.running t
  ready := by rw [readyList]; exact queues.ready.congr fun b => by rw [place]
  waiters s := by rw [waiters]; exact (queues.waiters s).congr fun b => by rw [place]

theorem Queues.current_found {st : Sched} (queues : Queues st) :
    ∃ th, st.threads st.current = some th ∧ th.status = .running := by
  have running := (queues.running st.current).mpr rfl
  unfold Sched.place at running
  split at running
  · rename_i th found
    refine ⟨th, found, ?_⟩
    unfold Thread.place at running
    split at running
    · assumption
    all_goals (try split at running) <;> cases running
  · cases running

theorem Shaped.congr {st st' : Sched} (shaped : Shaped st) (threads : st'.threads = st.threads)
    (idleThread : st'.idleThread = st.idleThread) : Shaped st' where
  code := threads ▸ shaped.code
  idleStatus := threads ▸ shaped.idleStatus
  idleThread := threads ▸ idleThread ▸ shaped.idleThread
  oneIdle := threads ▸ shaped.oneIdle
  pendingIdle := threads ▸ shaped.pendingIdle
  created := threads ▸ shaped.created

theorem Inv.congr {values : Nat → Nat} {st st' : Sched} (inv : Inv values st)
    (threads : st'.threads = st.threads) (current : st'.current = st.current)
    (readyList : st'.readyList = st.readyList) (idleThread : st'.idleThread = st.idleThread)
    (semas : st'.semas = st.semas) (holder : st'.holder = st.holder) (ups : st'.ups = st.ups)
    (downs : st'.downs = st.downs) : Inv values st' where
  queues := inv.queues.congr (Sched.place_congr threads idleThread) current readyList
    fun s => by rw [semas]
  counted s := by rw [semas, ups, downs]; exact inv.counted s
  locks := inv.locks.of_sub (fun l => by rw [semas]) holder fun t th found =>
    ⟨th, threads ▸ found, rfl, .inl rfl⟩
  shaped := inv.shaped.congr threads idleThread

theorem Queues.stay {st st' : Sched} {th : Thread} (queues : Queues st)
    (threads : st'.threads = update st.threads st.current (some th)) (running : th.status = .running)
    (idleThread : st'.idleThread = st.idleThread) (current : st'.current = st.current)
    (readyList : st'.readyList = st.readyList)
    (waiters : ∀ s, (st'.semas s).waiters = (st.semas s).waiters) : Queues st' := by
  refine queues.congr (fun u => ?_) current readyList waiters
  rw [Sched.place_replace threads idleThread]
  split
  · rename_i same
    subst same
    simp [Thread.place, running, (queues.running st.current).mpr rfl]
  · rfl

/-- The running thread leaves `THREAD_RUNNING` for a place in which it joins the back of the
ready list or of a semaphore's waiters, or no list: the state `schedule` starts from. -/
theorem Queues.depart {st st' : Sched} {th : Thread} (queues : Queues st) (shaped : Shaped st')
    (threads : st'.threads = update st.threads st.current (some th))
    (idleThread : st'.idleThread = st.idleThread)
    (leaves : th.place (st.idleThread == some st.current) ≠ .running)
    (readyList : st'.readyList =
      if th.place (st.idleThread == some st.current) = .queued then st.readyList ++ [st.current]
      else st.readyList)
    (waiters : ∀ s, (st'.semas s).waiters =
      if th.place (st.idleThread == some st.current) = .waiting s then
        (st.semas s).waiters ++ [st.current]
      else (st.semas s).waiters) : Switching st' := by
  have place := Sched.place_replace threads idleThread
  have wasRunning := (queues.running st.current).mpr rfl
  -- every other thread keeps its place, and none of them runs
  have others : ∀ u, u ≠ st.current → st'.place u = st.place u := fun u other => by
    rw [place, if_neg other]
  refine Switching.of (fun u => ?_) ?_ (fun s => ?_) shaped
  · by_cases same : u = st.current
    · rw [place, if_pos same]
      exact leaves
    · rw [others u same, Ne, queues.running]
      exact same
  · rw [readyList]
    split
    · rename_i queued
      refine queues.ready.append (by simp [wasRunning]) fun b => ?_
      by_cases same : b = st.current
      · simp [place, same, queued]
      · simp [others b same, same]
    · rename_i notQueued
      refine queues.ready.congr fun b => ?_
      by_cases same : b = st.current
      · subst same
        simp [place, notQueued, wasRunning]
      · rw [others b same]
  · rw [waiters]
    split
    · rename_i waiting
      refine (queues.waiters s).append (by simp [wasRunning]) fun b => ?_
      by_cases same : b = st.current
      · simp [place, same, waiting]
      · simp [others b same, same]
    · rename_i notWaiting
      refine (queues.waiters s).congr fun b => ?_
      by_cases same : b = st.current
      · subst same
        simp [place, notWaiting, wasRunning]
      · rw [others b same]

/-- A blocked thread other than the idle thread is made ready and joins the back of the ready
list; if it was waiting on a semaphore, it was the front of the waiters. -/
theorem Queues.wake {st st' : Sched} {u : Nat} {uh : Thread} (queues : Queues st)
    (found : st.threads u = some uh) (blocked : uh.status = .blocked) (notIdle : st.idleThread ≠ some u)
    (threads : st'.threads = update st.threads u (some { uh with status := .ready }))
    (idleThread : st'.idleThread = st.idleThread) (current : st'.current = st.current)
    (readyList : st'.readyList = st.readyList ++ [u])
    (front : ∀ s, st.place u = .waiting s → (st.semas s).waiters = u :: (st'.semas s).waiters)
    (others : ∀ s, st.place u ≠ .waiting s → (st'.semas s).waiters = (st.semas s).waiters) :
    Queues st' := by
  have place := Sched.place_replace threads idleThread
  have queued : ({ uh with status := .ready } : Thread).place (st.idleThread == some u) = .queued := by
    simp [Thread.place, notIdle]
  have wasBlocked : st.place u ≠ .running ∧ st.place u ≠ .queued := by
    unfold Sched.place Thread.place
    simp only [found, blocked]
    constructor <;> split <;> simp
  refine ⟨fun t => ?_, ?_, fun s => ?_⟩
  · rw [place, current]
    split
    · rename_i same
      subst same
      simp only [queued, reduceCtorEq, false_iff]
      exact fun running => wasBlocked.1 ((queues.running t).mpr running)
    · exact queues.running t
  · rw [readyList]
    refine queues.ready.append wasBlocked.2 fun b => ?_
    by_cases same : b = u
    · simp [place, same, queued]
    · simp [place, same]
  · by_cases waiting : st.place u = .waiting s
    · refine (front s waiting ▸ queues.waiters s).tail fun b => ?_
      by_cases same : b = u
      · simp [place, same, queued]
      · simp [place, same]
    · rw [others s waiting]
      refine (queues.waiters s).congr fun b => ?_
      by_cases same : b = u
      · subst same
        simp [place, queued, waiting]
      · simp [place, same]

theorem Queues.spawn {st : Sched} {p : Nat} {th : Thread} (queues : Queues st) (free : st.threads p = none)
    (asleep : th.place (st.idleThread == some p) = .asleep) : Queues (st.setThread p th) := by
  have place : ∀ u, (st.setThread p th).place u = if u = p then th.place (st.idleThread == some p) else st.place u :=
    Sched.place_replace rfl rfl
  have wasFree : st.place p = .free := Sched.place_eq_free.mpr free
  refine ⟨fun t => ?_, queues.ready.congr fun b => ?_, fun s => (queues.waiters s).congr fun b => ?_⟩
  · rw [place, setThread_current]
    split
    · rename_i same
      subst same
      simp [asleep, ← queues.running, wasFree]
    · exact queues.running t
  · rw [place]
    split
    · rename_i same
      subst same
      simp [asleep, wasFree]
    · rfl
  · rw [place]
    split
    · rename_i same
      subst same
      simp [asleep, wasFree]
    · rfl

/-! ## Shapes of code -/

namespace CodeShape

variable {idle : Bool} {p : Piece} {rest : List Piece}

theorem idle_eq_false (shape : CodeShape idle (p :: rest))
    (other : p ≠ .idleStart ∧ p ≠ .semaUp .idleStarted ∧ p ≠ .idleBlock) : idle = false := by
  cases isIdle : idle
  · rfl
  · rcases shape.idleCode isIdle with same | same | same <;>
      simp_all [Scheduler.idleCode]

theorem midLock_rest (shape : CodeShape idle (p :: rest)) : rest.head?.bind Piece.midLock = none := by
  cases rest with
  | nil => rfl
  | cons q more =>
    have notFront := shape.front q (by simp)
    cases q <;> simp_all [Piece.front, Piece.midLock]

theorem retest_rest (shape : CodeShape idle (p :: rest)) : rest.head?.bind Piece.retest = none := by
  cases rest with
  | nil => rfl
  | cons q more =>
    have notFront := shape.front q (by simp)
    cases q <;> simp_all [Piece.front, Piece.retest]

theorem drop (shape : CodeShape idle (p :: rest)) (notLoop : p ≠ .idleBlock) : CodeShape idle rest where
  front q member := shape.front q (List.mem_of_mem_tail member)
  idleCode isIdle := by
    rcases shape.idleCode isIdle with same | same | same <;> simp_all [Scheduler.idleCode]
  kernelCode notIdle := by
    have kernel := shape.kernelCode notIdle
    simp only [List.mem_cons, not_or] at kernel
    exact ⟨kernel.1.2, kernel.2.2⟩
  createsIdle := Nat.le_trans List.count_le_count_cons shape.createsIdle

theorem prepend (shape : CodeShape false (p :: rest)) (pre : List Piece)
    (front : ∀ q ∈ pre.tail, q.front = false) (noIdle : .idleStart ∉ pre ∧ .idleBlock ∉ pre)
    (noCreate : .pallocThread true ∉ pre) : CodeShape false (pre ++ rest) where
  front q member := by
    cases pre with
    | nil => exact shape.front q (by simpa using List.mem_of_mem_tail member)
    | cons r more =>
      simp only [List.cons_append, List.tail_cons, List.mem_append] at member
      rcases member with inPre | inRest
      · exact front q (by simpa using inPre)
      · exact shape.front q (by simpa using inRest)
  idleCode isIdle := by cases isIdle
  kernelCode _ := by
    have kernel := shape.kernelCode rfl
    simp only [List.mem_cons, not_or] at kernel
    simp [noIdle, kernel.1.2, kernel.2.2]
  createsIdle := by
    rw [List.count_append, List.count_eq_zero_of_not_mem noCreate, Nat.zero_add]
    exact Nat.le_trans List.count_le_count_cons shape.createsIdle

end CodeShape

theorem update_some {threads : Nat → Option Thread} {t u : Nat} {th uh : Thread}
    (found : update threads t (some th) u = some uh) :
    (u = t ∧ uh = th) ∨ (u ≠ t ∧ threads u = some uh) := by
  by_cases same : u = t
  · subst same
    simp only [update_self, Option.some.injEq] at found
    exact .inl ⟨rfl, found.symm⟩
  · rw [update_of_ne same] at found
    exact .inr ⟨same, found⟩

/-- One thread's record changes, keeping whether it runs `idle`, and no thread made and not yet
unblocked is it: its code keeps its shape, gains no creation of the idle thread, and has left
`idle`'s first piece if it is the idle thread. -/
theorem Shaped.replace {st : Sched} {t : Nat} {th th' : Thread} (shaped : Shaped st)
    (found : st.threads t = some th) (uncreated : ∀ u uh, st.threads u = some uh → uh.created ≠ some t)
    (idle : th'.idle = th.idle) (shape : CodeShape th'.idle th'.code)
    (alive : th'.idle = true → th'.status ≠ .dying) (started : st.idleThread = some t → th'.code ≠ idleCode)
    (pending : .pallocThread true ∈ th'.code → .pallocThread true ∈ th.code)
    (created : th'.created = th.created ∨ th'.created = none) : Shaped (st.setThread t th') := by
  -- the records of the new state, traced back to the old one
  have back : ∀ u uh, (st.setThread t th').threads u = some uh →
      ∃ oh, st.threads u = some oh ∧ uh.idle = oh.idle ∧ (uh.created = oh.created ∨ uh.created = none) ∧
        (.pallocThread true ∈ uh.code → .pallocThread true ∈ oh.code) := by
    intro u uh foundU
    rcases update_some foundU with ⟨rfl, rfl⟩ | ⟨-, old⟩
    · exact ⟨th, found, idle, created, pending⟩
    · exact ⟨uh, old, rfl, .inl rfl, id⟩
  refine ⟨fun u uh foundU => ?_, fun u uh foundU isIdle => ?_, fun i idleI => ?_,
    fun u v uh vh foundU foundV isIdleU isIdleV => ?_, fun u uh foundU has v vh foundV => ?_,
    fun u uh p foundU createdU => ?_⟩
  · rcases update_some foundU with ⟨rfl, rfl⟩ | ⟨-, old⟩
    · exact shape
    · exact shaped.code u uh old
  · rcases update_some foundU with ⟨rfl, rfl⟩ | ⟨-, old⟩
    · exact alive isIdle
    · exact shaped.idleStatus u uh old isIdle
  · obtain ⟨ih, foundI, isIdle, notStarted⟩ := shaped.idleThread i idleI
    by_cases same : i = t
    · subst same
      rw [found] at foundI
      cases Option.some.inj foundI
      exact ⟨th', by simp, idle ▸ isIdle, started idleI⟩
    · exact ⟨ih, by simp [update_of_ne same, foundI], isIdle, notStarted⟩
  · obtain ⟨oh, oldU, sameU, -, -⟩ := back u uh foundU
    obtain ⟨ov, oldV, sameV, -, -⟩ := back v vh foundV
    exact shaped.oneIdle u v oh ov oldU oldV (sameU ▸ isIdleU) (sameV ▸ isIdleV)
  · obtain ⟨oh, oldU, -, -, hasOld⟩ := back u uh foundU
    obtain ⟨ov, oldV, sameV, -, hasOldV⟩ := back v vh foundV
    obtain ⟨notIdle, only⟩ := shaped.pendingIdle u oh oldU (hasOld has) v ov oldV
    exact ⟨sameV ▸ notIdle, fun hasV => only (hasOldV hasV)⟩
  · obtain ⟨oh, oldU, -, sameCreated, -⟩ := back u uh foundU
    have createdOld : oh.created = some p := by
      rcases sameCreated with same | none
      · rw [← same, createdU]
      · rw [none] at createdU; cases createdU
    obtain ⟨⟨ph, foundP, fresh⟩, only⟩ := shaped.created u oh p oldU createdOld
    have other : p ≠ t := by
      rintro rfl
      exact uncreated u oh oldU createdOld
    refine ⟨⟨ph, by simp [update_of_ne other, foundP], fresh⟩, fun v vh foundV createdV => ?_⟩
    obtain ⟨ov, oldV, -, sameCreatedV, -⟩ := back v vh foundV
    rcases sameCreatedV with same | none
    · exact only v ov oldV (same ▸ createdV)
    · rw [none] at createdV; cases createdV

/-- A thread made and not yet unblocked is blocked where `init_thread` left it: it neither runs
nor waits on a semaphore. -/
theorem Shaped.uncreated {st : Sched} {t : Nat} (shaped : Shaped st)
    (placed : st.place t = .running ∨ ∃ s, st.place t = .waiting s) :
    ∀ u uh, st.threads u = some uh → uh.created ≠ some t := by
  intro u uh foundU createdU
  obtain ⟨⟨ph, foundT, fresh⟩, -⟩ := shaped.created u uh t foundU createdU
  have asleep : st.place t = .asleep := by
    rw [Sched.place, foundT, fresh]
    cases isIdle : ph.idle <;> simp [Thread.place, initThread, idleCode, Piece.retest]
  rcases placed with running | ⟨s, waiting⟩
  · rw [asleep] at running; cases running
  · rw [asleep] at waiting; cases waiting

theorem Shaped.setRunning {st : Sched} {t : Nat} {th th' : Thread} (shaped : Shaped st)
    (found : st.threads t = some th) (running : st.place t = .running) (idle : th'.idle = th.idle)
    (shape : CodeShape th'.idle th'.code) (alive : th'.idle = true → th'.status ≠ .dying)
    (started : st.idleThread = some t → th'.code ≠ idleCode)
    (pending : .pallocThread true ∈ th'.code → .pallocThread true ∈ th.code)
    (created : th'.created = th.created ∨ th'.created = none) : Shaped (st.setThread t th') :=
  shaped.replace found (shaped.uncreated (.inl running)) idle shape alive started pending created

theorem Shaped.wake {st : Sched} {u : Nat} {uh : Thread} (shaped : Shaped st)
    (found : st.threads u = some uh) (uncreated : ∀ t th, st.threads t = some th → th.created ≠ some u) :
    Shaped (st.setThread u { uh with status := .ready }) := by
  have shape := shaped.code u uh found
  refine shaped.replace found uncreated rfl shape (fun _ => by simp) (fun idle => ?_) id (.inl rfl)
  obtain ⟨ih, foundI, -, notStarted⟩ := shaped.idleThread u idle
  rw [found] at foundI
  cases Option.some.inj foundI
  exact notStarted

/-- `idle_thread = thread_current ()`: the idle thread, past its first piece, is recorded. -/
theorem Shaped.setIdle {st : Sched} {t : Nat} {th : Thread} (shaped : Shaped st)
    (found : st.threads t = some th) (idle : th.idle = true) (started : th.code ≠ idleCode) :
    Shaped { st with idleThread := some t } :=
  ⟨shaped.code, shaped.idleStatus, fun i same => by cases same; exact ⟨th, found, idle, started⟩,
    shaped.oneIdle, shaped.pendingIdle, shaped.created⟩

theorem CodeShape.initThread (idle : Bool) : CodeShape idle (initThread idle).code := by
  cases idle
  · exact ⟨by decide, fun isIdle => (by cases isIdle), fun _ => by decide, by decide⟩
  · exact ⟨by decide, fun _ => .inl rfl, fun isKernel => (by cases isKernel), by decide⟩

/-- `thread_create` makes a thread on a free page, and its creator goes on with the rest of
`thread_create`, pointing at it: the creation of the idle thread is no longer pending. -/
theorem Shaped.spawn {st : Sched} {t p : Nat} {th : Thread} {idle : Bool} {rest : List Piece}
    (shaped : Shaped st) (found : st.threads t = some th) (running : st.place t = .running)
    (code : th.code = .pallocThread idle :: rest) (free : st.threads p = none) :
    Shaped ((st.setThread p (initThread idle)).setThread t
      { th with code := threadCreateRest ++ rest, created := some p }) := by
  have shape : CodeShape th.idle (.pallocThread idle :: rest) := code ▸ shaped.code t th found
  have kernel : th.idle = false := shape.idle_eq_false (by simp)
  have other : p ≠ t := by
    rintro rfl
    rw [found] at free
    cases free
  -- the creation of the idle thread is pending in the creator's code at most once
  have notRest : idle = true → .pallocThread true ∉ rest := by
    rintro rfl member
    have once := shape.createsIdle
    rw [List.count_cons_self] at once
    have := List.count_pos_iff.mpr member
    omega
  have pendingOld : .pallocThread true ∈ threadCreateRest ++ rest → .pallocThread true ∈ th.code := by
    intro member
    rw [code]
    exact List.mem_cons_of_mem _ (by simpa [threadCreateRest, lockReleaseCode, lockAcquireCode] using member)
  -- the records of the new state: the creator, the new thread, or an old one
  have back : ∀ u uh, ((st.setThread p (initThread idle)).setThread t
      { th with code := threadCreateRest ++ rest, created := some p }).threads u = some uh →
      (u = t ∧ uh = { th with code := threadCreateRest ++ rest, created := some p }) ∨
        (u = p ∧ uh = initThread idle) ∨ (u ≠ t ∧ u ≠ p ∧ st.threads u = some uh) := by
    intro u uh foundU
    rcases update_some foundU with ⟨rfl, rfl⟩ | ⟨otherT, foundU⟩
    · exact .inl ⟨rfl, rfl⟩
    · rcases update_some foundU with ⟨rfl, rfl⟩ | ⟨otherP, old⟩
      · exact .inr (.inl ⟨rfl, rfl⟩)
      · exact .inr (.inr ⟨otherT, otherP, old⟩)
  have keep : ∀ u, u ≠ t → u ≠ p → ((st.setThread p (initThread idle)).setThread t
      { th with code := threadCreateRest ++ rest, created := some p }).threads u = st.threads u :=
    fun u otherT otherP => by simp [update_of_ne otherT, update_of_ne otherP]
  -- when the idle thread is made, no thread ran `idle` before
  have noIdle : idle = true → ∀ u uh, st.threads u = some uh → uh.idle = false := by
    rintro rfl u uh foundU
    exact (shaped.pendingIdle t th found (by simp [code]) u uh foundU).1
  refine ⟨fun u uh foundU => ?_, fun u uh foundU isIdle => ?_, fun i idleI => ?_,
    fun u v uh vh foundU foundV isIdleU isIdleV => ?_, fun u uh foundU has v vh foundV => ?_,
    fun u uh q foundU createdU => ?_⟩
  · rcases back u uh foundU with ⟨-, rfl⟩ | ⟨-, rfl⟩ | ⟨-, -, old⟩
    · exact kernel ▸ (kernel ▸ shape).prepend threadCreateRest (by decide) (by decide) (by decide)
    · exact CodeShape.initThread idle
    · exact shaped.code u uh old
  · rcases back u uh foundU with ⟨-, rfl⟩ | ⟨-, rfl⟩ | ⟨-, -, old⟩
    · simp [kernel] at isIdle
    · simp [initThread]
    · exact shaped.idleStatus u uh old isIdle
  · obtain ⟨ih, foundI, isIdle, started⟩ := shaped.idleThread i idleI
    have notT : i ≠ t := by
      rintro rfl
      rw [found] at foundI
      cases Option.some.inj foundI
      simp [kernel] at isIdle
    have notP : i ≠ p := by
      rintro rfl
      rw [free] at foundI
      cases foundI
    exact ⟨ih, by rw [keep i notT notP, foundI], isIdle, started⟩
  · -- a thread that runs `idle` is the new one, made as the idle thread, or an old one
    have idleAt : ∀ w wh, ((st.setThread p (initThread idle)).setThread t
        { th with code := threadCreateRest ++ rest, created := some p }).threads w = some wh →
        wh.idle = true → (w = p ∧ idle = true) ∨ (w ≠ p ∧ st.threads w = some wh) := by
      intro w wh foundW isIdle
      rcases back w wh foundW with ⟨-, rfl⟩ | ⟨rfl, rfl⟩ | ⟨-, otherP, old⟩
      · simp [kernel] at isIdle
      · exact .inl ⟨rfl, isIdle⟩
      · exact .inr ⟨otherP, old⟩
    rcases idleAt u uh foundU isIdleU with ⟨rfl, made⟩ | ⟨-, oldU⟩ <;>
      rcases idleAt v vh foundV isIdleV with ⟨rfl, made'⟩ | ⟨-, oldV⟩
    · rfl
    · simp [noIdle made v vh oldV] at isIdleV
    · simp [noIdle made' u uh oldU] at isIdleU
    · exact shaped.oneIdle u v uh vh oldU oldV isIdleU isIdleV
  · -- whoever has the creation pending had it before, and it is not the idle thread's creation
    obtain ⟨oh, oldU, hasOld, notIdle⟩ : ∃ oh, st.threads u = some oh ∧
        .pallocThread true ∈ oh.code ∧ idle = false := by
      rcases back u uh foundU with ⟨rfl, rfl⟩ | ⟨rfl, rfl⟩ | ⟨otherT, -, old⟩
      · have inRest : .pallocThread true ∈ rest := by
          simpa [threadCreateRest, lockReleaseCode, lockAcquireCode] using has
        exact ⟨th, found, pendingOld has, by cases idle <;> simp_all⟩
      · cases idle <;> simp [initThread, idleCode] at has
      · refine ⟨uh, old, has, ?_⟩
        cases idle
        · rfl
        · exact absurd ((shaped.pendingIdle u uh old has t th found).2 (by simp [code])).symm otherT
    have pending := shaped.pendingIdle u oh oldU hasOld
    rcases back v vh foundV with ⟨rfl, rfl⟩ | ⟨rfl, rfl⟩ | ⟨-, -, old⟩
    · exact ⟨kernel, fun hasV => (pending v th found).2 (pendingOld hasV)⟩
    · subst notIdle
      simp [initThread]
    · exact pending v vh old
  · rcases back u uh foundU with ⟨rfl, rfl⟩ | ⟨rfl, rfl⟩ | ⟨otherT, otherP, old⟩
    · cases createdU
      refine ⟨⟨initThread idle, by simp [update_of_ne other], rfl⟩, fun v vh foundV createdV => ?_⟩
      rcases back v vh foundV with ⟨rfl, rfl⟩ | ⟨rfl, rfl⟩ | ⟨-, -, old⟩
      · rfl
      · cases createdV
      · obtain ⟨⟨ph, foundP, -⟩, -⟩ := shaped.created v vh p old createdV
        rw [free] at foundP
        cases foundP
    · cases createdU
    · obtain ⟨⟨ph, foundQ, fresh⟩, only⟩ := shaped.created u uh q old createdU
      have notP : q ≠ p := by
        rintro rfl
        rw [free] at foundQ
        cases foundQ
      have notT : q ≠ t := by
        rintro rfl
        exact shaped.uncreated (.inl running) u uh old createdU
      refine ⟨⟨ph, by rw [keep q notT notP, foundQ], fresh⟩, fun v vh foundV createdV => ?_⟩
      rcases back v vh foundV with ⟨rfl, rfl⟩ | ⟨rfl, rfl⟩ | ⟨-, -, oldV⟩
      · cases createdV
        exact absurd rfl notP
      · cases createdV
      · exact only v vh oldV createdV

/-! ## Locks, step by step -/

namespace Locks

variable {st st' : Sched} {t : Nat} {th th' : Thread} {l : LockRef}

theorem value_of_inside (locks : Locks st) (found : st.threads t = some th) (inside : th.Inside l) :
    (st.semas (.lock l)).value = 0 := by
  have atMostOne := locks.atMostOne l
  have notOne : (st.semas (.lock l)).value ≠ 1 := fun one => locks.outside l t th one found inside
  omega

theorem holder_of_value (locks : Locks st) (one : (st.semas (.lock l)).value = 1) :
    st.holder l = none := by
  cases held : st.holder l with
  | none => rfl
  | some u => simp [locks.taken l u held] at one

/-- The `sema_down` or `sema_try_down` of a lock takes its semaphore: the thread is inside. -/
theorem take (locks : Locks st) (found : st.threads t = some th) (before : th.midLock = none)
    (positive : 0 < (st.semas (.lock l)).value)
    (threads : st'.threads = update st.threads t (some th')) (held : th'.held = th.held)
    (after : th'.midLock = some l)
    (values : ∀ l', (st'.semas (.lock l')).value =
      if l' = l then (st.semas (.lock l)).value - 1 else (st.semas (.lock l')).value)
    (holder : st'.holder = st.holder) : Locks st' := by
  have one : (st.semas (.lock l)).value = 1 := by have := locks.atMostOne l; omega
  -- nobody was inside, `t` included
  have nobody : ∀ u uh, st.threads u = some uh → ¬uh.Inside l := fun u uh foundU =>
    locks.outside l u uh one foundU
  have notHeld : l ∉ th.held := fun member => nobody t th found (.inl member)
  -- for another lock, `t` is inside exactly when it was
  have insideOther : ∀ l', l' ≠ l → (th'.Inside l' ↔ th.Inside l') := fun l' other => by
    simp [Thread.Inside, held, after, before, Ne.symm other]
  have back : ∀ u uh, st'.threads u = some uh → (u = t ∧ uh = th') ∨ (u ≠ t ∧ st.threads u = some uh) :=
    fun u uh foundU => update_some (threads ▸ foundU)
  refine ⟨fun l' => ?_, fun l' u uh open' foundU => ?_, fun l' u v uh vh foundU foundV insideU insideV => ?_,
    fun l' u heldBy => ?_, fun l' u uh foundU mid => ?_, fun l' u uh foundU member => ?_,
    fun u uh foundU => ?_, fun l' u uh foundU mid => ?_⟩
  · rw [values]
    split
    · omega
    · exact locks.atMostOne l'
  · rw [values] at open'
    split at open'
    · omega
    · rename_i other
      rcases back u uh foundU with ⟨rfl, rfl⟩ | ⟨-, old⟩
      · rw [insideOther l' other]
        exact locks.outside l' u th open' found
      · exact locks.outside l' u uh open' old
  · by_cases same : l' = l
    · subst same
      rcases back u uh foundU with ⟨rfl, rfl⟩ | ⟨otherU, oldU⟩
      · rcases back v vh foundV with ⟨rfl, rfl⟩ | ⟨-, oldV⟩
        · rfl
        · exact absurd insideV (nobody v vh oldV)
      · exact absurd insideU (nobody u uh oldU)
    · have oldInside : ∀ w wh, st'.threads w = some wh → wh.Inside l' →
          ∃ oh, st.threads w = some oh ∧ oh.Inside l' := fun w wh foundW inside => by
        rcases back w wh foundW with ⟨rfl, rfl⟩ | ⟨-, old⟩
        · exact ⟨th, found, (insideOther l' same).mp inside⟩
        · exact ⟨wh, old, inside⟩
      obtain ⟨ou, oldU, insideU'⟩ := oldInside u uh foundU insideU
      obtain ⟨ov, oldV, insideV'⟩ := oldInside v vh foundV insideV
      exact locks.exclusive l' u v ou ov oldU oldV insideU' insideV'
  · rw [holder] at heldBy
    rw [values]
    split
    · rename_i same
      subst same
      rw [locks.holder_of_value one] at heldBy
      cases heldBy
    · exact locks.taken l' u heldBy
  · rw [holder]
    rcases back u uh foundU with ⟨rfl, rfl⟩ | ⟨-, old⟩
    · rw [after] at mid
      cases mid
      exact locks.holder_of_value one
    · exact locks.unset l' u uh old mid
  · rw [holder]
    rcases back u uh foundU with ⟨rfl, rfl⟩ | ⟨-, old⟩
    · exact locks.holder l' u th found (held ▸ member)
    · exact locks.holder l' u uh old member
  · rcases back u uh foundU with ⟨rfl, rfl⟩ | ⟨-, old⟩
    · exact held ▸ locks.nodup u th found
    · exact locks.nodup u uh old
  · rcases back u uh foundU with ⟨rfl, rfl⟩ | ⟨-, old⟩
    · rw [after] at mid
      cases mid
      rw [held]
      exact notHeld
    · exact locks.midFree l' u uh old mid

theorem setHolder (locks : Locks st) (found : st.threads t = some th) (before : th.midLock = some l)
    (threads : st'.threads = update st.threads t (some th')) (held : th'.held = th.held.insert l)
    (after : th'.midLock = none)
    (values : ∀ l', (st'.semas (.lock l')).value = (st.semas (.lock l')).value)
    (holder : st'.holder = update st.holder l (some t)) : Locks st' := by
  have insideT : th.Inside l := .inr before
  -- nobody else is inside the lock
  have alone : ∀ u uh, st.threads u = some uh → uh.Inside l → u = t := fun u uh foundU inside =>
    locks.exclusive l u t uh th foundU found inside insideT
  have insideIff : ∀ l', th'.Inside l' ↔ th.Inside l' := fun l' => by
    by_cases same : l' = l
    · subst same
      simp [Thread.Inside, held, before]
    · simp [Thread.Inside, held, List.mem_insert_iff, same, after, before, Ne.symm same]
  have back : ∀ u uh, st'.threads u = some uh → ∃ oh, st.threads u = some oh ∧ ∀ l', uh.Inside l' ↔ oh.Inside l' :=
    fun u uh foundU => by
      rcases update_some (threads ▸ foundU) with ⟨rfl, rfl⟩ | ⟨-, old⟩
      · exact ⟨th, found, insideIff⟩
      · exact ⟨uh, old, fun _ => Iff.rfl⟩
  refine ⟨fun l' => values l' ▸ locks.atMostOne l', fun l' u uh open' foundU => ?_,
    fun l' u v uh vh foundU foundV insideU insideV => ?_, fun l' u heldBy => ?_,
    fun l' u uh foundU mid => ?_, fun l' u uh foundU member => ?_, fun u uh foundU => ?_,
    fun l' u uh foundU mid => ?_⟩
  · obtain ⟨oh, old, same⟩ := back u uh foundU
    rw [same]
    exact locks.outside l' u oh (values l' ▸ open') old
  · obtain ⟨ou, oldU, sameU⟩ := back u uh foundU
    obtain ⟨ov, oldV, sameV⟩ := back v vh foundV
    exact locks.exclusive l' u v ou ov oldU oldV ((sameU l').mp insideU) ((sameV l').mp insideV)
  · rw [values]
    rw [holder] at heldBy
    by_cases same : l' = l
    · subst same
      exact locks.value_of_inside found insideT
    · rw [update_of_ne same] at heldBy
      exact locks.taken l' u heldBy
  · rcases update_some (threads ▸ foundU) with ⟨rfl, rfl⟩ | ⟨other, old⟩
    · rw [after] at mid
      cases mid
    · have unsetOld := locks.unset l' u uh old mid
      rw [holder]
      by_cases same : l' = l
      · subst same
        exact absurd (alone u uh old (.inr mid)) other
      · rw [update_of_ne same]
        exact unsetOld
  · rw [holder]
    rcases update_some (threads ▸ foundU) with ⟨rfl, rfl⟩ | ⟨other, old⟩
    · rw [held, List.mem_insert_iff] at member
      by_cases same : l' = l
      · subst same
        simp
      · rw [update_of_ne same]
        exact locks.holder l' u th found (member.resolve_left same)
    · by_cases same : l' = l
      · subst same
        exact absurd (alone u uh old (.inl member)) other
      · rw [update_of_ne same]
        exact locks.holder l' u uh old member
  · rcases update_some (threads ▸ foundU) with ⟨rfl, rfl⟩ | ⟨-, old⟩
    · rw [held]
      exact (locks.nodup u th found).insert
    · exact locks.nodup u uh old
  · rcases update_some (threads ▸ foundU) with ⟨rfl, rfl⟩ | ⟨-, old⟩
    · rw [after] at mid
      cases mid
    · exact locks.midFree l' u uh old mid

/-- `lock->holder = NULL` of `lock_release` by the holder: it stops holding the lock and is left
in the middle of its release. -/
theorem clearHolder (locks : Locks st) (found : st.threads t = some th) (holds : st.holder l = some t)
    (before : th.midLock = none)
    (threads : st'.threads = update st.threads t (some th')) (held : th'.held = th.held.erase l)
    (after : th'.midLock = some l)
    (values : ∀ l', (st'.semas (.lock l')).value = (st.semas (.lock l')).value)
    (holder : st'.holder = update st.holder l none) : Locks st' := by
  have nodup := locks.nodup t th found
  -- whoever else is inside the lock holds it, so it is the holder `t`
  have alone : ∀ u uh, st.threads u = some uh → uh.Inside l → u = t := fun u uh foundU inside => by
    rcases inside with member | mid
    · exact Option.some.inj ((locks.holder l u uh foundU member).symm.trans holds)
    · rw [locks.unset l u uh foundU mid] at holds
      cases holds
  have zero : (st.semas (.lock l)).value = 0 := locks.taken l t holds
  have insideOther : ∀ l', l' ≠ l → (th'.Inside l' ↔ th.Inside l') := fun l' other => by
    simp [Thread.Inside, held, nodup.mem_erase_iff, other, after, before, Ne.symm other]
  have back : ∀ u uh, st'.threads u = some uh → (u = t ∧ uh = th') ∨ (u ≠ t ∧ st.threads u = some uh) :=
    fun u uh foundU => update_some (threads ▸ foundU)
  refine ⟨fun l' => values l' ▸ locks.atMostOne l', fun l' u uh unlocked foundU inside => ?_,
    fun l' u v uh vh foundU foundV insideU insideV => ?_, fun l' u heldBy => ?_,
    fun l' u uh foundU mid => ?_, fun l' u uh foundU member => ?_, fun u uh foundU => ?_,
    fun l' u uh foundU mid => ?_⟩
  · rw [values] at unlocked
    by_cases same : l' = l
    · subst same
      omega
    · rcases back u uh foundU with ⟨rfl, rfl⟩ | ⟨-, old⟩
      · exact locks.outside l' u th unlocked found ((insideOther l' same).mp inside)
      · exact locks.outside l' u uh unlocked old inside
  · -- inside `l`, the thread `t` is alone as it was; inside another lock nothing changed
    have oldInside : ∀ w wh, st'.threads w = some wh → wh.Inside l' → w = t ∨
        ∃ oh, st.threads w = some oh ∧ oh.Inside l' := fun w wh foundW inside => by
      rcases back w wh foundW with ⟨rfl, rfl⟩ | ⟨-, old⟩
      · exact .inl rfl
      · exact .inr ⟨wh, old, inside⟩
    by_cases same : l' = l
    · subst same
      have toT : ∀ w wh, st'.threads w = some wh → wh.Inside l' → w = t := fun w wh foundW inside => by
        rcases oldInside w wh foundW inside with rfl | ⟨oh, old, insideOld⟩
        · rfl
        · exact alone w oh old insideOld
      rw [toT u uh foundU insideU, toT v vh foundV insideV]
    · have fromOld : ∀ w wh, st'.threads w = some wh → wh.Inside l' →
          ∃ oh, st.threads w = some oh ∧ oh.Inside l' := fun w wh foundW inside => by
        rcases back w wh foundW with ⟨rfl, rfl⟩ | ⟨-, old⟩
        · exact ⟨th, found, (insideOther l' same).mp inside⟩
        · exact ⟨wh, old, inside⟩
      obtain ⟨ou, oldU, insideU'⟩ := fromOld u uh foundU insideU
      obtain ⟨ov, oldV, insideV'⟩ := fromOld v vh foundV insideV
      exact locks.exclusive l' u v ou ov oldU oldV insideU' insideV'
  · rw [holder] at heldBy
    rw [values]
    by_cases same : l' = l
    · subst same
      simp at heldBy
    · rw [update_of_ne same] at heldBy
      exact locks.taken l' u heldBy
  · rw [holder]
    rcases back u uh foundU with ⟨rfl, rfl⟩ | ⟨other, old⟩
    · rw [after] at mid
      cases mid
      simp
    · have unsetOld := locks.unset l' u uh old mid
      by_cases same : l' = l
      · subst same
        rw [unsetOld] at holds
        cases holds
      · rw [update_of_ne same]
        exact unsetOld
  · rw [holder]
    rcases back u uh foundU with ⟨rfl, rfl⟩ | ⟨other, old⟩
    · rw [held, nodup.mem_erase_iff] at member
      rw [update_of_ne member.1]
      exact locks.holder l' u th found member.2
    · by_cases same : l' = l
      · subst same
        exact absurd (alone u uh old (.inl member)) other
      · rw [update_of_ne same]
        exact locks.holder l' u uh old member
  · rcases back u uh foundU with ⟨rfl, rfl⟩ | ⟨-, old⟩
    · rw [held]
      exact nodup.erase l
    · exact locks.nodup u uh old
  · rcases back u uh foundU with ⟨rfl, rfl⟩ | ⟨-, old⟩
    · rw [after] at mid
      cases mid
      rw [held, nodup.mem_erase_iff]
      exact fun member => member.1 rfl
    · exact locks.midFree l' u uh old mid

/-- The `sema_up` of a lock nobody is inside and nobody holds: its semaphore goes from 0 to 1, and
the waiter it wakes only changes status. -/
theorem up (locks : Locks st) (zero : (st.semas (.lock l)).value = 0)
    (nobody : ∀ u uh, st.threads u = some uh → ¬uh.Inside l) (free : st.holder l = none)
    (values : ∀ l', (st'.semas (.lock l')).value =
      if l' = l then (st.semas (.lock l)).value + 1 else (st.semas (.lock l')).value)
    (holder : st'.holder = st.holder)
    (threads : ∀ u uh', st'.threads u = some uh' →
      ∃ uh, st.threads u = some uh ∧ uh'.held = uh.held ∧ uh'.midLock = uh.midLock) : Locks st' := by
  -- the lock semaphores other than `l`'s are as they were
  have kept : Locks { st' with semas := st.semas } := locks.of_sub (fun _ => rfl) holder
    fun u uh' foundU => by
      obtain ⟨uh, old, held, midLock⟩ := threads u uh' foundU
      exact ⟨uh, old, held, .inl midLock⟩
  refine ⟨fun l' => ?_, fun l' u uh' unlocked foundU inside => ?_, kept.exclusive,
    fun l' u heldBy => ?_, kept.unset, kept.holder, kept.nodup, kept.midFree⟩
  · rw [values]
    split
    · omega
    · exact locks.atMostOne l'
  · by_cases same : l' = l
    · subst same
      obtain ⟨uh, old, held, midLock⟩ := threads u uh' foundU
      exact nobody u uh old ((Thread.inside_congr held midLock l').mp inside)
    · rw [values, if_neg same] at unlocked
      exact kept.outside l' u uh' unlocked foundU inside
  · rw [values]
    split
    · rename_i same
      subst same
      rw [holder, free] at heldBy
      cases heldBy
    · exact locks.taken l' u (holder ▸ heldBy)

theorem spawn (locks : Locks st) (held : th.held = [])
    (midLock : th.midLock = none) : Locks (st.setThread t th) := by
  have outsideAll : ∀ l, ¬th.Inside l := fun l inside => by
    rcases inside with member | mid
    · rw [held] at member
      cases member
    · rw [midLock] at mid
      cases mid
  have back : ∀ u uh, (st.setThread t th).threads u = some uh →
      (u = t ∧ uh = th) ∨ (u ≠ t ∧ st.threads u = some uh) := fun u uh foundU => update_some foundU
  refine ⟨locks.atMostOne, fun l u uh unlocked foundU => ?_, fun l u v uh vh foundU foundV insideU insideV => ?_,
    locks.taken, fun l u uh foundU mid => ?_, fun l u uh foundU member => ?_, fun u uh foundU => ?_,
    fun l u uh foundU mid => ?_⟩
  · rcases back u uh foundU with ⟨-, rfl⟩ | ⟨-, old⟩
    · exact outsideAll l
    · exact locks.outside l u uh unlocked old
  · rcases back u uh foundU with ⟨-, rfl⟩ | ⟨-, oldU⟩
    · exact absurd insideU (outsideAll l)
    · rcases back v vh foundV with ⟨-, rfl⟩ | ⟨-, oldV⟩
      · exact absurd insideV (outsideAll l)
      · exact locks.exclusive l u v uh vh oldU oldV insideU insideV
  · rcases back u uh foundU with ⟨-, rfl⟩ | ⟨-, old⟩
    · rw [midLock] at mid
      cases mid
    · exact locks.unset l u uh old mid
  · rcases back u uh foundU with ⟨-, rfl⟩ | ⟨-, old⟩
    · rw [held] at member
      cases member
    · exact locks.holder l u uh old member
  · rcases back u uh foundU with ⟨-, rfl⟩ | ⟨-, old⟩
    · rw [held]
      exact List.nodup_nil
    · exact locks.nodup u uh old
  · rcases back u uh foundU with ⟨-, rfl⟩ | ⟨-, old⟩
    · rw [midLock] at mid
      cases mid
    · exact locks.midFree l u uh old mid

end Locks

end Pintos.Scheduler

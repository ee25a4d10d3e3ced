import Mathlib
import Pintos.Threads.SchedulerInvariant

/-!
# Every reachable state of the scheduler satisfies its invariant

One lemma for each way a step changes the machine: the running thread goes on running
(`Inv.moveOn`), a semaphore is taken or given (`Inv.semaTryDown`, `Inv.semaDownTest`,
`Inv.semaUp`), the running thread leaves the CPU to `schedule` (`Inv.leave`), `thread_create`
makes a thread (`Inv.spawn`), and the idle thread records itself (`Inv.idleStart`).
`Inv.runPiece` and `Inv.step` dispatch on the piece and on the action, and `inv_reachable` is
their induction over the runs from `boot`.
-/

namespace Pintos.Scheduler

open Function

variable {values : Nat → Nat} {st st' : Sched} {th th' : Thread} {piece : Piece} {pre rest : List Piece}

/-- What `Shaped` needs of the running thread's new record `th'` against its old one `th`. -/
structure Continues (st : Sched) (th th' : Thread) : Prop where
  idle : th'.idle = th.idle
  created : th'.created = th.created ∨ th'.created = none
  shape : CodeShape th'.idle th'.code
  alive : th'.idle = true → th'.status ≠ .dying
  started : st.idleThread = some st.current → th'.code ≠ idleCode
  pending : .pallocThread true ∈ th'.code → .pallocThread true ∈ th.code

theorem Inv.running (inv : Inv values st) : st.place st.current = .running :=
  (inv.queues.running st.current).mpr rfl

theorem Inv.status_running (inv : Inv values st) (found : st.threads st.current = some th) :
    th.status = .running := by
  have running := inv.running
  simp only [Sched.place, found] at running
  unfold Thread.place at running
  split at running
  · assumption
  all_goals (try split at running) <;> cases running

theorem CodeShape.call (c : Call) : CodeShape false c.code := by
  cases c <;>
    exact ⟨by simp [Call.code, lockAcquireCode, lockTryAcquireCode, lockReleaseCode, threadCreateCode,
        threadExitCode, Piece.front], fun isIdle => (by cases isIdle),
      fun _ => by simp [Call.code, lockAcquireCode, lockTryAcquireCode, lockReleaseCode, threadCreateCode,
        threadExitCode],
      by simp [Call.code, lockAcquireCode, lockTryAcquireCode, lockReleaseCode, threadCreateCode,
        threadExitCode]⟩

namespace Continues

theorem kernel (shaped : Shaped st) (found : st.threads st.current = some th)
    (code : th.code = piece :: rest)
    (notIdle : piece ≠ .idleStart ∧ piece ≠ .semaUp .idleStarted ∧ piece ≠ .idleBlock)
    (pre : List Piece) (front : ∀ q ∈ pre.tail, q.front = false)
    (noIdle : .idleStart ∉ pre ∧ .idleBlock ∉ pre) (noCreate : .pallocThread true ∉ pre)
    (idle : th'.idle = th.idle) (code' : th'.code = pre ++ rest)
    (created : th'.created = th.created ∨ th'.created = none) : Continues st th th' := by
  have shape : CodeShape th.idle (piece :: rest) := code ▸ shaped.code _ th found
  have kernel : th.idle = false := shape.idle_eq_false notIdle
  refine ⟨idle, created, ?_, fun isIdle => ?_, fun isIdle => ?_, fun has => ?_⟩
  · rw [idle, code', kernel]
    rw [kernel] at shape
    exact shape.prepend pre front noIdle noCreate
  · rw [idle, kernel] at isIdle
    cases isIdle
  · -- the idle thread runs `idle`, so the running kernel thread is not it
    obtain ⟨ih, foundI, idleI, -⟩ := shaped.idleThread _ isIdle
    rw [found] at foundI
    cases Option.some.inj foundI
    rw [kernel] at idleI
    cases idleI
  · rw [code', List.mem_append] at has
    rw [code]
    exact List.mem_cons_of_mem _ (has.resolve_left noCreate)

theorem drop (shaped : Shaped st) (found : st.threads st.current = some th)
    (code : th.code = piece :: rest) (notLoop : piece ≠ .idleBlock)
    (idle : th'.idle = th.idle) (code' : th'.code = rest)
    (created : th'.created = th.created ∨ th'.created = none)
    (alive : th'.idle = true → th'.status ≠ .dying) : Continues st th th' := by
  have shape : CodeShape th.idle (piece :: rest) := code ▸ shaped.code _ th found
  refine ⟨idle, created, ?_, alive, fun isIdle => ?_, fun has => ?_⟩
  · rw [idle, code']
    exact shape.drop notLoop
  · -- the idle thread's code is at most `idle`'s, so what is left of it is shorter
    obtain ⟨ih, foundI, idleI, -⟩ := shaped.idleThread _ isIdle
    rw [found] at foundI
    cases Option.some.inj foundI
    rw [code']
    intro same
    rcases shape.idleCode idleI with whole | whole | whole <;> rw [same] at whole <;>
      simp [Scheduler.idleCode] at whole
  · rw [code]
    exact List.mem_cons_of_mem _ (code' ▸ has)

theorem restatus (shaped : Shaped st) (found : st.threads st.current = some th) (status : ThreadStatus)
    (alive : th.idle = true → status ≠ .dying) : Continues st th { th with status := status } := by
  refine ⟨rfl, .inl rfl, shaped.code _ th found, alive, fun isIdle => ?_, id⟩
  obtain ⟨ih, foundI, -, started⟩ := shaped.idleThread _ isIdle
  rw [found] at foundI
  cases Option.some.inj foundI
  exact started

theorem call (shaped : Shaped st) (found : st.threads st.current = some th) (own : th.code = [])
    (c : Call) : Continues st th { th with code := c.code } := by
  have shape := shaped.code _ th found
  -- the idle thread's code is never empty
  have kernel : th.idle = false := by
    cases isIdle : th.idle
    · rfl
    · rcases shape.idleCode isIdle with same | same | same <;> rw [own] at same <;>
        simp [Scheduler.idleCode] at same
  refine ⟨rfl, .inl rfl, kernel ▸ CodeShape.call c, fun isIdle => by simp [kernel] at isIdle,
    fun _ => ?_, fun has => ?_⟩
  · cases c <;> simp [Call.code, Scheduler.idleCode, lockAcquireCode, lockTryAcquireCode, lockReleaseCode,
      threadCreateCode, threadExitCode]
  · cases c <;> simp [Call.code, lockAcquireCode, lockTryAcquireCode, lockReleaseCode, threadCreateCode,
      threadExitCode] at has

theorem shaped (cont : Continues st th th') (shaped : Shaped st) (found : st.threads st.current = some th)
    (running : st.place st.current = .running) {st1 : Sched}
    (threads : st1.threads = update st.threads st.current (some th'))
    (idleThread : st1.idleThread = st.idleThread) : Shaped st1 :=
  (shaped.setRunning found running cont.idle cont.shape cont.alive cont.started cont.pending
    cont.created).congr threads idleThread

end Continues

theorem Locks.moveOn {st1 : Sched} {t : Nat} (locks : Locks st)
    (threads : st1.threads = update st.threads t (some th')) (found : st.threads t = some th)
    (held : th'.held = th.held) (midLock : th'.midLock = th.midLock ∨ th'.midLock = none)
    (values : ∀ l, (st1.semas (.lock l)).value = (st.semas (.lock l)).value)
    (holder : st1.holder = st.holder) : Locks st1 :=
  locks.of_sub values holder fun u uh foundU => by
    rcases update_some (threads ▸ foundU) with ⟨rfl, rfl⟩ | ⟨-, old⟩
    · exact ⟨th, found, held, midLock⟩
    · exact ⟨uh, old, rfl, .inl rfl⟩

/-! ## The running thread goes on -/

/-- The running thread goes on running with a new record; the lists, the semaphores, the holders
and the idle thread stay. -/
theorem Inv.moveOn (inv : Inv values st) (found : st.threads st.current = some th)
    (cont : Continues st th th') (running : th'.status = .running) (held : th'.held = th.held)
    (midLock : th'.midLock = th.midLock ∨ th'.midLock = none) :
    Inv values (st.setThread st.current th') where
  queues := inv.queues.stay rfl running rfl rfl rfl fun _ => rfl
  counted := inv.counted
  locks := inv.locks.moveOn rfl found held midLock (fun _ => rfl) rfl
  shaped := cont.shaped inv.shaped found inv.running rfl rfl

theorem Inv.advance (inv : Inv values st) (found : st.threads st.current = some th)
    (code : th.code = piece :: rest) (notLoop : piece ≠ .idleBlock) :
    Inv values (st.setThread st.current { th with code := rest }) := by
  have running := inv.status_running found
  have shape : CodeShape th.idle (piece :: rest) := code ▸ inv.shaped.code _ th found
  refine inv.moveOn found (.drop inv.shaped found code notLoop rfl rfl (.inl rfl) fun _ => ?_) running rfl
    (.inr ?_)
  · simp [running]
  · exact shape.midLock_rest

/-- A kernel thread's front piece gives way to `pre`, and its code does not start with a piece
after a lock's semaphore. -/
theorem Inv.expand (inv : Inv values st) (found : st.threads st.current = some th)
    (code : th.code = piece :: rest)
    (notIdle : piece ≠ .idleStart ∧ piece ≠ .semaUp .idleStarted ∧ piece ≠ .idleBlock)
    (pre : List Piece) (front : ∀ q ∈ pre.tail, q.front = false)
    (noIdle : .idleStart ∉ pre ∧ .idleBlock ∉ pre) (noCreate : .pallocThread true ∉ pre)
    (preMid : (pre ++ rest).head?.bind Piece.midLock = none) :
    Inv values (st.setThread st.current { th with code := pre ++ rest }) := by
  have running := inv.status_running found
  exact inv.moveOn found (.kernel inv.shaped found code notIdle pre front noIdle noCreate rfl rfl (.inl rfl))
    running rfl (.inr preMid)

/-! ## The running thread leaves the CPU -/

/-- The running thread leaves `THREAD_RUNNING` for a place where it joins the back of the ready list
or of a semaphore's waiters, or no list, and `schedule` switches. -/
theorem Inv.leave {st1 : Sched} (inv : Inv values st) (scheduled : st1.schedule = .ok st')
    (threads : st1.threads = update st.threads st.current (some th'))
    (found : st.threads st.current = some th) (cont : Continues st th th') (held : th'.held = th.held)
    (midLock : th'.midLock = th.midLock ∨ th'.midLock = none)
    (idleThread : st1.idleThread = st.idleThread) (holder : st1.holder = st.holder)
    (value : ∀ s, (st1.semas s).value = (st.semas s).value) (ups : st1.ups = st.ups)
    (downs : st1.downs = st.downs) (leaves : th'.place (st.idleThread == some st.current) ≠ .running)
    (readyList : st1.readyList =
      if th'.place (st.idleThread == some st.current) = .queued then st.readyList ++ [st.current]
      else st.readyList)
    (waiters : ∀ s, (st1.semas s).waiters =
      if th'.place (st.idleThread == some st.current) = .waiting s then
        (st.semas s).waiters ++ [st.current]
      else (st.semas s).waiters) : Inv values st' := by
  have shaped := cont.shaped inv.shaped found inv.running threads idleThread
  have counted : Counted values st1 := fun s => by
    rw [value, ups, downs]
    exact inv.counted s
  exact Inv.of_switching (inv.queues.depart shaped threads idleThread leaves readyList waiters) counted
    (inv.locks.moveOn threads found held midLock (fun l => value (.lock l)) holder) shaped scheduled

/-- `thread_yield`: the running thread is to go on with `rest`; it joins the ready list unless it
is the idle thread. -/
theorem Inv.threadYield (inv : Inv values st) (yielded : st.threadYield st.current th rest = .ok st')
    (found : st.threads st.current = some th) (cont : Continues st th { th with status := .ready, code := rest })
    (midLock : rest.head?.bind Piece.midLock = th.midLock ∨ rest.head?.bind Piece.midLock = none) :
    Inv values st' := by
  simp only [Sched.threadYield] at yielded
  refine inv.leave yielded rfl found cont rfl midLock rfl rfl (fun _ => rfl) rfl rfl ?_ ?_ fun _ => ?_
  all_goals by_cases idle : st.idleThread = some st.current <;> simp [Thread.place, idle]

/-- `thread_exit` from its `intr_disable ()`: the thread dies and `schedule` switches. -/
theorem Inv.exitTail (inv : Inv values st) (found : st.threads st.current = some th)
    (code : th.code = .exitTail :: rest)
    (exited : (st.setThread st.current { th with status := .dying, code := rest }).schedule = .ok st') :
    Inv values st' := by
  have shape : CodeShape th.idle (.exitTail :: rest) := code ▸ inv.shaped.code _ th found
  refine inv.leave exited rfl found (.kernel inv.shaped found code (by simp) [] (by simp) (by simp) (by simp)
    rfl rfl (.inl rfl)) rfl (.inr shape.midLock_rest) rfl rfl (fun _ => rfl) rfl rfl ?_ ?_ fun _ => ?_ <;>
    simp [Thread.place]

theorem Inv.idleBlock (inv : Inv values st) (found : st.threads st.current = some th)
    (code : th.code = .idleBlock :: rest)
    (blocked : (st.setThread st.current { th with status := .blocked }).schedule = .ok st') :
    Inv values st' := by
  refine inv.leave blocked rfl found (.restatus inv.shaped found .blocked fun _ => by simp) rfl (.inl rfl)
    rfl rfl (fun _ => rfl) rfl rfl ?_ ?_ fun _ => ?_ <;> simp [Thread.place, code, Piece.retest]

/-! ## Semaphores -/

/-- `sema_try_down` of a semaphore of its own, by a thread or by an interrupt handler. -/
theorem Inv.semaTryDown (inv : Inv values st) (s : Sema) : Inv values (st.semaTryDown (.plain s)).1 := by
  unfold Sched.semaTryDown
  split
  · rename_i positive
    refine ⟨inv.queues.congr (fun _ => rfl) rfl rfl fun s' => ?_, fun s' => ?_,
      inv.locks.of_sub (fun l => by simp) rfl fun u uh found => ⟨uh, found, rfl, .inl rfl⟩,
      inv.shaped.congr rfl rfl⟩
    · by_cases same : s' = .plain s <;> simp [same]
    · have counted := inv.counted s'
      by_cases same : s' = .plain s
      · subst same
        simp only [Sched.setSema_semas, Sched.setSema_ups, update_self]
        omega
      · simpa [same] using counted
  · exact inv

/-- What a `sema_up (s)` needs of a lock's semaphore: nobody is inside the lock and nobody holds
it, so its semaphore is free to go from 0 to 1. -/
def Room (st : Sched) (s : SemaRef) : Prop :=
  ∀ l, s = .lock l → (st.semas s).value = 0 ∧ (∀ u uh, st.threads u = some uh → ¬uh.Inside l) ∧
    st.holder l = none

/-- The lock semaphores after a `sema_up (s)`: one more in `s`, and the thread it wakes changes
status only. -/
theorem Locks.semaUp {s : SemaRef} (locks : Locks st) (room : Room st s)
    (values : ∀ l, (st'.semas (.lock l)).value =
      if .lock l = s then (st.semas s).value + 1 else (st.semas (.lock l)).value)
    (holder : st'.holder = st.holder)
    (threads : ∀ u uh', st'.threads u = some uh' →
      ∃ uh, st.threads u = some uh ∧ uh'.held = uh.held ∧ uh'.midLock = uh.midLock) : Locks st' := by
  cases s with
  | plain s =>
    refine locks.of_sub (fun l => by simpa using values l) holder fun u uh' found => ?_
    obtain ⟨uh, old, held, midLock⟩ := threads u uh' found
    exact ⟨uh, old, held, .inl midLock⟩
  | lock l =>
    obtain ⟨zero, nobody, free⟩ := room l rfl
    refine locks.up zero nobody free (fun l' => ?_) holder threads
    rw [values]
    by_cases same : l' = l <;> simp [same]

/-- `sema_up (s)`: one more in `s`, one more completed `sema_up`, and the first waiter, if any,
made ready and put at the back of the ready list. -/
theorem Inv.semaUp {s : SemaRef} (inv : Inv values st) (room : Room st s) (up : st.semaUp s = .ok st') :
    Inv values st' := by
  -- a `sema_up` counts one more, whether it wakes a waiter or not
  have counted : ∀ sema : Semaphore, sema.value = (st.semas s).value + 1 →
      Counted values { st.setSema s sema with ups := update st.ups s (st.ups s + 1) } := fun sema more s' => by
    have counted := inv.counted s'
    by_cases same : s' = s
    · subst same
      simp only [Sched.setSema_semas, Sched.setSema_downs, update_self]
      omega
    · simpa [same] using counted
  have values : ∀ sema : Semaphore, sema.value = (st.semas s).value + 1 → ∀ l,
      (update st.semas s sema (.lock l)).value =
        if .lock l = s then (st.semas s).value + 1 else (st.semas (.lock l)).value := fun sema more l => by
    by_cases same : SemaRef.lock l = s
    · subst same
      simp [more]
    · simp [same]
  unfold Sched.semaUp at up
  cases waiting : (st.semas s).waiters with
  | nil =>
    simp only [Semaphore.up, waiting] at up
    cases up
    refine ⟨inv.queues.congr (fun _ => rfl) rfl rfl fun s' => ?_, counted _ rfl,
      inv.locks.semaUp room (values _ rfl) rfl fun u uh found => ⟨uh, found, rfl, rfl⟩,
      inv.shaped.congr rfl rfl⟩
    by_cases same : s' = s
    · subst same
      simp [waiting]
    · simp [same]
  | cons u rest =>
    simp only [Semaphore.up, waiting] at up
    unfold Sched.threadUnblock at up
    split at up
    · cases up
    rename_i uh found
    split at up
    · rename_i blocked
      cases up
      -- the thread woken was the first waiter, so it waited on `s` and nowhere else
      have waitingU : st.place u = .waiting s := ((inv.queues.waiters s).mem_iff u).mp (by simp [waiting])
      have notIdle : st.idleThread ≠ some u := fun idle => by
        rcases inv.shaped.idle_place idle (by simp [waitingU]) with aside | asleep
        · rw [waitingU] at aside; cases aside
        · rw [waitingU] at asleep; cases asleep
      refine ⟨inv.queues.wake found blocked notIdle rfl rfl rfl rfl (fun s' waitingS => ?_) fun s' other => ?_,
        counted _ rfl, inv.locks.semaUp room (values _ rfl) rfl fun v vh foundV => ?_,
        (inv.shaped.wake found (inv.shaped.uncreated (.inr ⟨s, waitingU⟩))).congr rfl rfl⟩
      · rw [waitingU] at waitingS
        cases waitingS
        simp [waiting]
      · have differ : s' ≠ s := fun same => other (same ▸ waitingU)
        simp [differ]
      · rcases update_some foundV with ⟨rfl, rfl⟩ | ⟨-, old⟩
        · exact ⟨uh, found, rfl, rfl⟩
        · exact ⟨vh, old, rfl, rfl⟩
    · cases up

/-- The running kernel thread takes one from `s`, which is positive, and goes on with `pre` and the
rest of its code: nothing from a semaphore of its own, or, from a lock's, the piece that sets the
holder. -/
theorem Inv.take {st1 : Sched} {s : SemaRef} (inv : Inv values st)
    (threads : st1.threads = update st.threads st.current (some { th with code := pre ++ rest }))
    (found : st.threads st.current = some th) (code : th.code = piece :: rest)
    (notIdle : piece ≠ .idleStart ∧ piece ≠ .semaUp .idleStarted ∧ piece ≠ .idleBlock)
    (notMid : piece.midLock = none)
    (taking : (pre = [] ∧ ∃ s0, s = .plain s0) ∨ ∃ l, s = .lock l ∧ pre = [.setHolder l])
    (positive : 0 < (st.semas s).value)
    (semas : st1.semas = update st.semas s { st.semas s with value := (st.semas s).value - 1 })
    (downs : st1.downs = update st.downs s (st.downs s + 1)) (current : st1.current = st.current)
    (readyList : st1.readyList = st.readyList) (idleThread : st1.idleThread = st.idleThread)
    (holder : st1.holder = st.holder) (ups : st1.ups = st.ups) : Inv values st1 := by
  have running := inv.status_running found
  have shape : CodeShape th.idle (piece :: rest) := code ▸ inv.shaped.code _ th found
  have before : th.midLock = none := by simp [Thread.midLock, code, notMid]
  have cont : Continues st th { th with code := pre ++ rest } := by
    refine .kernel inv.shaped found code notIdle pre ?_ ?_ ?_ rfl rfl (.inl rfl) <;>
      rcases taking with ⟨rfl, -⟩ | ⟨l, -, rfl⟩ <;> simp
  refine ⟨inv.queues.stay threads running idleThread current readyList fun s' => ?_, fun s' => ?_, ?_,
    cont.shaped inv.shaped found inv.running threads idleThread⟩
  · rw [semas]
    by_cases same : s' = s
    · subst same
      simp
    · simp [same]
  · have counted := inv.counted s'
    rw [semas, downs, ups]
    by_cases same : s' = s
    · subst same
      simp only [update_self]
      omega
    · simpa [same] using counted
  · rcases taking with ⟨rfl, s0, rfl⟩ | ⟨l, rfl, rfl⟩
    · -- a semaphore of its own: the locks do not see it
      exact inv.locks.moveOn threads found rfl (.inr shape.midLock_rest) (fun l => by simp [semas]) holder
    · -- a lock's: the thread is now inside it
      refine inv.locks.take found before positive threads rfl
        (by simp [Thread.midLock, Piece.midLock]) (fun l' => ?_) holder
      rw [semas]
      by_cases same : l' = l
      · subst same
        simp
      · simp [same]

/-- A test of the loop of `sema_down (s)` by the running kernel thread: it takes one and goes on
with `taken` and the rest of its code, or joins the waiters, blocks to resume with `retest`, and
`schedule` switches.  A lock's `sema_down` goes on with `lock->holder = thread_current ()`. -/
theorem Inv.semaDownTest {s : SemaRef} {taken : Option Piece} {retest : Piece} (inv : Inv values st)
    (tested : st.semaDownTest st.current th s taken retest rest = .ok st')
    (found : st.threads st.current = some th) (code : th.code = piece :: rest)
    (notIdle : piece ≠ .idleStart ∧ piece ≠ .semaUp .idleStarted ∧ piece ≠ .idleBlock)
    (notMid : piece.midLock = none)
    (taking : (taken = none ∧ ∃ s0, s = .plain s0) ∨ ∃ l, s = .lock l ∧ taken = some (.setHolder l))
    (resumes : retest.retest = some s) : Inv values st' := by
  -- the piece the thread resumes with is a loop of `sema_down`: no lock is past its semaphore
  obtain ⟨notMidRetest, notStart, notBlock, notCreate⟩ : retest.midLock = none ∧ retest ≠ .idleStart ∧
      retest ≠ .idleBlock ∧ retest ≠ .pallocThread true := by
    cases retest <;> simp_all [Piece.retest, Piece.midLock]
  by_cases zero : (st.semas s).value = 0
  · -- the value is 0: the thread waits on `s`
    simp only [Sched.semaDownTest, Semaphore.down, zero, if_true] at tested
    have place : ({ th with status := .blocked, code := retest :: rest } : Thread).place
        (st.idleThread == some st.current) = .waiting s := by
      simp [Thread.place, resumes]
    refine inv.leave tested rfl found (.kernel inv.shaped found code notIdle [retest] (by simp)
      (by simp [Ne.symm notStart, Ne.symm notBlock]) (by simp [Ne.symm notCreate]) rfl rfl (.inl rfl)) rfl
      (.inr (by simp [Thread.midLock, notMidRetest])) rfl rfl (fun s' => ?_) rfl rfl
      (by simp [place]) (by simp [place]) fun s' => ?_
    · by_cases same : s' = s
      · subst same
        simp [zero]
      · simp [same]
    · rw [place]
      by_cases same : s' = s
      · subst same
        simp
      · simp [same, Ne.symm same]
  · -- the value is positive: the thread takes one and goes on
    simp only [Sched.semaDownTest, Semaphore.down, zero, if_false] at tested
    cases tested
    refine inv.take rfl found code notIdle notMid ?_ (Nat.pos_of_ne_zero zero) rfl rfl rfl rfl rfl rfl rfl
    rcases taking with ⟨rfl, real⟩ | ⟨l, same, rfl⟩
    · exact .inl ⟨rfl, real⟩
    · exact .inr ⟨l, same, rfl⟩

/-! ## Locks -/

section Locks

variable {l : LockRef}

theorem Inv.setHolder (inv : Inv values st) (found : st.threads st.current = some th)
    (code : th.code = .setHolder l :: rest) :
    Inv values { st.setThread st.current { th with code := rest, held := th.held.insert l } with
      holder := update st.holder l (some st.current) } := by
  have running := inv.status_running found
  have shape : CodeShape th.idle (.setHolder l :: rest) := code ▸ inv.shaped.code _ th found
  have cont : Continues st th { th with code := rest, held := th.held.insert l } :=
    .drop inv.shaped found code (by simp) rfl rfl (.inl rfl) fun _ => by simp [running]
  exact ⟨inv.queues.stay rfl running rfl rfl rfl fun _ => rfl, inv.counted,
    inv.locks.setHolder found (by simp [Thread.midLock, code, Piece.midLock]) rfl rfl
      shape.midLock_rest (fun _ => rfl) rfl,
    cont.shaped inv.shaped found inv.running rfl rfl⟩

/-- `lock_try_acquire`'s `sema_try_down`: the thread goes on to set the holder if it took the
lock's semaphore. -/
theorem Inv.tryAcquire (inv : Inv values st) (found : st.threads st.current = some th)
    (code : th.code = .tryAcquire l :: rest)
    (tried : (match st.semaTryDown (.lock l) with
      | (st', success) => pure (st'.setThread st.current
          { th with code := if success then .setHolder l :: rest else rest }) : Except String Sched) =
        .ok st') : Inv values st' := by
  by_cases positive : 0 < (st.semas (.lock l)).value
  · simp only [Sched.semaTryDown, positive, ↓reduceIte] at tried
    cases tried
    exact inv.take rfl found code (by simp) rfl (.inr ⟨l, rfl, rfl⟩) positive rfl rfl rfl rfl rfl rfl rfl
  · simp only [Sched.semaTryDown, positive, ↓reduceIte] at tried
    cases tried
    exact inv.advance found code (by simp)

/-- `lock_release`'s `lock->holder = NULL` by the holder: it goes on to the lock's `sema_up`. -/
theorem Inv.clearHolder (inv : Inv values st) (found : st.threads st.current = some th)
    (code : th.code = .clearHolder l :: rest) (holds : st.holder l = some st.current) :
    Inv values { st.setThread st.current { th with code := .lockUp l :: rest, held := th.held.erase l } with
      holder := update st.holder l none } := by
  have running := inv.status_running found
  have cont : Continues st th { th with code := .lockUp l :: rest, held := th.held.erase l } :=
    .kernel inv.shaped found code (by simp) [.lockUp l] (by simp) (by simp) (by simp) rfl rfl (.inl rfl)
  exact ⟨inv.queues.stay rfl running rfl rfl rfl fun _ => rfl, inv.counted,
    inv.locks.clearHolder found holds (by simp [Thread.midLock, code, Piece.midLock]) rfl rfl
      (by simp [Thread.midLock, Piece.midLock]) (fun _ => rfl) rfl,
    cont.shaped inv.shaped found inv.running rfl rfl⟩

/-- `lock_release`'s `sema_up`: the thread leaves the lock, whose semaphore goes back from 0 to 1. -/
theorem Inv.lockUp (inv : Inv values st) (found : st.threads st.current = some th)
    (code : th.code = .lockUp l :: rest)
    (up : (st.setThread st.current { th with code := rest }).semaUp (.lock l) = .ok st') :
    Inv values st' := by
  have mid : th.midLock = some l := by simp [Thread.midLock, code, Piece.midLock]
  have shape : CodeShape th.idle (.lockUp l :: rest) := code ▸ inv.shaped.code _ th found
  refine (inv.advance found code (by simp)).semaUp (fun l' same => ?_) up
  cases same
  refine ⟨inv.locks.value_of_inside found (.inr mid), fun u uh foundU insideU => ?_,
    inv.locks.unset l _ th found mid⟩
  rcases update_some foundU with ⟨rfl, rfl⟩ | ⟨other, old⟩
  · -- the thread itself is past the lock: it does not hold it, and its code goes on after it
    rcases insideU with member | midU
    · exact inv.locks.midFree l _ th found mid member
    · simp [Thread.midLock, shape.midLock_rest] at midU
  · exact other (inv.locks.exclusive l u _ uh th old found insideU (.inr mid))

end Locks

/-! ## Threads made and started -/

/-- `palloc_get_page` of `thread_create` returns a free page: `init_thread` makes the new thread
there, blocked, and the creator goes on with the rest of `thread_create`. -/
theorem Inv.spawn {idle : Bool} {p : Nat} (inv : Inv values st) (found : st.threads st.current = some th)
    (code : th.code = .pallocThread idle :: rest) (free : st.threads p = none) :
    Inv values ((st.setThread p (initThread idle)).setThread st.current
      { th with code := threadCreateRest ++ rest, created := some p }) := by
  have running := inv.status_running found
  have other : st.current ≠ p := fun same => by
    rw [same, free] at found
    cases found
  have foundSpawned : (st.setThread p (initThread idle)).threads st.current = some th := by
    simp [update_of_ne other, found]
  have asleep : (initThread idle).place (st.idleThread == some p) = .asleep := by
    cases idle <;> simp [Thread.place, initThread, Scheduler.idleCode, Piece.retest]
  refine ⟨(inv.queues.spawn free asleep).stay rfl running rfl rfl rfl fun _ => rfl, inv.counted,
    (inv.locks.spawn rfl (by cases idle <;> rfl)).moveOn rfl foundSpawned rfl (.inr ?_) (fun _ => rfl) rfl,
    inv.shaped.spawn found inv.running code free⟩
  simp [Thread.midLock, threadCreateRest, lockReleaseCode, Piece.midLock]

/-- `thread_unblock (t)` at the end of `thread_create`: the thread made is put on the ready list,
and its creator lets go of it. -/
theorem Inv.unblockCreated {p : Nat} (inv : Inv values st) (found : st.threads st.current = some th)
    (code : th.code = .unblockCreated :: rest) (created : th.created = some p)
    (unblocked : (st.setThread st.current { th with code := rest, created := none }).threadUnblock p =
      .ok st') : Inv values st' := by
  have running := inv.status_running found
  have shape : CodeShape th.idle (.unblockCreated :: rest) := code ▸ inv.shaped.code _ th found
  obtain ⟨⟨ph, foundP, fresh⟩, only⟩ := inv.shaped.created _ th p found created
  have other : p ≠ st.current := fun same =>
    inv.shaped.uncreated (.inl inv.running) _ th found (same ▸ created)
  have inv1 : Inv values (st.setThread st.current { th with code := rest, created := none }) :=
    inv.moveOn found (.drop inv.shaped found code (by simp) rfl rfl (.inr rfl) fun _ => by simp [running])
      running rfl (.inr shape.midLock_rest)
  unfold Sched.threadUnblock at unblocked
  simp only [Sched.setThread_threads, update_of_ne other, foundP] at unblocked
  split at unblocked
  · rename_i blocked
    cases unblocked
    have foundP1 : (st.setThread st.current { th with code := rest, created := none }).threads p = some ph := by
      simp [update_of_ne other, foundP]
    -- the thread made is asleep, in no list, and it is not the idle thread: that one has started
    have asleep : (st.setThread st.current { th with code := rest, created := none }).place p = .asleep := by
      rw [Sched.place, foundP1, fresh]
      cases ph.idle <;> simp [Thread.place, initThread, Scheduler.idleCode, Piece.retest]
    have notIdle : st.idleThread ≠ some p := fun idle => by
      obtain ⟨ih, foundI, isIdle, started⟩ := inv.shaped.idleThread p idle
      rw [foundP] at foundI
      cases Option.some.inj foundI
      rw [fresh] at started isIdle
      simp [initThread] at isIdle
      simp [initThread, isIdle] at started
    -- the creator was the one thread pointing at it, and it no longer does
    have uncreated : ∀ u uh, (st.setThread st.current { th with code := rest, created := none }).threads u =
        some uh → uh.created ≠ some p := fun u uh foundU createdU => by
      rcases update_some foundU with ⟨rfl, rfl⟩ | ⟨otherU, old⟩
      · cases createdU
      · exact otherU (only u uh old createdU)
    exact ⟨inv1.queues.wake foundP1 blocked notIdle rfl rfl rfl rfl
        (fun s waiting => by rw [asleep] at waiting; cases waiting) fun _ _ => rfl,
      inv1.counted, inv1.locks.moveOn rfl foundP1 rfl (.inl rfl) (fun _ => rfl) rfl,
      (inv1.shaped.wake foundP1 uncreated).congr rfl rfl⟩
  · cases unblocked

/-- `idle_thread = thread_current ()`: the idle thread, past its first piece, records itself. -/
theorem Inv.idleStart (inv : Inv values st) (found : st.threads st.current = some th)
    (code : th.code = .idleStart :: rest) :
    Inv values { st.setThread st.current { th with code := rest } with idleThread := some st.current } := by
  have running := inv.status_running found
  have shape : CodeShape th.idle (.idleStart :: rest) := code ▸ inv.shaped.code _ th found
  have isIdle : th.idle = true := by
    cases idle : th.idle
    · exact absurd (by simp) (shape.kernelCode idle).1
    · rfl
  have whole : rest = Scheduler.idleCode.tail := by
    rcases shape.idleCode isIdle with same | same | same <;> simp [Scheduler.idleCode] at same ⊢
    exact same
  -- the idle thread was not recorded yet: the one recorded has left `idle`'s first piece
  have unrecorded : st.idleThread = none := by
    cases idle : st.idleThread with
    | none => rfl
    | some i =>
      obtain ⟨ih, foundI, isIdleI, started⟩ := inv.shaped.idleThread i idle
      cases inv.shaped.oneIdle i _ ih th foundI found isIdleI isIdle
      rw [found] at foundI
      cases Option.some.inj foundI
      exact absurd (by rw [code, whole]; rfl) started
  have inv1 := inv.advance found code (by simp)
  -- a place reads the idle thread only for a ready thread, and the idle thread runs
  have places : ∀ u, ({ st.setThread st.current { th with code := rest } with
      idleThread := some st.current } : Sched).place u =
      (st.setThread st.current { th with code := rest }).place u := by
    intro u
    by_cases same : u = st.current
    · subst same
      simp [Sched.place, Thread.place, running]
    · simp [Sched.place, unrecorded, same, beq_eq_false_iff_ne.mpr (Ne.symm same)]
  have found1 : (st.setThread st.current { th with code := rest }).threads st.current =
      some { th with code := rest } := by simp
  have started : ({ th with code := rest } : Thread).code ≠ Scheduler.idleCode := by
    simp [whole, Scheduler.idleCode]
  exact ⟨inv1.queues.congr places rfl rfl fun _ => rfl, inv1.counted,
    inv1.locks.of_sub (fun _ => rfl) rfl fun u uh foundU => ⟨uh, foundU, rfl, .inl rfl⟩,
    inv1.shaped.setIdle found1 isIdle started⟩

/-! ## Steps and runs -/

theorem Inv.runPiece {page : Option Nat} (inv : Inv values st) (found : st.threads st.current = some th)
    (code : th.code = piece :: rest) (ran : st.runPiece st.current th page rest piece = .ok st') :
    Inv values st' := by
  have shape : CodeShape th.idle (piece :: rest) := code ▸ inv.shaped.code _ th found
  cases piece with
  | semaDown s => exact inv.semaDownTest ran found code (by simp) rfl (.inl ⟨rfl, s, rfl⟩) rfl
  | semaRetest s => exact inv.semaDownTest ran found code (by simp) rfl (.inl ⟨rfl, s, rfl⟩) rfl
  | semaTryDown s =>
    cases ran
    have found' : (st.semaTryDown (.plain s)).1.threads (st.semaTryDown (.plain s)).1.current = some th := by
      rw [Sched.semaTryDown_threads, Sched.semaTryDown_current]
      exact found
    have moved := (inv.semaTryDown s).advance found' code (by simp)
    rwa [Sched.semaTryDown_current] at moved
  | semaUp s => exact (inv.advance found code (by simp)).semaUp (fun _ same => by cases same) ran
  | checkNotHeld l =>
    simp only [Sched.runPiece] at ran
    split at ran <;> cases ran
    exact inv.advance found code (by simp)
  | lockDown l => exact inv.semaDownTest ran found code (by simp) rfl (.inr ⟨l, rfl, rfl⟩) rfl
  | lockRetest l => exact inv.semaDownTest ran found code (by simp) rfl (.inr ⟨l, rfl, rfl⟩) rfl
  | setHolder l =>
    cases ran
    exact inv.setHolder found code
  | tryAcquire l => exact inv.tryAcquire found code ran
  | clearHolder l =>
    simp only [Sched.runPiece] at ran
    split at ran <;> cases ran
    rename_i holds
    exact inv.clearHolder found code holds
  | lockUp l => exact inv.lockUp found code ran
  | acquireUnlessHeld l =>
    cases ran
    by_cases holds : st.holder l = some st.current
    · rw [if_pos holds]
      exact inv.advance found code (by simp)
    · rw [if_neg holds]
      exact inv.expand found code (by simp) (lockAcquireCode l) (by simp [lockAcquireCode, Piece.front])
        (by simp [lockAcquireCode]) (by simp [lockAcquireCode]) (by simp [lockAcquireCode, Piece.midLock])
  | releaseIfHeld l =>
    cases ran
    by_cases holds : st.holder l = some st.current
    · rw [if_pos holds]
      exact inv.expand found code (by simp) (lockReleaseCode l) (by simp [lockReleaseCode])
        (by simp [lockReleaseCode]) (by simp [lockReleaseCode]) (by simp [lockReleaseCode, Piece.midLock])
    · rw [if_neg holds]
      exact inv.advance found code (by simp)
  | yield =>
    exact inv.threadYield ran found (.drop inv.shaped found code (by simp) rfl rfl (.inl rfl) fun _ => by simp)
      (.inr shape.midLock_rest)
  | pallocThread idle =>
    cases page with
    | none =>
      cases ran
      exact inv.expand found code (by simp) (lockReleaseCode .pool) (by simp [lockReleaseCode])
        (by simp [lockReleaseCode]) (by simp [lockReleaseCode]) (by simp [lockReleaseCode, Piece.midLock])
    | some p =>
      simp only [Sched.runPiece] at ran
      split at ran <;> cases ran
      · exact inv
      · rename_i free
        exact inv.spawn found code (Option.not_isSome_iff_eq_none.mp free)
  | pallocHolder =>
    cases page with
    | none => cases ran
    | some _ =>
      cases ran
      exact inv.advance found code (by simp)
  | unblockCreated =>
    simp only [Sched.runPiece] at ran
    split at ran
    · cases ran
    · rename_i p created
      exact inv.unblockCreated found code created ran
  | exitTail => exact inv.exitTail found code ran
  | intrEnable =>
    cases ran
    exact (inv.advance found code (by simp)).congr rfl rfl rfl rfl rfl rfl rfl rfl
  | idleStart =>
    cases ran
    exact inv.idleStart found code
  | idleBlock => exact inv.idleBlock found code ran

theorem Inv.step {action : Action} (inv : Inv values st) (stepped : step st action = .ok st') :
    Inv values st' := by
  cases action with
  | call c =>
    simp only [Scheduler.step] at stepped
    split at stepped
    · rename_i th found
      split at stepped <;> cases stepped
      · rename_i own
        have running := inv.status_running found
        exact inv.moveOn found (.call inv.shaped found own c) running rfl
          (.inl (by cases c <;> simp [Thread.midLock, own, Call.code, lockAcquireCode, lockTryAcquireCode,
            lockReleaseCode, threadCreateCode, threadExitCode, Piece.midLock]))
      · exact inv
    · cases stepped
      exact inv
  | next page =>
    simp only [Scheduler.step] at stepped
    split at stepped
    · rename_i th found
      split at stepped
      · rename_i piece rest code
        exact inv.runPiece found code stepped
      · cases stepped
        exact inv
    · cases stepped
      exact inv
  | tick =>
    simp only [Scheduler.step] at stepped
    split at stepped
    · rename_i th found
      have ticked : Inv values { st with threadTicks := st.threadTicks + 1 } :=
        inv.congr rfl rfl rfl rfl rfl rfl rfl rfl
      split at stepped
      · split at stepped
        · -- the time slice is used up: `intr_yield_on_return`
          exact ticked.threadYield stepped found
            (.restatus ticked.shaped found .ready fun _ => by simp) (.inl rfl)
        · cases stepped
          exact ticked
      · cases stepped
        exact inv
    · cases stepped
      exact inv
  | handlerUp i =>
    simp only [Scheduler.step] at stepped
    split at stepped
    · split at stepped
      · exact inv.semaUp (fun _ same => by cases same) stepped
      · cases stepped
        exact inv
    · cases stepped
      exact inv
  | handlerTryDown i =>
    simp only [Scheduler.step] at stepped
    split at stepped
    · split at stepped <;> cases stepped
      · exact inv.semaTryDown _
      · exact inv
    · cases stepped
      exact inv

/-- The machine after `thread_init` satisfies the invariant: the initial thread runs, about to call
`thread_start`, and every semaphore has its initial value. -/
theorem Inv.boot (main : Nat) (values : Nat → Nat) : Inv values (boot main values) := by
  -- the only thread is the initial one
  have only : ∀ u uh, (Scheduler.boot main values).threads u = some uh → u = main ∧
      uh = { status := .running, code := threadStartCode, idle := false, created := none, held := [] } := by
    intro u uh found
    simp only [Scheduler.boot] at found
    rcases update_some found with ⟨rfl, rfl⟩ | ⟨-, none⟩
    · exact ⟨rfl, rfl⟩
    · cases none
  have place : ∀ u, (Scheduler.boot main values).place u = if u = main then .running else .free := by
    intro u
    by_cases same : u = main
    · subst same
      simp [Sched.place, Scheduler.boot, Thread.place]
    · simp [Sched.place, Scheduler.boot, same]
  have outside : ∀ u uh, (Scheduler.boot main values).threads u = some uh → ∀ l, ¬uh.Inside l := by
    intro u uh found l inside
    obtain ⟨-, rfl⟩ := only u uh found
    rcases inside with member | mid
    · cases member
    · simp [Thread.midLock, threadStartCode, threadCreateCode, lockAcquireCode, Piece.midLock] at mid
  refine ⟨⟨fun t => ?_, .nil fun b => ?_, fun s => .nil fun b => ?_⟩, fun s => ?_, ?_, ?_⟩
  · rw [place]
    split
    next same => simp [same, Scheduler.boot]
    next other => simp [other, Scheduler.boot]
  · rw [place]
    split <;> simp
  · rw [place]
    split <;> simp
  · simp [Scheduler.boot, Semaphore.init]
  · refine ⟨fun l => by simp [Scheduler.boot, Semaphore.init, initValue],
      fun l u uh _ found => outside u uh found l,
      fun l u v uh vh found _ inside _ => absurd inside (outside u uh found l), fun l u held => ?_,
      fun _ _ _ _ _ => rfl, fun l u uh found member => ?_, fun u uh found => ?_,
      fun l u uh found mid => absurd (.inr mid) (outside u uh found l)⟩
    · cases held
    · rw [(only u uh found).2] at member
      cases member
    · rw [(only u uh found).2]
      exact List.nodup_nil
  · refine ⟨fun u uh found => ?_, fun u uh found isIdle => ?_, fun i idle => (by cases idle),
      fun u v uh vh found _ isIdle _ => ?_, fun u uh found _ v vh foundV => ?_,
      fun u uh p found created => ?_⟩
    · rw [(only u uh found).2]
      exact ⟨by decide, fun isIdle => (by cases isIdle), fun _ => by decide, by decide⟩
    · rw [(only u uh found).2] at isIdle
      cases isIdle
    · rw [(only u uh found).2] at isIdle
      cases isIdle
    · obtain ⟨rfl, -⟩ := only u uh found
      obtain ⟨rfl, rfl⟩ := only v vh foundV
      exact ⟨rfl, fun _ => rfl⟩
    · rw [(only u uh found).2] at created
      cases created

theorem inv_reachable {main : Nat} {values : Nat → Nat} {st : Sched} (reached : Reachable main values st) :
    Inv values st :=
  Transition.Reachable.invariant (fun _ start => start ▸ Inv.boot main values)
    (fun _ _ _ inv stepped => inv.step stepped) reached

/-! ## What the invariant says of the source's records

`Sched.place` is read back as the fields of `struct thread` it comes from, and each part of
`Inv` becomes a statement about the ready list, the semaphores' waiters, the locks and the idle
thread over every reachable state. -/

section Places

variable {t : Nat} {isIdle : Bool} {s : SemaRef}

theorem Thread.place_eq_running_iff : th.place isIdle = .running ↔ th.status = .running := by
  unfold Thread.place
  split <;> rename_i status <;> (try split) <;> simp [status]

theorem Thread.place_eq_queued_iff :
    th.place isIdle = .queued ↔ th.status = .ready ∧ isIdle = false := by
  unfold Thread.place
  split <;> rename_i status <;> (try split) <;> simp_all

theorem Thread.place_eq_waiting_iff :
    th.place isIdle = .waiting s ↔ th.status = .blocked ∧ th.code.head?.bind Piece.retest = some s := by
  unfold Thread.place
  cases retest : th.code.head?.bind Piece.retest <;> split <;> rename_i status <;> (try split) <;>
    simp_all

theorem place_eq_running_iff :
    st.place t = .running ↔ ∃ th, st.threads t = some th ∧ th.status = .running := by
  unfold Sched.place
  cases found : st.threads t with
  | none => simp
  | some th => simp [Thread.place_eq_running_iff]

theorem place_eq_queued_iff :
    st.place t = .queued ↔ ∃ th, st.threads t = some th ∧ th.status = .ready ∧ st.idleThread ≠ some t := by
  unfold Sched.place
  cases found : st.threads t with
  | none => simp
  | some th => simp [Thread.place_eq_queued_iff]

theorem place_eq_waiting_iff :
    st.place t = .waiting s ↔ ∃ th, st.threads t = some th ∧ th.status = .blocked ∧
      th.code.head?.bind Piece.retest = some s := by
  unfold Sched.place
  cases found : st.threads t with
  | none => simp
  | some th => simp [Thread.place_eq_waiting_iff]

end Places

/-! ## A contended lock

The run the results below are tried on: `thread_start` creates the idle thread (page 1), the main
thread creates thread 2 and yields to it, thread 2 takes lock `other 0` and yields back, the main
thread blocks in that lock's `sema_down`, and thread 2 creates thread 3. -/

def contendedRun : List Action :=
  let nexts (n : Nat) : List Action := List.replicate n (.next none)
  -- `thread_create`, with `palloc_get_page` returning `page` for the thread and 100 for its holder
  let create (page : Nat) : List Action :=
    [.call .threadCreate] ++ nexts 3 ++ [.next (some page)] ++ nexts 10 ++ [.next (some 100)] ++ nexts 3
  nexts 3 ++ [.next (some 1)] ++ nexts 10 ++ [.next (some 100)] ++ nexts 9 ++
    create 2 ++ [.call .threadYield, .next none, .call (.lockAcquire (.other 0))] ++ nexts 3 ++
    [.call .threadYield, .next none, .call (.lockAcquire (.other 0))] ++ nexts 2 ++ create 3

/-- Thread 2 runs holding lock `other 0`, thread 3 is ready, the main thread waits for the lock,
and the idle thread has started. -/
def Contended (st : Sched) : Prop :=
  st.current = 2 ∧ (∃ th, st.threads 2 = some th ∧ LockRef.other 0 ∈ th.held) ∧
    st.readyList = [3] ∧ (st.semas (.lock (.other 0))).waiters = [0] ∧ st.idleThread = some 1

theorem contended_reachable : ∃ st, Reachable 0 (fun _ => 0) st ∧ Contended st := by
  have ran : Transition.runSatisfies step (Scheduler.boot 0 fun _ => 0) contendedRun (fun st =>
      st.current == 2 && (st.threads 2).any (fun th => th.held.contains (.other 0)) &&
        st.readyList == [3] && (st.semas (.lock (.other 0))).waiters == [0] &&
        st.idleThread == some 1) = true := by
    decide +kernel
  obtain ⟨st, ended, holds⟩ := Transition.exists_of_runSatisfies ran
  simp only [Bool.and_eq_true, beq_iff_eq, Option.any_eq_true, List.contains_iff_mem] at holds
  obtain ⟨⟨⟨⟨running, held⟩, ready⟩, waiting⟩, idle⟩ := holds
  exact ⟨st, Transition.Reachable.of_run rfl ended, running, held, ready, waiting, idle⟩

theorem Contended.queued {st : Sched} (contended : Contended st) : 3 ∈ st.readyList := by
  simp [contended.2.2.1]

theorem Contended.waiting {st : Sched} (contended : Contended st) :
    0 ∈ (st.semas (.lock (.other 0))).waiters := by
  simp [contended.2.2.2.1]

section Reachable

variable {main : Nat}

/-- Exactly one thread is `THREAD_RUNNING`: the one `running_thread ()` returns. -/
theorem reachable_one_running (reached : Reachable main values st) :
    (∃ th, st.threads st.current = some th ∧ th.status = .running) ∧
      ∀ t th, st.threads t = some th → th.status = .running → t = st.current := by
  have queues := (inv_reachable reached).queues
  refine ⟨place_eq_running_iff.mp ((queues.running st.current).mpr rfl), fun t th found running => ?_⟩
  exact (queues.running t).mp (place_eq_running_iff.mpr ⟨th, found, running⟩)

theorem contended_one_running :
    ∃ st, Reachable 0 (fun _ => 0) st ∧ Contended st ∧
      ∃ th, st.threads 2 = some th ∧ th.status = .running := by
  obtain ⟨st, reached, contended⟩ := contended_reachable
  refine ⟨st, reached, contended, ?_⟩
  rw [← contended.1]
  exact (reachable_one_running reached).1

/-- The ready list holds every `THREAD_READY` thread but the idle thread, each once. -/
theorem reachable_readyList (reached : Reachable main values st) :
    st.readyList.Nodup ∧ ∀ t, t ∈ st.readyList ↔
      ∃ th, st.threads t = some th ∧ th.status = .ready ∧ st.idleThread ≠ some t := by
  have ready := (inv_reachable reached).queues.ready
  exact ⟨ready.nodup, fun t => (ready.mem_iff t).trans place_eq_queued_iff⟩

theorem contended_readyList :
    ∃ st, Reachable 0 (fun _ => 0) st ∧ Contended st ∧
      ∃ th, st.threads 3 = some th ∧ th.status = .ready ∧ st.idleThread ≠ some 3 := by
  obtain ⟨st, reached, contended⟩ := contended_reachable
  exact ⟨st, reached, contended, ((reachable_readyList reached).2 3).mp contended.queued⟩

/-- A semaphore's waiters are the threads blocked in the loop of its `sema_down`, each once. -/
theorem reachable_waiters (reached : Reachable main values st) (s : SemaRef) :
    (st.semas s).waiters.Nodup ∧ ∀ t, t ∈ (st.semas s).waiters ↔
      ∃ th, st.threads t = some th ∧ th.status = .blocked ∧ th.code.head?.bind Piece.retest = some s := by
  have waiters := (inv_reachable reached).queues.waiters s
  exact ⟨waiters.nodup, fun t => (waiters.mem_iff t).trans place_eq_waiting_iff⟩

theorem contended_waiters :
    ∃ st, Reachable 0 (fun _ => 0) st ∧ Contended st ∧
      ∃ th, st.threads 0 = some th ∧ th.status = .blocked ∧
        th.code.head?.bind Piece.retest = some (.lock (.other 0)) := by
  obtain ⟨st, reached, contended⟩ := contended_reachable
  exact ⟨st, reached, contended, ((reachable_waiters reached _).2 0).mp contended.waiting⟩

/-- No thread is in two places: the running thread is on no list, a ready thread waits on no
semaphore, and a waiting thread waits on one semaphore only. -/
theorem reachable_lists_apart (reached : Reachable main values st) :
    (∀ s, st.current ∉ st.readyList ∧ st.current ∉ (st.semas s).waiters) ∧
      (∀ t s, t ∈ st.readyList → t ∉ (st.semas s).waiters) ∧
      ∀ t s s', t ∈ (st.semas s).waiters → t ∈ (st.semas s').waiters → s = s' := by
  have queues := (inv_reachable reached).queues
  -- each list holds the threads of one place, and a thread has one place
  have running : st.place st.current = .running := (queues.running st.current).mpr rfl
  have ready : ∀ t, t ∈ st.readyList → st.place t = .queued := fun t => (queues.ready.mem_iff t).mp
  have waiting : ∀ t s, t ∈ (st.semas s).waiters → st.place t = .waiting s :=
    fun t s => ((queues.waiters s).mem_iff t).mp
  refine ⟨fun s => ⟨fun queued => ?_, fun waits => ?_⟩, fun t s queued waits => ?_,
    fun t s s' waits waits' => ?_⟩
  · rw [ready _ queued] at running
    cases running
  · rw [waiting _ s waits] at running
    cases running
  · have queuedPlace := ready t queued
    rw [waiting t s waits] at queuedPlace
    cases queuedPlace
  · have both := (waiting t s waits).symm.trans (waiting t s' waits')
    exact Place.waiting.inj both

theorem contended_lists_apart :
    ∃ st, Reachable 0 (fun _ => 0) st ∧ Contended st ∧
      3 ∉ (st.semas (.lock (.other 0))).waiters ∧ 0 ∉ st.readyList := by
  obtain ⟨st, reached, contended⟩ := contended_reachable
  have apart := reachable_lists_apart reached
  exact ⟨st, reached, contended, apart.2.1 3 _ contended.queued,
    fun ready => apart.2.1 0 _ ready contended.waiting⟩

/-- A semaphore's value is its `sema_init` value plus its `sema_up`s minus its completed
`sema_down`s. -/
theorem reachable_semaphore_value (reached : Reachable main values st) (s : SemaRef) :
    (st.semas s).value + st.downs s = initValue values s + st.ups s :=
  (inv_reachable reached).counted s

theorem contended_semaphore_value :
    ∃ st, Reachable 0 (fun _ => 0) st ∧ Contended st ∧
      (st.semas (.lock (.other 0))).value + st.downs (.lock (.other 0)) =
        1 + st.ups (.lock (.other 0)) := by
  obtain ⟨st, reached, contended⟩ := contended_reachable
  exact ⟨st, reached, contended, reachable_semaphore_value reached _⟩

/-- Mutual exclusion: at most one thread is inside a lock, from the `sema_down` of its
`lock_acquire` to the `sema_up` of its `lock_release`, and the lock's semaphore, which never
exceeds 1, is 0 meanwhile. -/
theorem reachable_lock_exclusive (reached : Reachable main values st) (l : LockRef) :
    (st.semas (.lock l)).value ≤ 1 ∧
      (∀ t u th uh, st.threads t = some th → st.threads u = some uh → th.Inside l →
        uh.Inside l → t = u) ∧
      ∀ t th, st.threads t = some th → th.Inside l → (st.semas (.lock l)).value = 0 := by
  have locks := (inv_reachable reached).locks
  refine ⟨locks.atMostOne l, fun t u th uh found found' inside inside' =>
    locks.exclusive l t u th uh found found' inside inside', fun t th found inside => ?_⟩
  have notOne : (st.semas (.lock l)).value ≠ 1 := fun one => locks.outside l t th one found inside
  have atMost := locks.atMostOne l
  omega

theorem contended_lock_exclusive :
    ∃ st th, Reachable 0 (fun _ => 0) st ∧ Contended st ∧ st.threads 2 = some th ∧
      th.Inside (.other 0) ∧ (st.semas (.lock (.other 0))).value = 0 := by
  obtain ⟨st, reached, contended⟩ := contended_reachable
  obtain ⟨th, found, held⟩ := contended.2.1
  have inside : th.Inside (.other 0) := .inl held
  exact ⟨st, th, reached, contended, found, inside,
    (reachable_lock_exclusive reached (.other 0)).2.2 2 th found inside⟩

/-- A thread whose `lock_acquire` of a lock has returned, and whose `lock_release` has not begun,
is the lock's `holder`. -/
theorem reachable_holder (reached : Reachable main values st) :
    ∀ l t th, st.threads t = some th → l ∈ th.held → st.holder l = some t :=
  (inv_reachable reached).locks.holder

theorem contended_holder :
    ∃ st, Reachable 0 (fun _ => 0) st ∧ Contended st ∧ st.holder (.other 0) = some 2 := by
  obtain ⟨st, reached, contended⟩ := contended_reachable
  obtain ⟨th, found, held⟩ := contended.2.1
  exact ⟨st, reached, contended, reachable_holder reached _ 2 th found held⟩

/-- The idle thread, once it has recorded itself, is a thread running `idle` that never dies, and
no other thread runs `idle`. -/
theorem reachable_idleThread (reached : Reachable main values st) :
    (∀ i, st.idleThread = some i →
      ∃ th, st.threads i = some th ∧ th.idle = true ∧ th.status ≠ .dying) ∧
      ∀ t u th uh, st.threads t = some th → st.threads u = some uh → th.idle = true →
        uh.idle = true → t = u := by
  have shaped := (inv_reachable reached).shaped
  refine ⟨fun i recorded => ?_, shaped.oneIdle⟩
  obtain ⟨th, found, idle, -⟩ := shaped.idleThread i recorded
  exact ⟨th, found, idle, shaped.idleStatus i th found idle⟩

theorem contended_idleThread :
    ∃ st, Reachable 0 (fun _ => 0) st ∧ Contended st ∧
      ∃ th, st.threads 1 = some th ∧ th.idle = true ∧ th.status ≠ .dying := by
  obtain ⟨st, reached, contended⟩ := contended_reachable
  exact ⟨st, reached, contended, (reachable_idleThread reached).1 1 contended.2.2.2.2⟩

end Reachable

/-! ## A lock's holder outlives its thread -/

/-- From `boot 0`: `thread_start` makes the idle thread on page 1; `main` makes a thread on page 2
and yields to it; that thread takes lock `other 0` and calls `thread_exit`, whose
`thread_schedule_tail` frees page 2; `main` makes another thread, again on page 2, and yields to
it. -/
def pageReuseRun : List Action :=
  let nexts (n : Nat) : List Action := List.replicate n (.next none)
  -- `thread_create`, with `palloc_get_page` returning `page` for the thread and 100 for its holder
  let create (page : Nat) : List Action :=
    [.call .threadCreate] ++ nexts 3 ++ [.next (some page)] ++ nexts 10 ++ [.next (some 100)] ++ nexts 3
  nexts 3 ++ [.next (some 1)] ++ nexts 10 ++ [.next (some 100)] ++ nexts 9 ++
    create 2 ++ [.call .threadYield, .next none, .call (.lockAcquire (.other 0))] ++ nexts 3 ++
    [.call .threadExit] ++ nexts 8 ++ create 2 ++ [.call .threadYield, .next none]

/-- A reachable state in which the running thread is the holder of a lock it never acquired: it
holds no lock and runs its own code, and its `lock_acquire` of the lock fails
`ASSERT (!lock_held_by_current_thread (lock))`. -/
theorem holder_outlives_thread :
    ∃ st, Reachable 0 (fun _ => 0) st ∧ st.holder (.other 0) = some st.current ∧
      (∃ th, st.threads st.current = some th ∧ th.held = [] ∧ th.code = []) ∧
      Transition.run step st [.call (.lockAcquire (.other 0)), .next none] =
        .error "assertion !lock_held_by_current_thread (lock) failed" := by
  have ran : Transition.runSatisfies step (Scheduler.boot 0 fun _ => 0) pageReuseRun (fun st =>
      st.holder (.other 0) == some st.current &&
        (st.threads st.current).any (fun th => th.held.isEmpty && th.code.isEmpty) &&
        Transition.stopsWith (Transition.run step st [.call (.lockAcquire (.other 0)), .next none])
          "assertion !lock_held_by_current_thread (lock) failed") = true := by
    decide +kernel
  obtain ⟨st, ended, holds⟩ := Transition.exists_of_runSatisfies ran
  have reached : Reachable 0 (fun _ => 0) st := Transition.Reachable.of_run rfl ended
  simp only [Bool.and_eq_true, beq_iff_eq, Option.any_eq_true, List.isEmpty_iff] at holds
  obtain ⟨⟨holder, th, found, held, own⟩, stops⟩ := holds
  exact ⟨st, reached, holder, ⟨th, found, held, own⟩, Transition.eq_error_of_stopsWith stops⟩

end Pintos.Scheduler

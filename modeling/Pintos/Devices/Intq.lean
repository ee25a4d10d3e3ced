import Mathlib
import Pintos.Transition
import Pintos.Control
import Pintos.Threads.Synch
import Pintos.RingBuffer

/-!
# Interrupt queues

`devices/intq.c`: a ring buffer of `INTQ_BUFSIZE` bytes between kernel threads and interrupt
handlers.  Every call runs with interrupts off, so a call is atomic up to the points where its
thread blocks: in `sema_down` of `q->lock`, or in `wait` with the lock held.  A step is what a
thread or a handler does between two such points.  A thread that finds the queue empty (full)
records itself in `not_empty` (`not_full`) and sleeps until the next `putc` (`getc`) wakes it;
it then releases the lock and tests the queue again.

`put` and `got` are not in the source: they record the bytes passed to `intq_putc` and returned
by `intq_getc`, in order.
-/

namespace Pintos.Intq

open Function RingBuffer

def intqBufsize : Nat := 64

def next (pos : Nat) : Nat := (pos + 1) % intqBufsize

inductive Call where
  | getc
  | putc (byte : UInt8)
  deriving DecidableEq, Repr

/-- The slots `q->not_empty` and `q->not_full`, which `wait` and `signal` take the address of. -/
inductive Waiter where
  | notEmpty
  | notFull
  deriving DecidableEq, Repr

def Call.waiter : Call → Waiter
  | .getc => .notEmpty
  | .putc _ => .notFull

/-- Where a thread is: outside the queue, or in `sema_down` of the lock or in `wait`, blocked
(`woken = false`) or made ready again. -/
inductive Pc where
  | idle
  | acquiring (call : Call) (woken : Bool)
  | waiting (call : Call) (woken : Bool)
  deriving DecidableEq, Repr

/-- `thread_unblock`, which asserts that the thread is blocked. -/
def Pc.unblocked : Pc → Option Pc
  | .acquiring call false => some (.acquiring call true)
  | .waiting call false => some (.waiting call true)
  | _ => none

end Pintos.Intq

namespace Pintos

structure Intq where
  holder : Option Nat
  sema : Semaphore
  waiter : Intq.Waiter → Option Nat
  buf : Nat → UInt8
  head : Nat
  tail : Nat
  pc : Nat → Intq.Pc
  put : List UInt8
  got : List UInt8

end Pintos

namespace Pintos.Intq

open Function RingBuffer

/-- `intq_init`; the buffer keeps what it held. -/
def intqInit (buf : Nat → UInt8) : Intq where
  holder := none
  sema := Semaphore.init 1
  waiter _ := none
  buf
  head := 0
  tail := 0
  pc _ := .idle
  put := []
  got := []

def intqEmpty (q : Intq) : Bool := q.head == q.tail

def intqFull (q : Intq) : Bool := next q.head == q.tail

/-- The condition a thread in the slot waits for to end. -/
def Waiter.holds : Waiter → Intq → Bool
  | .notEmpty, q => intqEmpty q
  | .notFull, q => intqFull q

def unblock (q : Intq) (t : Nat) : Except String Intq :=
  match (q.pc t).unblocked with
  | some pc => pure { q with pc := update q.pc t pc }
  | none => throw "assertion t->status == THREAD_BLOCKED failed"

def wait (q : Intq) (t : Nat) (call : Call) : Except String Intq :=
  if call.waiter.holds q then
    pure { q with waiter := update q.waiter call.waiter (some t), pc := update q.pc t (.waiting call false) }
  else
    throw "assertion (waiter == &q->not_empty && intq_empty (q)) || (waiter == &q->not_full && intq_full (q)) failed"

def signal (q : Intq) (waiter : Waiter) : Except String Intq :=
  if waiter.holds q then
    throw "assertion (waiter == &q->not_empty && !intq_empty (q)) || (waiter == &q->not_full && !intq_full (q)) failed"
  else
    match q.waiter waiter with
    | some t => do
      let q ← unblock q t
      pure { q with waiter := update q.waiter waiter none }
    | none => pure q

/-- `lock_acquire (&q->lock)` from the test of `sema_down`'s loop on, then `wait`. -/
def acquire (q : Intq) (t : Nat) (call : Call) : Except String Intq :=
  match q.sema.down t with
  | (sema, false) => pure { q with sema, pc := update q.pc t (.acquiring call false) }
  | (sema, true) => wait { q with sema, holder := some t } t call

def lockAcquire (q : Intq) (t : Nat) (call : Call) : Except String Intq :=
  if q.holder = some t then throw "assertion !lock_held_by_current_thread (lock) failed"
  else acquire q t call

def lockRelease (q : Intq) (t : Nat) : Except String Intq :=
  if q.holder = some t then
    match q.sema.up with
    | (sema, some u) => unblock { q with holder := none, sema } u
    | (sema, none) => pure { q with holder := none, sema }
  else throw "assertion lock_held_by_current_thread (lock) failed"

/-- The statements of `intq_getc` and `intq_putc` after their loops. -/
def finish (q : Intq) : Call → Except String Intq
  | .getc => signal { q with tail := next q.tail, got := q.got ++ [q.buf q.tail] } .notFull
  | .putc byte =>
    signal { q with buf := update q.buf q.head byte, head := next q.head, put := q.put ++ [byte] }
      .notEmpty

/-- The loop of a call by thread `t`, from its test on. -/
def loop (q : Intq) (t : Nat) (call : Call) : Except String Intq :=
  if call.waiter.holds q then lockAcquire q t call else finish q call

inductive Action where
  /-- Thread `t` calls `intq_getc` or `intq_putc`. -/
  | call (t : Nat) (call : Call)
  /-- Thread `t`, made ready, is scheduled. -/
  | run (t : Nat)
  /-- An interrupt handler calls `intq_getc` or `intq_putc`. -/
  | interrupt (call : Call)

def step (q : Intq) : Action → Except String Intq
  | .call t call => if q.pc t = .idle then loop q t call else pure q
  | .run t =>
    match q.pc t with
    | .acquiring call true => acquire q t call
    | .waiting call true => do
      -- `lock_release (&q->lock)`, then the loop's test again
      let q ← lockRelease { q with pc := update q.pc t .idle } t
      loop q t call
    | _ => pure q
  | .interrupt call =>
    if call.waiter.holds q then throw "assertion !intr_context () failed" else finish q call

def Initial (q : Intq) : Prop := ∃ buf, q = intqInit buf

def Reachable : Intq → Prop := Transition.Reachable Initial step

/-- The bytes in the queue, oldest first. -/
def contents (q : Intq) : List UInt8 := window intqBufsize q.buf q.tail q.head

/-- Blocked in `sema_down` of the lock. -/
def Pc.queued : Pc → Bool
  | .acquiring _ false => true
  | _ => false

/-- Holding the lock: a thread takes it only to wait. -/
def Pc.holding : Pc → Bool
  | .waiting _ _ => true
  | _ => false

/-- The slot of a thread blocked in `wait`. -/
def Pc.slot : Pc → Option Waiter
  | .waiting call false => some call.waiter
  | _ => none

section Operations

variable {q q' : Intq} {t : Nat} {call : Call} {w : Waiter}

theorem next_lt (pos : Nat) : next pos < intqBufsize := Nat.mod_lt _ (by decide)

theorem Waiter.holds_congr (head : q'.head = q.head) (tail : q'.tail = q.tail) :
    w.holds q' = w.holds q := by
  cases w <;> simp [Waiter.holds, intqEmpty, intqFull, head, tail]

theorem Pc.slot_eq_none {p : Pc} (notHolding : p.holding = false) : p.slot = none := by
  cases p <;> simp_all [Pc.holding, Pc.slot]

theorem Pc.unblocked_eq_some {p p' : Pc} (unblocked : p.unblocked = some p') :
    (∃ call, p = .acquiring call false ∧ p' = .acquiring call true) ∨
      (∃ call, p = .waiting call false ∧ p' = .waiting call true) := by
  unfold Pc.unblocked at unblocked
  split at unblocked <;> cases unblocked
  · exact .inl ⟨_, rfl, rfl⟩
  · exact .inr ⟨_, rfl, rfl⟩

theorem unblock_ok (unblocked : unblock q t = .ok q') :
    ∃ p, (q.pc t).unblocked = some p ∧ q' = { q with pc := update q.pc t p } := by
  unfold unblock at unblocked
  split at unblocked
  · cases unblocked
    exact ⟨_, ‹_›, rfl⟩
  · cases unblocked

theorem signal_ok (signalled : signal q w = .ok q') :
    w.holds q = false ∧ ((q.waiter w = none ∧ q' = q) ∨
      ∃ u p, q.waiter w = some u ∧ (q.pc u).unblocked = some p ∧
        q' = { q with waiter := update q.waiter w none, pc := update q.pc u p }) := by
  unfold signal at signalled
  split at signalled
  · cases signalled
  · rename_i quiet
    refine ⟨Bool.eq_false_iff.mpr quiet, ?_⟩
    split at signalled
    · rename_i u slot
      obtain ⟨q'', unblocked, returned⟩ := Control.bind_eq_ok signalled
      cases returned
      obtain ⟨p, moved, rfl⟩ := unblock_ok unblocked
      exact .inr ⟨u, p, slot, moved, rfl⟩
    · cases signalled
      exact .inl ⟨‹_›, rfl⟩

theorem acquire_ok (acquired : acquire q t call = .ok q') :
    (q.sema.value = 0 ∧
      q' = { q with
        sema := { q.sema with waiters := q.sema.waiters ++ [t] }
        pc := update q.pc t (.acquiring call false) }) ∨
    (q.sema.value ≠ 0 ∧ call.waiter.holds q = true ∧
      q' = { q with
        sema := { q.sema with value := q.sema.value - 1 }
        holder := some t
        waiter := update q.waiter call.waiter (some t)
        pc := update q.pc t (.waiting call false) }) := by
  unfold acquire Semaphore.down at acquired
  by_cases zero : q.sema.value = 0
  · simp only [if_pos zero] at acquired
    cases acquired
    exact .inl ⟨zero, rfl⟩
  · simp only [if_neg zero, wait] at acquired
    split at acquired
    · rename_i holds
      cases acquired
      exact .inr ⟨zero, by cases call <;> exact holds, rfl⟩
    · cases acquired

theorem lockRelease_ok (released : lockRelease q t = .ok q') :
    q.holder = some t ∧
      ((q.sema.waiters = [] ∧
        q' = { q with holder := none, sema := { q.sema with value := q.sema.value + 1 } }) ∨
      ∃ u rest p, q.sema.waiters = u :: rest ∧ (q.pc u).unblocked = some p ∧
        q' = { q with
          holder := none
          sema := { value := q.sema.value + 1, waiters := rest }
          pc := update q.pc u p }) := by
  unfold lockRelease Semaphore.up at released
  split at released
  · rename_i held
    refine ⟨held, ?_⟩
    cases waiters : q.sema.waiters with
    | nil =>
      simp only [waiters] at released
      cases released
      exact .inl ⟨rfl, by simp [waiters]⟩
    | cons u rest =>
      simp only [waiters] at released
      obtain ⟨p, moved, rfl⟩ := unblock_ok released
      exact .inr ⟨u, rest, p, rfl, moved, rfl⟩
  · cases released

theorem signal_frame (signalled : signal q w = .ok q') :
    q'.head = q.head ∧ q'.tail = q.tail ∧ q'.buf = q.buf ∧ q'.put = q.put ∧ q'.got = q.got ∧
      q'.waiter w = none ∧ ∀ w', w' ≠ w → q'.waiter w' = q.waiter w' := by
  obtain ⟨-, ⟨slot, rfl⟩ | ⟨u, p, -, -, rfl⟩⟩ := signal_ok signalled
  · exact ⟨rfl, rfl, rfl, rfl, rfl, slot, fun _ _ => rfl⟩
  · exact ⟨rfl, rfl, rfl, rfl, rfl, by simp, fun w' other => update_of_ne other _ _⟩

/-- `lock_release` touches neither the queue nor the slots. -/
theorem lockRelease_frame (released : lockRelease q t = .ok q') :
    q'.head = q.head ∧ q'.tail = q.tail ∧ q'.buf = q.buf ∧ q'.put = q.put ∧ q'.got = q.got ∧
      q'.waiter = q.waiter := by
  obtain ⟨-, ⟨-, rfl⟩ | ⟨u, rest, p, -, -, rfl⟩⟩ := lockRelease_ok released <;>
    exact ⟨rfl, rfl, rfl, rfl, rfl, rfl⟩

end Operations

section Invariant

variable {q q' : Intq} {t : Nat} {call : Call} {w : Waiter}

/-- The lock, its semaphore, the slots and the threads' places agree. -/
structure Locked (q : Intq) : Prop where
  value : q.sema.value = if q.holder = none then 1 else 0
  nodup : q.sema.waiters.Nodup
  queued : ∀ t, t ∈ q.sema.waiters ↔ (q.pc t).queued = true
  holding : ∀ t, q.holder = some t ↔ (q.pc t).holding = true
  recorded : ∀ w t, q.waiter w = some t ↔ (q.pc t).slot = some w

structure Inv (q : Intq) : Prop extends Locked q where
  headLt : q.head < intqBufsize
  tailLt : q.tail < intqBufsize
  fifo : q.got ++ q.contents = q.put
  waits : ∀ w t, q.waiter w = some t → w.holds q = true

theorem initial_intqInit (buf : Nat → UInt8) : Initial (intqInit buf) := ⟨buf, rfl⟩

theorem inv_intqInit (buf : Nat → UInt8) : Inv (intqInit buf) where
  value := rfl
  nodup := List.nodup_nil
  queued t := by simp [intqInit, Semaphore.init, Pc.queued]
  holding t := by simp [intqInit, Pc.holding]
  recorded w t := by simp [intqInit, Pc.slot]
  headLt := by simp [intqInit, intqBufsize]
  tailLt := by simp [intqInit, intqBufsize]
  fifo := rfl
  waits w t := by simp [intqInit]

theorem Pc.holding_of_slot {p : Pc} (slot : p.slot = some w) : p.holding = true := by
  cases p <;> simp_all [Pc.slot, Pc.holding]

theorem Locked.not_holder (locked : Locked q) (notHolding : (q.pc t).holding = false) :
    q.holder ≠ some t := fun held => by
  simp [(locked.holding t).mp held] at notHolding

theorem Locked.not_mem (locked : Locked q) (notQueued : (q.pc t).queued = false) :
    t ∉ q.sema.waiters := fun queued => by
  simp [(locked.queued t).mp queued] at notQueued

theorem Locked.waiter_ne (locked : Locked q) (notHolding : (q.pc t).holding = false) :
    q.waiter w ≠ some t := fun slot => by
  have holding := Pc.holding_of_slot ((locked.recorded w t).mp slot)
  rw [notHolding] at holding
  cases holding

theorem Locked.waiter_eq_none (locked : Locked q) (free : q.holder = none) (w : Waiter) :
    q.waiter w = none := by
  cases slot : q.waiter w with
  | none => rfl
  | some t =>
    have held := (locked.holding t).mpr (Pc.holding_of_slot ((locked.recorded w t).mp slot))
    rw [free] at held
    cases held

theorem Locked.holder_of_waiter (locked : Locked q) (slot : q.waiter w = some t) :
    q.holder = some t :=
  (locked.holding t).mpr (Pc.holding_of_slot ((locked.recorded w t).mp slot))

/-- `sema_down` finds the lock taken: the thread joins the semaphore's waiters. -/
theorem Locked.block (locked : Locked q) (notQueued : (q.pc t).queued = false)
    (notHolding : (q.pc t).holding = false) (call : Call) :
    Locked { q with
      sema := { q.sema with waiters := q.sema.waiters ++ [t] }
      pc := update q.pc t (.acquiring call false) } where
  value := locked.value
  nodup := List.nodup_append.mpr ⟨locked.nodup, List.pairwise_singleton _ t, fun u member v single => by
    rw [List.mem_singleton] at single
    rintro rfl
    exact locked.not_mem notQueued (single ▸ member)⟩
  queued u := by
    rcases eq_or_ne u t with rfl | other
    · simp [Pc.queued]
    · simpa [update_of_ne other, other] using locked.queued u
  holding u := by
    rcases eq_or_ne u t with rfl | other
    · simp [Pc.holding, locked.not_holder notHolding]
    · simpa [update_of_ne other] using locked.holding u
  recorded w u := by
    rcases eq_or_ne u t with rfl | other
    · simp [Pc.slot, locked.waiter_ne notHolding]
    · simpa [update_of_ne other] using locked.recorded w u

/-- `sema_down` finds the lock free: the thread takes it and waits in the slot of its call. -/
theorem Locked.take (locked : Locked q) (free : q.holder = none)
    (notQueued : (q.pc t).queued = false) (call : Call) :
    Locked { q with
      sema := { q.sema with value := q.sema.value - 1 }
      holder := some t
      waiter := update q.waiter call.waiter (some t)
      pc := update q.pc t (.waiting call false) } where
  value := by simp [locked.value, free]
  nodup := locked.nodup
  queued u := by
    rcases eq_or_ne u t with rfl | other
    · simp [Pc.queued, locked.not_mem notQueued]
    · simpa [update_of_ne other] using locked.queued u
  holding u := by
    rcases eq_or_ne u t with rfl | other
    · simp [Pc.holding]
    · have notHeld : (q.pc u).holding = false := by simpa [free] using locked.holding u
      simp [update_of_ne other, Ne.symm other, notHeld]
  recorded w u := by
    rcases eq_or_ne u t with rfl | other
    · by_cases same : call.waiter = w
      · simp [same, Pc.slot]
      · simp [update_of_ne (Ne.symm same), locked.waiter_eq_none free, Pc.slot, same]
    · have notHeld : (q.pc u).holding = false := by simpa [free] using locked.holding u
      simp [update_apply, other, Ne.symm other, locked.waiter_eq_none free, Pc.slot_eq_none notHeld]

theorem Locked.signal (locked : Locked q) (signalled : signal q w = .ok q') : Locked q' := by
  obtain ⟨-, ⟨-, rfl⟩ | ⟨u, p, slot, moved, rfl⟩⟩ := signal_ok signalled
  · exact locked
  have inSlot := (locked.recorded w u).mp slot
  -- the thread in the slot is blocked in `wait` and becomes ready there
  obtain ⟨call, waiting, rfl⟩ : ∃ call, q.pc u = .waiting call false ∧ p = .waiting call true := by
    rcases Pc.unblocked_eq_some moved with ⟨call, acquiring, -⟩ | found
    · simp [acquiring, Pc.slot] at inSlot
    · exact found
  have sameSlot : call.waiter = w := by simpa [waiting, Pc.slot] using inSlot
  refine ⟨locked.value, locked.nodup, fun v => ?_, fun v => ?_, fun w' v => ?_⟩
  · rcases eq_or_ne v u with rfl | other
    · simp [Pc.queued, (locked.queued v).not.mpr (by simp [waiting, Pc.queued])]
    · simpa [update_of_ne other] using locked.queued v
  · rcases eq_or_ne v u with rfl | other
    · simp [Pc.holding, locked.holder_of_waiter slot]
    · simpa [update_of_ne other] using locked.holding v
  · by_cases same : w' = w
    · subst same
      rcases eq_or_ne v u with rfl | other
      · simp [Pc.slot]
      · simp [update_of_ne other, ← locked.recorded, slot, Ne.symm other]
    · rcases eq_or_ne v u with rfl | other
      · simp [update_of_ne same, Pc.slot, locked.recorded, waiting, sameSlot, Ne.symm same]
      · simpa [update_of_ne same, update_of_ne other] using locked.recorded w' v

/-- `lock_release` by the holder, which has left `wait`: the lock is free and the first thread
blocked on it, if any, is ready. -/
theorem Locked.release (locked : Locked q) (woken : q.pc t = .waiting call true)
    (released : lockRelease { q with pc := update q.pc t .idle } t = .ok q') :
    Locked q' ∧ q'.pc t = .idle := by
  have held : q.holder = some t := (locked.holding t).mpr (by simp [woken, Pc.holding])
  have taken : q.sema.value = 0 := by simp [locked.value, held]
  -- no thread is blocked in `wait`: the holder is the only one that could be, and it is ready
  have slotsFree : ∀ w v, q.waiter w ≠ some v := fun w v slot => by
    have same : v = t := Option.some.inj ((locked.holder_of_waiter slot).symm.trans held)
    subst same
    have slotOf := (locked.recorded w v).mp slot
    rw [woken] at slotOf
    simp [Pc.slot] at slotOf
  have others : ∀ v, v ≠ t → (q.pc v).holding = false := fun v other => by
    simpa [held, Ne.symm other] using (locked.holding v).not.mp
  have notQueued : t ∉ q.sema.waiters := locked.not_mem (by simp [woken, Pc.queued])
  obtain ⟨-, ⟨empty, rfl⟩ | ⟨u, rest, p, front, moved, rfl⟩⟩ := lockRelease_ok released
  · dsimp only at empty
    refine ⟨⟨by simp [taken], by simpa using locked.nodup, fun v => ?_, fun v => ?_, fun w v => ?_⟩,
      by simp⟩
    · rcases eq_or_ne v t with rfl | other
      · simp [Pc.queued, empty]
      · simpa [update_of_ne other, empty] using locked.queued v
    · rcases eq_or_ne v t with rfl | other
      · simp [Pc.holding]
      · simp [update_of_ne other, others v other]
    · rcases eq_or_ne v t with rfl | other
      · simp [Pc.slot, slotsFree]
      · simpa [update_of_ne other, slotsFree] using (locked.recorded w v).symm
  · dsimp only at front moved
    have queuedU : (q.pc u).queued = true := (locked.queued u).mp (by simp [front])
    have otherU : u ≠ t := fun same => by simp [same, woken, Pc.queued] at queuedU
    -- the thread woken from the semaphore becomes ready in `sema_down`
    obtain ⟨call', acquiring, rfl⟩ : ∃ call', q.pc u = .acquiring call' false ∧
        p = .acquiring call' true := by
      rw [update_of_ne otherU] at moved
      rcases Pc.unblocked_eq_some moved with found | ⟨call', waiting, -⟩
      · exact found
      · simp [waiting, Pc.queued] at queuedU
    have nodup : (u :: rest).Nodup := front ▸ locked.nodup
    refine ⟨⟨by simp [taken], (List.nodup_cons.mp nodup).2, fun v => ?_, fun v => ?_, fun w v => ?_⟩,
      by simp [update_of_ne (Ne.symm otherU)]⟩
    · rcases eq_or_ne v u with rfl | otherV
      · simp [Pc.queued, (List.nodup_cons.mp nodup).1]
      rcases eq_or_ne v t with rfl | other
      · simp [update_of_ne otherV, Pc.queued]
        exact fun member => notQueued (front ▸ List.mem_cons_of_mem _ member)
      · simpa [update_of_ne otherV, update_of_ne other, front, otherV] using locked.queued v
    · rcases eq_or_ne v u with rfl | otherV
      · simp [Pc.holding]
      rcases eq_or_ne v t with rfl | other
      · simp [update_of_ne otherV, Pc.holding]
      · simp [update_of_ne otherV, update_of_ne other, others v other]
    · rcases eq_or_ne v u with rfl | otherV
      · simp [Pc.slot, slotsFree]
      rcases eq_or_ne v t with rfl | other
      · simp [update_of_ne otherV, Pc.slot, slotsFree]
      · simpa [update_of_ne otherV, update_of_ne other, slotsFree] using (locked.recorded w v).symm

theorem Locked.congr (locked : Locked q) (holder : q'.holder = q.holder) (sema : q'.sema = q.sema)
    (waiter : q'.waiter = q.waiter) (pc : q'.pc = q.pc) : Locked q' := by
  obtain ⟨value, nodup, queued, holding, recorded⟩ := locked
  refine ⟨?_, ?_, ?_, ?_, ?_⟩
  · rw [holder, sema]; exact value
  · rw [sema]; exact nodup
  · rw [sema, pc]; exact queued
  · rw [holder, pc]; exact holding
  · rw [waiter, pc]; exact recorded

/-- A step that moves threads and the lock, and at most takes threads out of slots, keeps the
invariant. -/
theorem Inv.of_locked (inv : Inv q) (locked : Locked q') (head : q'.head = q.head)
    (tail : q'.tail = q.tail) (buf : q'.buf = q.buf) (put : q'.put = q.put) (got : q'.got = q.got)
    (waiter : ∀ w t, q'.waiter w = some t → q.waiter w = some t) : Inv q' where
  toLocked := locked
  headLt := head ▸ inv.headLt
  tailLt := tail ▸ inv.tailLt
  fifo := by rw [contents, head, tail, buf, put, got]; exact inv.fifo
  waits w t slot := by rw [Waiter.holds_congr head tail]; exact inv.waits w t (waiter w t slot)

theorem Inv.acquire (inv : Inv q) (notQueued : (q.pc t).queued = false)
    (notHolding : (q.pc t).holding = false) (acquired : acquire q t call = .ok q') : Inv q' := by
  obtain ⟨-, rfl⟩ | ⟨taken, holds, rfl⟩ := acquire_ok acquired
  · exact inv.of_locked (inv.block notQueued notHolding call) rfl rfl rfl rfl rfl fun _ _ => id
  have free : q.holder = none := by
    by_contra held
    simp [inv.value, held] at taken
  refine ⟨inv.take free notQueued call, inv.headLt, inv.tailLt, inv.fifo, fun w u slot => ?_⟩
  -- the only thread in a slot is the one that has just waited there, on a condition that holds
  by_cases same : w = call.waiter
  · subst same
    cases call <;> exact holds
  · simp [update_of_ne same, inv.waiter_eq_none free] at slot

theorem Inv.waiter_eq_none (inv : Inv q) (quiet : w.holds q = false) : q.waiter w = none := by
  cases slot : q.waiter w with
  | none => rfl
  | some u => exact absurd (inv.waits w u slot) (Bool.eq_false_iff.mp quiet)

/-- After a `getc` or a `putc` both slots are empty: the one it signals is emptied, and the
other waits on a condition that the call found false. -/
theorem Inv.finish (inv : Inv q) (enabled : call.waiter.holds q = false)
    (finished : finish q call = .ok q') : Inv q' ∧ ∀ w, q'.waiter w = none := by
  cases call with
  | getc =>
    have nonempty : q.head ≠ q.tail := by simpa [Call.waiter, Waiter.holds, intqEmpty] using enabled
    obtain ⟨head, tail, buf, put, got, signalled, others⟩ := signal_frame finished
    have emptied : ∀ w, q'.waiter w = none := by
      intro w
      cases w with
      | notFull => exact signalled
      | notEmpty => rw [others .notEmpty (by decide)]; exact inv.waiter_eq_none enabled
    have locked : Locked { q with tail := next q.tail, got := q.got ++ [q.buf q.tail] } :=
      inv.toLocked.congr rfl rfl rfl rfl
    refine ⟨⟨locked.signal finished, ?_, ?_, ?_, fun w u slot => by simp [emptied] at slot⟩, emptied⟩
    · rw [head]; exact inv.headLt
    · rw [tail]; exact next_lt _
    · rw [contents, head, tail, buf, put, got, ← inv.fifo, contents,
        window_pop q.buf inv.tailLt inv.headLt nonempty]
      simp [next]
  | putc byte =>
    have notFull : next q.head ≠ q.tail := by simpa [Call.waiter, Waiter.holds, intqFull] using enabled
    have room : count intqBufsize q.tail q.head + 1 < intqBufsize := by
      have below := count_lt inv.tailLt inv.headLt
      have notAll := (next_eq_tail_iff inv.tailLt inv.headLt).not.mp notFull
      omega
    obtain ⟨head, tail, buf, put, got, signalled, others⟩ := signal_frame finished
    have emptied : ∀ w, q'.waiter w = none := by
      intro w
      cases w with
      | notEmpty => exact signalled
      | notFull => rw [others .notFull (by decide)]; exact inv.waiter_eq_none enabled
    have locked : Locked
        { q with buf := update q.buf q.head byte, head := next q.head, put := q.put ++ [byte] } :=
      inv.toLocked.congr rfl rfl rfl rfl
    refine ⟨⟨locked.signal finished, ?_, ?_, ?_, fun w u slot => by simp [emptied] at slot⟩, emptied⟩
    · rw [head]; exact next_lt _
    · rw [tail]; exact inv.tailLt
    · rw [contents, head, tail, buf, put, got, next, window_push q.buf inv.tailLt inv.headLt room,
        ← List.append_assoc, ← contents, inv.fifo]

theorem Inv.loop (inv : Inv q) (idle : q.pc t = .idle) (looped : loop q t call = .ok q') :
    Inv q' := by
  unfold Intq.loop lockAcquire at looped
  split at looped
  · split at looped
    · cases looped
    · exact inv.acquire (by simp [idle, Pc.queued]) (by simp [idle, Pc.holding]) looped
  · rename_i enabled
    exact (inv.finish (Bool.eq_false_iff.mpr enabled) looped).1

theorem Inv.release (inv : Inv q) (woken : q.pc t = .waiting call true)
    (released : lockRelease { q with pc := update q.pc t .idle } t = .ok q') :
    Inv q' ∧ q'.pc t = .idle := by
  obtain ⟨locked, idle⟩ := inv.toLocked.release woken released
  obtain ⟨head, tail, buf, put, got, waiter⟩ := lockRelease_frame released
  exact ⟨inv.of_locked locked head tail buf put got fun w u slot => waiter ▸ slot, idle⟩

variable {a : Action}

theorem Inv.step (inv : Inv q) (moved : step q a = .ok q') : Inv q' := by
  cases a with
  | call t call =>
    rw [Intq.step] at moved
    split at moved
    · exact inv.loop ‹_› moved
    · cases moved
      exact inv
  | run t =>
    rw [Intq.step] at moved
    split at moved
    · rename_i call acquiring
      exact inv.acquire (by simp [acquiring, Pc.queued]) (by simp [acquiring, Pc.holding]) moved
    · rename_i call waiting
      obtain ⟨released, releasedOk, looped⟩ := Control.bind_eq_ok moved
      obtain ⟨inv', idle⟩ := inv.release waiting releasedOk
      exact inv'.loop idle looped
    · cases moved
      exact inv
  | interrupt call =>
    rw [Intq.step] at moved
    split at moved
    · cases moved
    · rename_i enabled
      exact (inv.finish (Bool.eq_false_iff.mpr enabled) moved).1

theorem Reachable.inv (reached : Reachable q) : Inv q :=
  Transition.Reachable.invariant (fun _ ⟨buf, initial⟩ => initial ▸ inv_intqInit buf)
    (fun _ _ _ inv moved => inv.step moved) reached

end Invariant

section Wakeup

variable {q q' : Intq} {t : Nat} {call : Call} {w : Waiter} {a : Action}

end Wakeup

/-- Two readers: the second, made ready by `lock_release` after the first has taken one of two
bytes, takes the lock and calls `wait` on a queue that is not empty, and `wait`'s assertion
fails. -/
theorem second_reader_fails_wait :
    ∃ q, Reachable q ∧ q.pc 2 = .acquiring .getc true ∧ q.contents.length = 1 ∧
      step q (.run 2) = .error
        "assertion (waiter == &q->not_empty && intq_empty (q)) || (waiter == &q->not_full && intq_full (q)) failed" := by
  have fails : Transition.runSatisfies step (intqInit fun _ => 0)
      [.call 1 .getc, .call 2 .getc, .interrupt (.putc 65), .interrupt (.putc 66), .run 1]
      (fun q => q.pc 2 == .acquiring .getc true && q.contents.length == 1 &&
        Transition.stopsWith (step q (.run 2))
          "assertion (waiter == &q->not_empty && intq_empty (q)) || (waiter == &q->not_full && intq_full (q)) failed") = true := by
    decide
  obtain ⟨q, reached, holds⟩ := Transition.Reachable.of_runSatisfies (initial_intqInit _) fails
  simp only [Bool.and_eq_true, beq_iff_eq] at holds
  obtain ⟨⟨ready, one⟩, stopped⟩ := holds
  exact ⟨q, reached, ready, one, Transition.eq_error_of_stopsWith stopped⟩

end Pintos.Intq

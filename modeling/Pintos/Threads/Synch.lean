import Mathlib

/-!
# Semaphores

`struct semaphore` of `threads/synch.c`: a value and the threads waiting, front
first.  `sema_down` tests the value in a loop: a thread that finds it zero
joins the waiters and blocks, and tests again once `sema_up` has woken it; a
thread that finds it positive takes one.  `sema_up` wakes the first waiter and
adds one.
-/

namespace Pintos

structure Semaphore where
  value : Nat
  waiters : List Nat
  deriving DecidableEq, Repr

namespace Semaphore

def init (value : Nat) : Semaphore := { value, waiters := [] }

/-- One test of the loop of `sema_down` by thread `t`: `true` when it took one,
`false` when it joined the waiters to block. -/
def down (sema : Semaphore) (t : Nat) : Semaphore × Bool :=
  if sema.value = 0 then ({ sema with waiters := sema.waiters ++ [t] }, false)
  else ({ sema with value := sema.value - 1 }, true)

/-- `sema_up`: the waiter it wakes, if any. -/
def up (sema : Semaphore) : Semaphore × Option Nat :=
  match sema.waiters with
  | [] => ({ sema with value := sema.value + 1 }, none)
  | t :: rest => ({ value := sema.value + 1, waiters := rest }, some t)

theorem down_takes_iff (sema : Semaphore) (t : Nat) : (sema.down t).2 = true ↔ 0 < sema.value := by
  unfold down
  split <;> simp [*, Nat.pos_iff_ne_zero]

@[simp]
theorem value_down (sema : Semaphore) (t : Nat) : (sema.down t).1.value = sema.value - 1 := by
  unfold down
  split <;> simp [*]

@[simp]
theorem value_up (sema : Semaphore) : sema.up.1.value = sema.value + 1 := by
  unfold up
  split <;> rfl

end Semaphore

end Pintos

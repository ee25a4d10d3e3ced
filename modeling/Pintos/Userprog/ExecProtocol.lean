import Mathlib
import Pintos.Userprog.Lifecycle

/-!
# The exec handshake, abstractly

What `process_execute` and `start_process` do with the parent's `exec_sema`,
seen through each thread's parent, place in the code and semaphore value
(`ExecView`).  A thread moves on its own (`ExecMove`); `thread_create` adds a
starting child; the child's `sema_up` adds one to its parent's semaphore and
ends its start; the page of a dead thread goes away.

`ExecCount` is the count these steps keep: a thread waiting in
`process_execute` for the child it created has either that child still
starting or a semaphore of 1; every other thread has a semaphore of 0 and no
starting child.  So a `process_execute` whose `thread_create` failed has
nothing to wait for and never gets past its `sema_down`
(`ExecStep.keeps_failedExec`).
-/

namespace Pintos

open Function

/-- Code of `process_execute` after `thread_create`, and of `start_process`
before its report. -/
def Pc.inHandshake : Pc → Bool
  | .execCreated _ | .execDown _ | .execCheck _ | .startLoad | .startFlag _ | .startUp _ => true
  | _ => false

/-- Code of `start_process` before its `sema_up (&parent->exec_sema)`. -/
def Pc.starting : Pc → Bool
  | .startLoad | .startFlag _ | .startUp _ => true
  | _ => false

/-- Code of `process_execute` after a `thread_create` that made a thread, up to
the return of its `sema_down`. -/
def Pc.awaitsChild : Pc → Bool
  | .execCreated tid | .execDown tid => tid != -1
  | _ => false

/-- Code of a `process_execute` whose `thread_create` returned `TID_ERROR`, up
to the return of its `sema_down`. -/
def Pc.failedExec : Pc → Bool
  | .execCreated tid | .execDown tid => tid == -1
  | _ => false

namespace Pc

theorem starting_eq_false_of_inHandshake {pc : Pc} (outside : pc.inHandshake = false) :
    pc.starting = false := by
  cases pc <;> simp_all [inHandshake, starting]

theorem awaitsChild_eq_false_of_inHandshake {pc : Pc} (outside : pc.inHandshake = false) :
    pc.awaitsChild = false := by
  cases pc <;> simp_all [inHandshake, awaitsChild]

theorem starting_eq_false_of_awaitsChild {pc : Pc} (awaits : pc.awaitsChild = true) :
    pc.starting = false := by
  cases pc <;> simp_all [awaitsChild, starting]

theorem awaitsChild_eq_false_of_failedExec {pc : Pc} (failed : pc.failedExec = true) :
    pc.awaitsChild = false := by
  cases pc <;> simp_all [failedExec, awaitsChild]

theorem inHandshake_of_failedExec {pc : Pc} (failed : pc.failedExec = true) :
    pc.inHandshake = true := by
  cases pc <;> simp_all [failedExec, inHandshake]

end Pc

/-- What the handshake reads of a thread: its `parent`, where its code is, and
the value of its `exec_sema`. -/
structure ExecView where
  parent : Option Nat
  pc : Pc
  execValue : Nat
  deriving DecidableEq, Repr

/-- The semaphore value the thread's place in the code calls for, given
whether a child of the thread is starting. -/
def ExecView.Balanced (v : ExecView) (starting : Prop) : Prop :=
  if v.pc.awaitsChild then (v.execValue = 1 ∧ ¬ starting) ∨ (v.execValue = 0 ∧ starting)
  else v.execValue = 0 ∧ ¬ starting

namespace ExecView

variable {v : ExecView} {starting starting' : Prop}

theorem balanced_iff_of_not_awaits (idle : v.pc.awaitsChild = false) :
    v.Balanced starting ↔ v.execValue = 0 ∧ ¬ starting := by
  simp [Balanced, idle]

theorem balanced_iff_of_awaits (awaits : v.pc.awaitsChild = true) :
    v.Balanced starting ↔
      (v.execValue = 1 ∧ ¬ starting) ∨ (v.execValue = 0 ∧ starting) := by
  simp [Balanced, awaits]

theorem Balanced.congr (balanced : v.Balanced starting) (same : starting ↔ starting') :
    v.Balanced starting' := by
  rwa [← propext same]

theorem Balanced.of_idle {v' : ExecView} (balanced : v.Balanced starting)
    (before : v.pc.awaitsChild = false) (after : v'.pc.awaitsChild = false)
    (same : v'.execValue = v.execValue) : v'.Balanced starting := by
  rw [balanced_iff_of_not_awaits before] at balanced
  rw [balanced_iff_of_not_awaits after, same]
  exact balanced

theorem Balanced.execValue_le_one (balanced : v.Balanced starting) : v.execValue ≤ 1 := by
  unfold Balanced at balanced
  split at balanced <;> omega

end ExecView

/-- The moves of a thread that change its own view only. -/
inductive ExecMove : ExecView → ExecView → Prop
  /-- `thread_create` returns `TID_ERROR`. -/
  | createFailed {v} : v.pc = .user → ExecMove v { v with pc := .execCreated (-1) }
  /-- `childExecSuccess = false`, before the `sema_down`. -/
  | resetFlag {v tid} : v.pc = .execCreated tid → ExecMove v { v with pc := .execDown tid }
  /-- The `sema_down` takes one. -/
  | down {v tid} : v.pc = .execDown tid → 0 < v.execValue →
      ExecMove v { v with pc := .execCheck tid, execValue := v.execValue - 1 }
  /-- `process_execute` returns. -/
  | check {v tid} : v.pc = .execCheck tid → ExecMove v { v with pc := .user }
  | load {v success} : v.pc = .startLoad → ExecMove v { v with pc := .startFlag success }
  /-- `parent->childExecSuccess = success`. -/
  | setFlag {v success} : v.pc = .startFlag success →
      ExecMove v { v with pc := .startUp success }
  /-- Code away from the handshake: `process_wait`, `exit_h`, `thread_exit`. -/
  | outside {v pc} : v.pc.inHandshake = false → pc.inHandshake = false →
      ExecMove v { v with pc }

namespace ExecMove

variable {v v' : ExecView}

theorem parent_eq (moved : ExecMove v v') : v'.parent = v.parent := by
  cases moved <;> rfl

theorem starting_eq (moved : ExecMove v v') : v'.pc.starting = v.pc.starting := by
  cases moved with
  | outside before after =>
      rw [Pc.starting_eq_false_of_inHandshake before, Pc.starting_eq_false_of_inHandshake after]
  | _ => simp_all [Pc.starting]

theorem balanced {starting : Prop} (moved : ExecMove v v') (balanced : v.Balanced starting) :
    v'.Balanced starting := by
  cases moved with
  | createFailed user =>
      exact balanced.of_idle (by simp [user, Pc.awaitsChild]) (by simp [Pc.awaitsChild]) rfl
  | resetFlag created => simpa [ExecView.Balanced, created, Pc.awaitsChild] using balanced
  | down down positive =>
      -- the `sema_down` can only take the one unit the child's report put there
      have took : v.execValue = 1 ∧ ¬ starting := by
        unfold ExecView.Balanced at balanced
        split at balanced
        · rcases balanced with taken | ⟨empty, _⟩
          · exact taken
          · omega
        · have empty := balanced.1
          omega
      rw [ExecView.balanced_iff_of_not_awaits (by simp [Pc.awaitsChild])]
      exact ⟨by simp [took.1], took.2⟩
  | check checking =>
      exact balanced.of_idle (by simp [checking, Pc.awaitsChild]) (by simp [Pc.awaitsChild]) rfl
  | load loading =>
      exact balanced.of_idle (by simp [loading, Pc.awaitsChild]) (by simp [Pc.awaitsChild]) rfl
  | setFlag flagging =>
      exact balanced.of_idle (by simp [flagging, Pc.awaitsChild]) (by simp [Pc.awaitsChild]) rfl
  | outside before after =>
      exact balanced.of_idle (Pc.awaitsChild_eq_false_of_inHandshake before)
        (Pc.awaitsChild_eq_false_of_inHandshake after) rfl

end ExecMove

/-! ## Steps over all threads -/

/-- Thread `c` is a child of `p` in `start_process`, before its report. -/
def Starting (V : Nat → Option ExecView) (p c : Nat) : Prop :=
  ∃ v, V c = some v ∧ v.parent = some p ∧ v.pc.starting = true

/-- The steps of the handshake over the views of all threads. -/
inductive ExecStep : (Nat → Option ExecView) → (Nat → Option ExecView) → Prop
  | stutter {V} : ExecStep V V
  | move {V t v v'} : V t = some v → ExecMove v v' → ExecStep V (update V t (some v'))
  /-- `thread_create` by `p` makes the starting thread `n` and returns `tid`. -/
  | spawn {V p v n tid} : V p = some v → v.pc = .user → V n = none → tid ≠ -1 →
      ExecStep V (update (update V n (some ⟨some p, .startLoad, 0⟩)) p
        (some { v with pc := .execCreated tid }))
  /-- `sema_up (&parent->exec_sema)` by the child `c` of `p`. -/
  | up {V c cv p pv success} : V c = some cv → cv.parent = some p →
      cv.pc = .startUp success → V p = some pv →
      ExecStep V (update (update V p (some { pv with execValue := pv.execValue + 1 })) c
        (some { cv with pc := if success then .user else .loadFailed }))
  /-- The page of a dead thread is freed. -/
  | free {V t v} : V t = some v → v.pc = .exiting → ExecStep V (update V t none)

/-- The count of the handshake, with what keeps it exact: a thread has at most
one child starting, and that child's parent is alive. -/
structure ExecCount (V : Nat → Option ExecView) : Prop where
  oneStarting : ∀ p c c', Starting V p c → Starting V p c' → c = c'
  parentAlive : ∀ p c, Starting V p c → (V p).isSome
  balanced : ∀ p v, V p = some v → v.Balanced (∃ c, Starting V p c)

variable {V : Nat → Option ExecView}

theorem Starting.parent_eq {p q c : Nat} (first : Starting V p c) (second : Starting V q c) :
    p = q := by
  obtain ⟨v, found, parent, _⟩ := first
  obtain ⟨v', found', parent', _⟩ := second
  rw [found, Option.some.injEq] at found'
  subst found'
  simpa [parent] using parent'

theorem starting_update_of_ne {t c : Nat} (other : c ≠ t) (w : Option ExecView) (p : Nat) :
    Starting (update V t w) p c ↔ Starting V p c := by
  simp only [Starting, update_of_ne other]

theorem starting_update_self (t : Nat) (w : Option ExecView) (p : Nat) :
    Starting (update V t w) p t ↔
      ∃ v, w = some v ∧ v.parent = some p ∧ v.pc.starting = true := by
  simp only [Starting, update_self]

theorem isSome_update_some {t q : Nat} {w : ExecView} (alive : (V q).isSome) :
    (update V t (some w) q).isSome := by
  by_cases same : q = t
  · subst same
    simp
  · rwa [update_of_ne same]

namespace ExecCount

theorem parent_awaits (count : ExecCount V) {p c : Nat} (started : Starting V p c) :
    ∃ pv, V p = some pv ∧ pv.pc.awaitsChild = true ∧ pv.execValue = 0 := by
  obtain ⟨pv, found⟩ := Option.isSome_iff_exists.mp (count.parentAlive p c started)
  have balanced := count.balanced p pv found
  unfold ExecView.Balanced at balanced
  split at balanced
  · rename_i awaits
    rcases balanced with ⟨_, none⟩ | ⟨empty, _⟩
    · exact absurd ⟨c, started⟩ none
    · exact ⟨pv, found, awaits, empty⟩
  · rename_i idle
    exact absurd ⟨c, started⟩ balanced.2

/-- A thread that does not wait for a child has no starting child and a
semaphore of 0. -/
theorem idle (count : ExecCount V) {p : Nat} {v : ExecView} (found : V p = some v)
    (idle : v.pc.awaitsChild = false) : v.execValue = 0 ∧ ¬ ∃ c, Starting V p c :=
  (ExecView.balanced_iff_of_not_awaits idle).mp (count.balanced p v found)

theorem ne_of_starting (count : ExecCount V) {p c : Nat} (started : Starting V p c) : p ≠ c := by
  rintro rfl
  obtain ⟨pv, found, awaits, _⟩ := count.parent_awaits started
  obtain ⟨cv, found', _, starting⟩ := started
  rw [found, Option.some.injEq] at found'
  subst found'
  rw [Pc.starting_eq_false_of_awaitsChild awaits] at starting
  cases starting

theorem execValue_le_one (count : ExecCount V) {p : Nat} {v : ExecView} (found : V p = some v) :
    v.execValue ≤ 1 :=
  (count.balanced p v found).execValue_le_one

theorem move (count : ExecCount V) {t : Nat} {v v' : ExecView} (found : V t = some v)
    (moved : ExecMove v v') : ExecCount (update V t (some v')) := by
  -- the move keeps the thread's parent and whether it is starting, so every
  -- start stays as it was
  have same : ∀ p c, Starting (update V t (some v')) p c ↔ Starting V p c := by
    intro p c
    by_cases here : c = t
    · subst here
      rw [starting_update_self]
      simp [Starting, found, moved.parent_eq, moved.starting_eq]
    · exact starting_update_of_ne here _ p
  refine ⟨?_, ?_, ?_⟩
  · intro p c c' first second
    exact count.oneStarting p c c' ((same p c).mp first) ((same p c').mp second)
  · intro p c started
    exact isSome_update_some (count.parentAlive p c ((same p c).mp started))
  · intro p w found'
    have sameChildren : (∃ c, Starting V p c) ↔ ∃ c, Starting (update V t (some v')) p c :=
      exists_congr fun c => (same p c).symm
    by_cases here : p = t
    · subst here
      rw [update_self, Option.some.injEq] at found'
      subst found'
      exact (moved.balanced (count.balanced p v found)).congr sameChildren
    · rw [update_of_ne here] at found'
      exact (count.balanced p w found').congr sameChildren

/-- `thread_create` keeps the count: the parent now waits for the one child it
made, and the child has no children. -/
theorem spawn (count : ExecCount V) {p n : Nat} {v : ExecView} {tid : Int}
    (found : V p = some v) (user : v.pc = .user) (fresh : V n = none) (made : tid ≠ -1) :
    ExecCount (update (update V n (some ⟨some p, .startLoad, 0⟩)) p
      (some { v with pc := .execCreated tid })) := by
  have apart : p ≠ n := by
    rintro rfl
    rw [found] at fresh
    cases fresh
  obtain ⟨empty, noChild⟩ := count.idle found (by simp [user, Pc.awaitsChild])
  have parentOf : ∀ q c, Starting V q c → q ≠ n := by
    intro q c started same
    have alive := count.parentAlive q c started
    rw [same, fresh] at alive
    cases alive
  -- the new starts: those of before, and `n` for `p`
  have starts : ∀ q c, Starting (update (update V n (some ⟨some p, .startLoad, 0⟩)) p
      (some { v with pc := .execCreated tid })) q c ↔ Starting V q c ∨ (q = p ∧ c = n) := by
    intro q c
    by_cases atParent : c = p
    · rw [atParent, starting_update_self]
      constructor
      · rintro ⟨w, found', _, starting⟩
        rw [Option.some.injEq] at found'
        subst found'
        simp [Pc.starting] at starting
      · rintro (⟨w, found', _, starting⟩ | ⟨_, same⟩)
        · rw [found, Option.some.injEq] at found'
          subst found'
          rw [user] at starting
          cases starting
        · exact absurd same apart
    · rw [starting_update_of_ne atParent]
      by_cases atChild : c = n
      · have notOld : ¬ Starting V q n := fun ⟨w, found', _⟩ => by
          rw [fresh] at found'
          cases found'
        rw [atChild, starting_update_self]
        simp only [Option.some.injEq, exists_eq_left', Pc.starting, and_true, notOld,
          false_or]
        exact eq_comm
      · rw [starting_update_of_ne atChild]
        simp [atChild]
  refine ⟨?_, ?_, ?_⟩
  · intro q c c' first second
    rcases (starts q c).mp first with old | ⟨rfl, rfl⟩ <;>
      rcases (starts q c').mp second with old' | ⟨same, rfl⟩
    · exact count.oneStarting q c c' old old'
    · exact absurd ⟨c, old⟩ (same ▸ noChild)
    · exact absurd ⟨c', old'⟩ noChild
    · rfl
  · intro q c started
    rcases (starts q c).mp started with old | ⟨rfl, _⟩
    · exact isSome_update_some (isSome_update_some (count.parentAlive q c old))
    · simp
  · intro q w found'
    by_cases atParent : q = p
    · subst atParent
      rw [update_self, Option.some.injEq] at found'
      subst found'
      rw [ExecView.balanced_iff_of_awaits (by simpa [Pc.awaitsChild] using made)]
      exact .inr ⟨empty, n, (starts q n).mpr (.inr ⟨rfl, rfl⟩)⟩
    · rw [update_of_ne atParent] at found'
      by_cases atChild : q = n
      · subst atChild
        rw [update_self, Option.some.injEq] at found'
        subst found'
        rw [ExecView.balanced_iff_of_not_awaits (by simp [Pc.awaitsChild])]
        refine ⟨rfl, ?_⟩
        rintro ⟨c, started⟩
        rcases (starts q c).mp started with old | ⟨same, _⟩
        · exact parentOf q c old rfl
        · exact atParent same
      · rw [update_of_ne atChild] at found'
        refine (count.balanced q w found').congr (exists_congr fun c => ?_)
        rw [starts q c]
        simp [atParent]

/-- The child's `sema_up` keeps the count: its start ends and its parent's
semaphore goes from 0 to 1. -/
theorem up (count : ExecCount V) {c p : Nat} {cv pv : ExecView} {success : Bool}
    (child : V c = some cv) (parentOf : cv.parent = some p) (reporting : cv.pc = .startUp success)
    (parentFound : V p = some pv) :
    ExecCount (update (update V p (some { pv with execValue := pv.execValue + 1 })) c
      (some { cv with pc := if success then .user else .loadFailed })) := by
  have started : Starting V p c := ⟨cv, child, parentOf, by simp [reporting, Pc.starting]⟩
  have apart := count.ne_of_starting started
  obtain ⟨pv', parentFound', awaits, empty⟩ := count.parent_awaits started
  rw [parentFound, Option.some.injEq] at parentFound'
  subst parentFound'
  -- the starts are those of before but `c`'s
  have starts : ∀ q d,
      Starting (update (update V p (some { pv with execValue := pv.execValue + 1 })) c
        (some { cv with pc := if success then .user else .loadFailed })) q d ↔
      Starting V q d ∧ d ≠ c := by
    intro q d
    by_cases atChild : d = c
    · subst atChild
      rw [starting_update_self]
      split <;> simp [Pc.starting]
    · rw [starting_update_of_ne atChild]
      by_cases atParent : d = p
      · subst atParent
        rw [starting_update_self]
        simp [Starting, parentFound, atChild]
      · rw [starting_update_of_ne atParent]
        simp [atChild]
  refine ⟨?_, ?_, ?_⟩
  · intro q d d' first second
    exact count.oneStarting q d d' ((starts q d).mp first).1 ((starts q d').mp second).1
  · intro q d started'
    have alive := count.parentAlive q d ((starts q d).mp started').1
    exact isSome_update_some (isSome_update_some alive)
  · intro q w found'
    by_cases atChild : q = c
    · subst atChild
      rw [update_self, Option.some.injEq] at found'
      subst found'
      obtain ⟨childEmpty, noChild⟩ := count.idle child (by simp [reporting, Pc.awaitsChild])
      rw [ExecView.balanced_iff_of_not_awaits (by split <;> simp [Pc.awaitsChild])]
      exact ⟨childEmpty, fun ⟨d, started'⟩ => noChild ⟨d, ((starts q d).mp started').1⟩⟩
    · rw [update_of_ne atChild] at found'
      by_cases atParent : q = p
      · subst atParent
        rw [update_self, Option.some.injEq] at found'
        subst found'
        -- `c` was the one starting child, so none is left
        rw [ExecView.balanced_iff_of_awaits
          (show ({ pv with execValue := pv.execValue + 1 } : ExecView).pc.awaitsChild = true
            from awaits)]
        refine .inl ⟨by simp [empty], ?_⟩
        rintro ⟨d, started'⟩
        obtain ⟨old, other⟩ := (starts q d).mp started'
        exact other (count.oneStarting q d c old started)
      · rw [update_of_ne atParent] at found'
        refine (count.balanced q w found').congr (exists_congr fun d => ?_)
        rw [starts q d]
        constructor
        · intro old
          refine ⟨old, ?_⟩
          rintro rfl
          exact atParent (old.parent_eq started)
        · exact fun started' => started'.1

theorem free (count : ExecCount V) {t : Nat} {v : ExecView} (found : V t = some v)
    (exiting : v.pc = .exiting) : ExecCount (update V t none) := by
  obtain ⟨_, noChild⟩ := count.idle found (by simp [exiting, Pc.awaitsChild])
  have same : ∀ p c, Starting (update V t none) p c ↔ Starting V p c := by
    intro p c
    by_cases here : c = t
    · subst here
      rw [starting_update_self]
      simp [Starting, found, exiting, Pc.starting]
    · exact starting_update_of_ne here _ p
  refine ⟨?_, ?_, ?_⟩
  · intro p c c' first second
    exact count.oneStarting p c c' ((same p c).mp first) ((same p c').mp second)
  · intro p c started
    have old := (same p c).mp started
    have other : p ≠ t := by
      rintro rfl
      exact noChild ⟨c, old⟩
    rw [update_of_ne other]
    exact count.parentAlive p c old
  · intro p w found'
    by_cases here : p = t
    · subst here
      simp at found'
    · rw [update_of_ne here] at found'
      exact (count.balanced p w found').congr (exists_congr fun c => (same p c).symm)

end ExecCount

theorem ExecStep.preserves {V' : Nat → Option ExecView} (stepped : ExecStep V V')
    (count : ExecCount V) : ExecCount V' := by
  cases stepped with
  | stutter => exact count
  | move found moved => exact count.move found moved
  | spawn found user fresh made => exact count.spawn found user fresh made
  | up child parentOf reporting parentFound => exact count.up child parentOf reporting parentFound
  | free found exiting => exact count.free found exiting

/-- A `process_execute` whose `thread_create` failed stays before the return of
its `sema_down`: no child of its thread is starting, so its semaphore stays 0. -/
theorem ExecStep.keeps_failedExec {V' : Nat → Option ExecView} (stepped : ExecStep V V')
    (count : ExecCount V) {t : Nat} {v : ExecView} (found : V t = some v)
    (failed : v.pc.failedExec = true) :
    ∃ v', V' t = some v' ∧ v'.pc.failedExec = true := by
  obtain ⟨empty, noChild⟩ := count.idle found (Pc.awaitsChild_eq_false_of_failedExec failed)
  cases stepped with
  | stutter => exact ⟨v, found, failed⟩
  | @move mover w w' found' moved =>
      by_cases here : t = mover
      · subst here
        rw [found, Option.some.injEq] at found'
        subst found'
        rw [update_self]
        -- only `resetFlag` moves from a failed exec: `down` needs a unit
        cases moved with
        | resetFlag created => exact ⟨_, rfl, by simpa [created, Pc.failedExec] using failed⟩
        | down down positive => omega
        | outside before _ =>
            rw [Pc.inHandshake_of_failedExec failed] at before
            cases before
        | createFailed pc | check pc | load pc | setFlag pc =>
            rw [pc] at failed
            cases failed
      · exact ⟨v, by rw [update_of_ne here, found], failed⟩
  | @spawn p w n _ parentFound user fresh _ =>
      have notParent : t ≠ p := by
        rintro rfl
        rw [found, Option.some.injEq] at parentFound
        subst parentFound
        rw [user] at failed
        cases failed
      have notChild : t ≠ n := by
        rintro rfl
        rw [found] at fresh
        cases fresh
      exact ⟨v, by rw [update_of_ne notParent, update_of_ne notChild, found], failed⟩
  | @up c cv p pv _ child parentOf reporting _ =>
      have notChild : t ≠ c := by
        rintro rfl
        rw [found, Option.some.injEq] at child
        subst child
        rw [reporting] at failed
        cases failed
      have notParent : t ≠ p := by
        rintro rfl
        exact noChild ⟨c, cv, child, parentOf, by simp [reporting, Pc.starting]⟩
      exact ⟨v, by rw [update_of_ne notChild, update_of_ne notParent, found], failed⟩
  | @free dead w found' exiting =>
      have other : t ≠ dead := by
        rintro rfl
        rw [found, Option.some.injEq] at found'
        subst found'
        rw [exiting] at failed
        cases failed
      exact ⟨v, by rw [update_of_ne other, found], failed⟩

end Pintos

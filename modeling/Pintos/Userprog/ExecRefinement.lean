import Mathlib
import Pintos.Control
import Pintos.Userprog.ExecProtocol

/-!
# The threads keep the exec handshake

The lifecycle model refines the abstract handshake: every step of a thread is
a step of `ExecStep` on the views of all threads (`step_execStep`).  So the
count `ExecCount` holds in every reachable state (`reachable_execCount`), no
`exec_sema` ever holds more than one unit, and a `process_execute` whose
`thread_create` returned `TID_ERROR` stays before the return of its
`sema_down` whatever the threads do next (`failedExec_stays`).
-/

namespace Pintos

open Function

/-- What the exec handshake reads of a thread. -/
def ThreadPage.execView (page : ThreadPage) : ExecView :=
  ⟨page.parent, page.pc, page.execSema.value⟩

namespace Lifecycle

def execViews (st : Lifecycle) (t : Nat) : Option ExecView :=
  (st.threads.get t).map ThreadPage.execView

variable {st st' : Lifecycle} {t : Nat} {page : ThreadPage}

/-! ## Views of written threads -/

theorem threadAt_eq_ok : st.threadAt t = .ok page ↔ st.threads.get t = some page := by
  unfold threadAt
  split <;> simp_all

theorem execViews_of_get (found : st.threads.get t = some page) :
    st.execViews t = some page.execView := by
  simp [execViews, found]

theorem execViews_setThread (alive : (st.execViews t).isSome) (page : ThreadPage) :
    (st.setThread t page).execViews = update st.execViews t (some page.execView) := by
  simp only [execViews, Option.isSome_map] at alive
  obtain ⟨old, found⟩ := Option.isSome_iff_exists.mp alive
  funext c
  simp only [execViews, setThread, Heap.get_set_of_get found, update_apply]
  split <;> rfl

theorem execViews_setThread_of_views {middle : Lifecycle}
    (same : middle.execViews = st.execViews) (found : st.threads.get t = some page)
    (page' : ThreadPage) :
    (middle.setThread t page').execViews = update st.execViews t (some page'.execView) := by
  rw [execViews_setThread (by simp [same, execViews_of_get found]), same]

theorem execViews_setThread_eq {middle : Lifecycle} {page' : ThreadPage}
    (same : middle.execViews = st.execViews) (found : st.threads.get t = some page)
    (viewed : page'.execView = page.execView) :
    (middle.setThread t page').execViews = st.execViews := by
  rw [execViews_setThread_of_views same found, viewed, ← execViews_of_get found, update_eq_self]

theorem execStep_setThread_of_view {middle : Lifecycle} {page' : ThreadPage}
    (same : middle.execViews = st.execViews) (found : st.threads.get t = some page)
    (viewed : page'.execView = page.execView) :
    ExecStep st.execViews (middle.setThread t page').execViews := by
  rw [execViews_setThread_eq same found viewed]
  exact .stutter

theorem execStep_setThread {middle : Lifecycle} {page' : ThreadPage} {v' : ExecView}
    (same : middle.execViews = st.execViews) (found : st.threads.get t = some page)
    (moved : ExecMove page.execView v') (viewed : page'.execView = v') :
    ExecStep st.execViews (middle.setThread t page').execViews := by
  rw [execViews_setThread_of_views same found, viewed]
  exact .move (execViews_of_get found) moved

theorem execViews_wake {woken : Option Nat} (waked : st.wake woken = .ok st') :
    st'.execViews = st.execViews := by
  cases woken with
  | none =>
      cases waked
      rfl
  | some w =>
      obtain ⟨page, found, waked⟩ := Control.bind_eq_ok waked
      cases waked
      exact execViews_setThread_eq rfl (threadAt_eq_ok.mp found) rfl

@[simp]
theorem execViews_pallocFreePage : st.pallocFreePage.execViews = st.execViews := rfl

theorem execViews_free (t : Nat) :
    ({ st with threads := st.threads.free t } : Lifecycle).execViews =
      update st.execViews t none := by
  funext c
  simp only [execViews, Heap.get_free, update_apply]
  split <;> rfl

/-! ## The steps that are not a single write -/

/-- `thread_create` either fails and leaves the threads as they were, or adds
the new thread at the next page and records its status holder in the parent. -/
theorem threadCreate_eq_ok {parent : Nat} {tid : Int} (found : st.threads.get parent = some page)
    (created : st.threadCreate parent = .ok (st', tid)) :
    (tid = -1 ∧ st'.threads = st.threads) ∨
    (tid = st.nextTid ∧
      st'.threads = (st.threads.alloc (startPage st.nextTid parent st.holders.next)).1.set parent
        { page with listOfChildren := page.listOfChildren ++ [st.holders.next] }) := by
  have apart : parent ≠ st.threads.next := fun same => by
    rw [same, Heap.get_next] at found
    cases found
  by_cases empty : st.freePages = 0
  · simp only [threadCreate, pallocGetPage, empty, if_true, Bool.not_false, pure, Except.pure,
      Except.ok.injEq, Prod.mk.injEq] at created
    obtain ⟨rfl, rfl⟩ := created
    exact .inl ⟨rfl, rfl⟩
  · by_cases onlyOne : st.freePages - 1 = 0
    · -- no page for the status holder
      simp [threadCreate, pallocGetPage, empty, onlyOne, throw, throwThe, MonadExceptOf.throw,
        bind, Except.bind] at created
    · simp [threadCreate, pallocGetPage, empty, onlyOne, threadAt, found, apart, bind,
        Except.bind, pure, Except.pure] at created
      obtain ⟨rfl, rfl⟩ := created
      exact .inr ⟨rfl, rfl⟩

/-- `thread_create` either leaves every view as it was, or adds a starting
child at the next page. -/
theorem threadCreate_execViews {parent : Nat} {tid : Int}
    (found : st.threads.get parent = some page)
    (created : st.threadCreate parent = .ok (st', tid)) :
    (tid = -1 ∧ st'.execViews = st.execViews) ∨
    (tid ≠ -1 ∧ st.execViews st.threads.next = none ∧
      st'.execViews = update (update st.execViews st.threads.next
        (some ⟨some parent, .startLoad, 0⟩)) parent (some page.execView)) := by
  rcases threadCreate_eq_ok found created with ⟨failed, same⟩ | ⟨made, spawned⟩
  · refine .inl ⟨failed, ?_⟩
    unfold execViews
    rw [same]
  · have apart : parent ≠ st.threads.next := fun same => by
      rw [same, Heap.get_next] at found
      cases found
    have parentThere :
        (st.threads.alloc (startPage st.nextTid parent st.holders.next)).1.get parent =
          some page := by
      simp [apart, found]
    refine .inr ⟨by rw [made]; omega, by simp [execViews, Heap.get_next], ?_⟩
    -- the parent's page changed its children only
    funext c
    simp only [execViews, spawned, Heap.get_set_of_get parentThere, Heap.get_alloc, update_apply]
    by_cases atParent : c = parent
    · simp only [atParent, if_true]
      rfl
    · by_cases atChild : c = st.threads.next
      · simp only [atChild, Ne.symm apart, if_true, if_false]
        rfl
      · simp only [atParent, atChild, if_false]

theorem execView_setPc {page' : ThreadPage} (viewed : page'.execView = page.execView) (pc : Pc) :
    ({ page' with pc } : ThreadPage).execView = { page.execView with pc } := by
  rw [← viewed]
  rfl

/-- `process_execute` up to the return of `thread_create`: a failed
`thread_create` is a move of the parent alone, a successful one a spawn. -/
theorem processExecute_execStep {cmdLength : Nat} (found : st.threads.get t = some page)
    (user : page.pc = .user) (executed : st.processExecute t cmdLength = .ok st') :
    ExecStep st.execViews st'.execViews := by
  -- a command line too long panics before anything changes
  unfold processExecute at executed
  split at executed
  · cases executed
  obtain ⟨⟨middle, tid⟩, created, written⟩ := Control.bind_eq_ok executed
  obtain ⟨page', found', written⟩ := Control.bind_eq_ok written
  cases written
  have seen := execViews_of_get (threadAt_eq_ok.mp found')
  rcases threadCreate_execViews found created with ⟨failed, views⟩ | ⟨made, fresh, views⟩
  · have viewed : page'.execView = page.execView := by
      rw [views, execViews_of_get found, Option.some.injEq] at seen
      exact seen.symm
    subst failed
    exact execStep_setThread views found (.createFailed user) (execView_setPc viewed _)
  · have viewed : page'.execView = page.execView := by
      rw [views, update_self, Option.some.injEq] at seen
      exact seen.symm
    rw [execViews_setThread (by simp [views]), views, update_idem, execView_setPc viewed]
    exact .spawn (execViews_of_get found) user fresh made

/-- `exit_h` and `thread_exit` up to the `sema_up` move the thread to `exiting`
and change no other view. -/
theorem exitUp_execViews {status : Option Int} (found : st.threads.get t = some page)
    (exited : st.exitUp t page status = .ok st') :
    st'.execViews = update st.execViews t (some { page.execView with pc := .exiting }) := by
  -- the status goes to the holder and to `statusNumber`, neither of them seen
  cases status with
  | none =>
      simp only [exitUp, bind, Except.bind, pure, Except.pure] at exited
      rw [execViews_wake exited]
      exact execViews_setThread_of_views rfl found _
  | some status =>
      cases holder : page.statHolder with
      | none =>
          simp only [exitUp, holder, bind, Except.bind, pure, Except.pure] at exited
          rw [execViews_wake exited]
          exact execViews_setThread_of_views rfl found _
      | some holder' =>
          simp only [exitUp, holder, bind, Except.bind, pure, Except.pure] at exited
          split at exited
          · cases exited
          · rw [execViews_wake exited]
            exact execViews_setThread_of_views rfl found _

theorem perform_execStep {event : Event} (found : st.threads.get t = some page)
    (performed : st.perform t page event = .ok st') : ExecStep st.execViews st'.execViews := by
  cases event with
  | exec =>
      simp only [perform] at performed
      split at performed
      · rename_i user
        exact processExecute_execStep found user performed
      · cases performed
        exact .stutter
  | resetFlag =>
      simp only [perform] at performed
      split at performed
      · rename_i created
        cases performed
        exact execStep_setThread rfl found (.resetFlag created) rfl
      · cases performed
        exact .stutter
  | execSemaDown =>
      simp only [perform] at performed
      split at performed
      · rename_i tid down
        cases performed
        by_cases took : 0 < page.execSema.value
        · have takes := (page.execSema.down_takes_iff t).mpr took
          simp only [takes, if_true]
          exact execStep_setThread rfl found (.down down took) (by simp [ThreadPage.execView])
        · -- the thread joins the waiters and blocks; the value stays 0
          have takes : (page.execSema.down t).2 = false := by
            rw [Bool.eq_false_iff, Ne, Semaphore.down_takes_iff]
            exact took
          simp only [takes, Bool.false_eq_true, if_false]
          exact execStep_setThread_of_view rfl found (by simp [ThreadPage.execView]; omega)
      · cases performed
        exact .stutter
  | execCheck =>
      simp only [perform] at performed
      split at performed
      · rename_i tid checking
        split at performed
        · cases performed
          exact execStep_setThread rfl found (.check checking) rfl
        · split at performed
          · cases performed
          · cases performed
            exact execStep_setThread rfl found (.check checking) rfl
      · cases performed
        exact .stutter
  | load _ success =>
      simp only [perform] at performed
      split at performed
      · rename_i loading
        cases performed
        exact execStep_setThread rfl found (.load loading) rfl
      · cases performed
        exact .stutter
  | setFlag =>
      simp only [perform] at performed
      split at performed
      · rename_i success parent flagging _
        obtain ⟨parentPage, parentFound, performed⟩ := Control.bind_eq_ok performed
        cases performed
        -- the flag in the parent is not part of its view
        have same :
            (st.setThread parent { parentPage with childExecSuccess := success }).execViews =
              st.execViews :=
          execViews_setThread_eq rfl (threadAt_eq_ok.mp parentFound) rfl
        exact execStep_setThread same found (.setFlag flagging) rfl
      · cases performed
        exact .stutter
  | execSemaUp =>
      simp only [perform] at performed
      split at performed
      · rename_i success parent reporting parentOf
        obtain ⟨parentPage, parentFound, performed⟩ := Control.bind_eq_ok performed
        obtain ⟨middle, waked, performed⟩ := Control.bind_eq_ok performed
        cases performed
        rw [threadAt_eq_ok] at parentFound
        -- the parent's semaphore goes up by one, then the child leaves `start_process`
        have views := execViews_wake waked
        rw [execViews_setThread (by simp [execViews_of_get parentFound])] at views
        rw [execViews_setThread (by simp [views, isSome_update_some, execViews_of_get found]),
          views]
        have up := ExecStep.up (execViews_of_get found) parentOf reporting
          (execViews_of_get parentFound)
        simpa [ThreadPage.execView] using up
      · cases performed
        exact .stutter
  | wait _ tid =>
      simp only [perform] at performed
      split at performed
      · rename_i user
        obtain ⟨child, _, performed⟩ := Control.bind_eq_ok performed
        cases child with
        | some holder =>
            cases performed
            exact execStep_setThread rfl found
              (.outside (by simp [ThreadPage.execView, user, Pc.inHandshake])
                (by simp [Pc.inHandshake])) rfl
        | none =>
            cases performed
            exact execStep_setThread_of_view rfl found rfl
      · cases performed
        exact .stutter
  | waitSemaDown =>
      simp only [perform] at performed
      split at performed
      · rename_i holder waiting
        obtain ⟨sHolder, _, performed⟩ := Control.bind_eq_ok performed
        obtain ⟨owner, ownerFound, performed⟩ := Control.bind_eq_ok performed
        cases performed
        -- the semaphore of the child is not part of its view
        have same : (st.setThread sHolder.ownerThread
            { owner with waitSema := (owner.waitSema.down t).1 }).execViews = st.execViews :=
          execViews_setThread_eq rfl (threadAt_eq_ok.mp ownerFound) rfl
        split
        · exact execStep_setThread same found
            (.outside (by simp [ThreadPage.execView, waiting, Pc.inHandshake])
              (by simp [Pc.inHandshake])) rfl
        · exact execStep_setThread_of_view same found rfl
      · cases performed
        exact .stutter
  | waitRead =>
      simp only [perform] at performed
      split at performed
      · rename_i holder reading
        obtain ⟨sHolder, _, performed⟩ := Control.bind_eq_ok performed
        cases performed
        exact execStep_setThread rfl found
          (.outside (by simp [ThreadPage.execView, reading, Pc.inHandshake])
            (by simp [Pc.inHandshake])) rfl
      · cases performed
        exact .stutter
  | exit _ status =>
      simp only [perform] at performed
      split at performed
      · rename_i exiting
        rw [exitUp_execViews found performed]
        have outside : page.pc.inHandshake = false := by
          rcases exiting with user | ⟨failed, _⟩
          · simp [user, Pc.inHandshake]
          · simp [failed, Pc.inHandshake]
        exact .move (execViews_of_get found) (.outside outside rfl)
      · cases performed
        exact .stutter
  | finishExit =>
      simp only [perform] at performed
      split at performed
      · rename_i exiting
        split at performed
        · cases performed
          exact execStep_setThread rfl found
            (.outside (by simp [ThreadPage.execView, exiting, Pc.inHandshake])
              (by simp [Pc.inHandshake])) rfl
        · cases performed
          rw [execViews_pallocFreePage, execViews_free]
          exact .free (execViews_of_get found) exiting
      · cases performed
        exact .stutter

theorem step_execStep {event : Event} (stepped : st.step event = .ok st') :
    ExecStep st.execViews st'.execViews := by
  unfold step at stepped
  split at stepped
  · rename_i page found
    split at stepped
    · cases stepped
      exact .stutter
    · exact perform_execStep found stepped
  · cases stepped
    exact .stutter

/-! ## The count in every reachable state -/

theorem execCount_init (freePages : Nat) : ExecCount (init freePages).execViews := by
  -- the initial thread alone, with no parent and nothing to wait for
  have viewed : ∀ c, (init freePages).execViews c =
      if c = 0 then some ⟨none, .user, 0⟩ else none := by
    intro c
    by_cases initial : c = 0
    · simp [execViews, init, initial, Heap.get_alloc]
      rfl
    · simp [execViews, init, initial, Heap.get_alloc]
  have noStart : ∀ p c, ¬ Starting (init freePages).execViews p c := by
    rintro p c ⟨v, found, parent, _⟩
    rw [viewed] at found
    split at found
    · cases found
      cases parent
    · cases found
  refine ⟨fun p c _ first _ => absurd first (noStart p c), fun p c started =>
    absurd started (noStart p c), fun p v found => ?_⟩
  rw [viewed] at found
  split at found
  · cases found
    rw [ExecView.balanced_iff_of_not_awaits rfl]
    exact ⟨rfl, fun ⟨c, started⟩ => noStart p c started⟩
  · cases found

theorem reachable_execCount (reached : Reachable st) : ExecCount st.execViews :=
  Transition.Reachable.invariant
    (fun _ ⟨freePages, started⟩ => started ▸ execCount_init freePages)
    (fun _ _ _ count stepped => (step_execStep stepped).preserves count) reached

/-- No `exec_sema` ever holds more than one unit. -/
theorem execSema_value_le_one (reached : Reachable st) (found : st.threads.get t = some page) :
    page.execSema.value ≤ 1 :=
  (reachable_execCount reached).execValue_le_one (execViews_of_get found)

/-- The child has loaded and signalled before its parent's `sema_down`: the parent's `exec_sema`
holds the unit, and no more. -/
theorem signalled_execSema_le_one :
    ∃ st page, Reachable st ∧ st.threads.get 0 = some page ∧ 0 < page.execSema.value ∧
      page.execSema.value ≤ 1 := by
  have signalled : Transition.runSatisfies step (init 3)
      [.exec 0 5, .load 1 true, .setFlag 1, .execSemaUp 1]
      (fun st => (st.threads.get 0).any fun page => 0 < page.execSema.value) = true := by
    decide +kernel
  obtain ⟨st, reached, holds⟩ := Transition.Reachable.of_runSatisfies (initial_init 3) signalled
  simp only [Option.any_eq_true, decide_eq_true_eq] at holds
  obtain ⟨page, found, positive⟩ := holds
  exact ⟨st, page, reached, found, positive, execSema_value_le_one reached found⟩

/-- A `process_execute` whose `thread_create` returned `TID_ERROR` never returns:
whatever the threads do next, its thread stays before the return of its
`sema_down`, blocked there for good once it has tried it. -/
theorem failedExec_stays (reached : Reachable st) (found : st.threads.get t = some page)
    (failed : page.pc.failedExec = true) {events : List Event}
    (ran : Transition.run step st events = .ok st') :
    ∃ page', st'.threads.get t = some page' ∧ page'.pc.failedExec = true := by
  -- the count and the failed exec of `t` hold together along the run
  have preserved : ∀ before event after,
      (ExecCount before.execViews ∧
        ∃ v, before.execViews t = some v ∧ v.pc.failedExec = true) →
      step before event = .ok after →
      (ExecCount after.execViews ∧
        ∃ v, after.execViews t = some v ∧ v.pc.failedExec = true) := by
    rintro before event after ⟨count, v, seen, stuck⟩ stepped
    have moved := step_execStep stepped
    exact ⟨moved.preserves count, moved.keeps_failedExec count seen stuck⟩
  obtain ⟨_, v, seen, stuck⟩ := Transition.run_invariant preserved
    ⟨reachable_execCount reached, page.execView, execViews_of_get found, failed⟩ ran
  simp only [execViews, Option.map_eq_some_iff] at seen
  obtain ⟨page', found', rfl⟩ := seen
  exact ⟨page', found', stuck⟩

/-- With no free page, the initial thread's `exec` gets `TID_ERROR`. -/
def failedExecState : Lifecycle :=
  match Transition.run step (init 0) [.exec 0 5] with
  | .ok st => st
  | .error _ => init 0

theorem reachable_failedExecState : Reachable failedExecState :=
  Transition.Reachable.of_run (initial_init 0)
    (show Transition.run step (init 0) [.exec 0 5] = .ok failedExecState from rfl)

/-- The thread resets its flag, blocks in `sema_down`, and would go on. -/
def afterFailedExecRun : List Event := [.resetFlag 0, .execSemaDown 0, .execCheck 0]

theorem failedExec_stays_blocked :
    ∃ st' page', Transition.run step failedExecState afterFailedExecRun = .ok st' ∧
      st'.threads.get 0 = some page' ∧ page'.pc.failedExec = true := by
  obtain ⟨page, found, failed⟩ :
      ∃ page, failedExecState.threads.get 0 = some page ∧ page.pc.failedExec = true :=
    ⟨_, rfl, rfl⟩
  obtain ⟨st', ran⟩ :
      ∃ st', Transition.run step failedExecState afterFailedExecRun = .ok st' :=
    ⟨_, rfl⟩
  obtain ⟨page', found', stays⟩ := failedExec_stays reachable_failedExecState found failed ran
  exact ⟨st', page', ran, found', stays⟩

end Lifecycle

end Pintos

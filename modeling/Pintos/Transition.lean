import Mathlib

/-!
# Partial transition systems

A component is a step function `State → Action → Except Error State`: an action
either moves the state or stops the whole machine with an error (a panic, a
failed assertion, a dereference of a freed object).  `run` replays a list of
actions and stops at the first error.  `Reachable` collects the states that some
run from an initial state ends in; `Reachable.invariant` is the induction rule
every safety proof uses, and `Reachable.of_run` turns a concrete run into a
reachable state.
-/

namespace Pintos.Transition

universe u v w

variable {State : Type u} {Action : Type v} {Error : Type w}

/-- Replay the actions in order; the first error ends the run. -/
def run (step : State → Action → Except Error State) :
    State → List Action → Except Error State
  | state, [] => .ok state
  | state, action :: rest =>
      match step state action with
      | .ok next => run step next rest
      | .error error => .error error

@[simp]
theorem run_nil (step : State → Action → Except Error State) (state : State) :
    run step state [] = .ok state := rfl

theorem run_cons_ok {step : State → Action → Except Error State}
    {state next : State} {action : Action} (rest : List Action)
    (moved : step state action = .ok next) :
    run step state (action :: rest) = run step next rest := by
  simp only [run, moved]

theorem run_cons_error {step : State → Action → Except Error State}
    {state : State} {action : Action} {error : Error} (rest : List Action)
    (stopped : step state action = .error error) :
    run step state (action :: rest) = .error error := by
  simp only [run, stopped]

theorem run_append (step : State → Action → Except Error State)
    (state : State) (first second : List Action) :
    run step state (first ++ second) =
      match run step state first with
      | .ok middle => run step middle second
      | .error error => .error error := by
  induction first generalizing state with
  | nil => rfl
  | cons action rest inductionHypothesis =>
      cases moved : step state action with
      | ok next =>
          rw [List.cons_append, run_cons_ok _ moved, run_cons_ok _ moved]
          exact inductionHypothesis next
      | error error =>
          rw [List.cons_append, run_cons_error _ moved, run_cons_error _ moved]

theorem run_cons_eq_ok {step : State → Action → Except Error State}
    {state final : State} {action : Action} {rest : List Action}
    (ended : run step state (action :: rest) = .ok final) :
    ∃ next, step state action = .ok next ∧ run step next rest = .ok final := by
  cases moved : step state action with
  | ok next => exact ⟨next, rfl, by rwa [run_cons_ok _ moved] at ended⟩
  | error error => rw [run_cons_error _ moved] at ended; cases ended

/-- A property that every step keeps holds at the end of every run that starts
where it holds. -/
theorem run_invariant {Invariant : State → Prop}
    {step : State → Action → Except Error State}
    (preserved : ∀ state action next, Invariant state →
      step state action = .ok next → Invariant next)
    {state final : State} {actions : List Action} (holds : Invariant state)
    (ended : run step state actions = .ok final) : Invariant final := by
  induction actions generalizing state with
  | nil =>
      cases ended
      exact holds
  | cons action rest inductionHypothesis =>
      obtain ⟨next, moved, restEnded⟩ := run_cons_eq_ok ended
      exact inductionHypothesis (preserved _ _ _ holds moved) restEnded

/-- The states some run from an initial state ends in. -/
inductive Reachable (initial : State → Prop) (step : State → Action → Except Error State) :
    State → Prop where
  | initial {state} : initial state → Reachable initial step state
  | step {state next action} : Reachable initial step state →
      step state action = .ok next → Reachable initial step next

namespace Reachable

variable {initial : State → Prop} {step : State → Action → Except Error State}

/-- Induction rule for safety: a property of the initial states that every
step keeps holds in every reachable state. -/
theorem invariant {Invariant : State → Prop}
    (holdsInitially : ∀ state, initial state → Invariant state)
    (preserved : ∀ state action next, Invariant state →
      step state action = .ok next → Invariant next)
    {state : State} (reached : Reachable initial step state) : Invariant state := by
  induction reached with
  | initial start => exact holdsInitially _ start
  | step _ moved inductionHypothesis => exact preserved _ _ _ inductionHypothesis moved

theorem run {state final : State} {actions : List Action}
    (reached : Reachable initial step state)
    (ended : Transition.run step state actions = .ok final) :
    Reachable initial step final :=
  run_invariant (fun _ _ _ earlier moved => earlier.step moved) reached ended

theorem of_run {start final : State} {actions : List Action} (started : initial start)
    (ended : Transition.run step start actions = .ok final) :
    Reachable initial step final :=
  (Reachable.initial started).run ended

end Reachable

/-- Whether a run ends normally in a state with a (decidable) property; the way
a concrete run is checked by evaluation. -/
def runSatisfies (step : State → Action → Except Error State) (start : State)
    (actions : List Action) (property : State → Bool) : Bool :=
  match run step start actions with
  | .ok final => property final
  | .error _ => false

theorem exists_of_runSatisfies {step : State → Action → Except Error State}
    {start : State} {actions : List Action} {property : State → Bool}
    (satisfied : runSatisfies step start actions property = true) :
    ∃ final, run step start actions = .ok final ∧ property final = true := by
  unfold runSatisfies at satisfied
  split at satisfied
  · rename_i final ended
    exact ⟨final, ended, satisfied⟩
  · cases satisfied

/-- A run from an initial state that ends with the property reaches a state
with it. -/
theorem Reachable.of_runSatisfies {initial : State → Prop}
    {step : State → Action → Except Error State} {start : State} {actions : List Action}
    {property : State → Bool} (started : initial start)
    (satisfied : runSatisfies step start actions property = true) :
    ∃ final, Reachable initial step final ∧ property final = true := by
  obtain ⟨final, ended, holds⟩ := exists_of_runSatisfies satisfied
  exact ⟨final, Reachable.of_run started ended, holds⟩

/-- Whether a step stops with the error `error`; the way a concrete stop is
checked by evaluation. -/
def stopsWith [DecidableEq Error] (result : Except Error State) (error : Error) : Bool :=
  match result with
  | .ok _ => false
  | .error stopped => decide (stopped = error)

theorem eq_error_of_stopsWith [DecidableEq Error] {result : Except Error State} {error : Error}
    (stopped : stopsWith result error = true) : result = .error error := by
  cases result with
  | ok _ => cases stopped
  | error stoppedWith =>
      rw [of_decide_eq_true stopped]

/-- Whether a step moves to a state with a (decidable) property. -/
def movesTo (result : Except Error State) (property : State → Bool) : Bool :=
  match result with
  | .ok next => property next
  | .error _ => false

theorem exists_of_movesTo {result : Except Error State} {property : State → Bool}
    (moved : movesTo result property = true) :
    ∃ next, result = .ok next ∧ property next = true := by
  cases result with
  | ok next => exact ⟨next, rfl, moved⟩
  | error _ => cases moved

end Pintos.Transition

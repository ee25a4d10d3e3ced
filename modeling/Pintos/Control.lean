import Mathlib

/-!
# Running stateful code that can stop or fail

Code that changes a state of type `σ`, may stop early with a reason of type
`ε`, and may fail outright with an error of type `δ` runs in
`ExceptT ε (StateT σ (Except δ))`.  Run from a state, it fails, or it ends with
a value or a stop, and a new state.  The lemmas here say how a sequence, a read
of the state and a stop run, so that a proof about such code follows its
statements in order; `bind_eq_ok` does the same for code that can only fail.

`Triple P x Q R` states what code does without running it: from a state where
`P` holds, `x` fails, or returns `a` in a state where `Q a` holds, or stops with
`e` in a state where `R e` holds.  The rules below give a triple for each way
code is built (`Triple.bind` for a sequence, `Triple.get_bind` for a read of the
state, `Triple.set` and `Triple.modify` for a write), so that a property of a
long piece of code is proved statement by statement.
-/

namespace Pintos.Control

variable {ε σ δ α β : Type}

theorem bind_eq_ok {x : Except δ α} {f : α → Except δ β} {b : β} (ended : x >>= f = .ok b) :
    ∃ a, x = .ok a ∧ f a = .ok b := by
  cases x with
  | error d => cases ended
  | ok a => exact ⟨a, rfl, ended⟩

@[simp]
theorem run_bind (x : ExceptT ε (StateT σ (Except δ)) α)
    (f : α → ExceptT ε (StateT σ (Except δ)) β) (s : σ) :
    (x >>= f).run.run s =
      match x.run.run s with
      | .ok (.ok a, s') => (f a).run.run s'
      | .ok (.error e, s') => .ok (.error e, s')
      | .error d => .error d := by
  simp only [bind, ExceptT.bind, ExceptT.run, ExceptT.mk, StateT.run, StateT.bind]
  rcases x s with (d | ⟨result | result, s'⟩) <;> rfl

@[simp]
theorem run_get (s : σ) :
    (get : ExceptT ε (StateT σ (Except δ)) σ).run.run s = .ok (.ok s, s) := rfl

/-- A stop keeps the state. -/
@[simp]
theorem run_throwStop (e : ε) (s : σ) :
    (throwThe ε e : ExceptT ε (StateT σ (Except δ)) α).run.run s = .ok (.error e, s) := rfl

@[simp]
theorem run_pure (a : α) (s : σ) :
    (pure a : ExceptT ε (StateT σ (Except δ)) α).run.run s = .ok (.ok a, s) := rfl

/-! ## Pre- and postconditions -/

structure Triple (P : σ → Prop) (x : ExceptT ε (StateT σ (Except δ)) α) (Q : α → σ → Prop)
    (R : ε → σ → Prop) : Prop where
  returns : ∀ s a s', P s → x.run.run s = .ok (.ok a, s') → Q a s'
  stops : ∀ s e s', P s → x.run.run s = .ok (.error e, s') → R e s'

section Triple

variable {P P' : σ → Prop} {Q Q' : α → σ → Prop} {R R' : ε → σ → Prop}

theorem Triple.mono {x : ExceptT ε (StateT σ (Except δ)) α} (triple : Triple P x Q R)
    (pre : ∀ s, P' s → P s) (post : ∀ a s, Q a s → Q' a s) (stop : ∀ e s, R e s → R' e s) :
    Triple P' x Q' R' :=
  ⟨fun s a s' holds ran => post a s' (triple.returns s a s' (pre s holds) ran),
    fun s e s' holds ran => stop e s' (triple.stops s e s' (pre s holds) ran)⟩

theorem Triple.pure {a : α} (post : ∀ s, P s → Q a s) :
    Triple P (Pure.pure a : ExceptT ε (StateT σ (Except δ)) α) Q R where
  returns s a' s' holds ran := by
    cases ran
    exact post s holds
  stops _ _ _ _ ran := by cases ran

theorem Triple.bind {x : ExceptT ε (StateT σ (Except δ)) α}
    {f : α → ExceptT ε (StateT σ (Except δ)) β} {Q' : β → σ → Prop}
    (first : Triple P x Q R) (rest : ∀ a, Triple (Q a) (f a) Q' R) :
    Triple P (x >>= f) Q' R where
  returns s b s' holds ran := by
    rw [run_bind] at ran
    split at ran
    · rename_i a middle ranFirst
      exact (rest a).returns middle b s' (first.returns s a middle holds ranFirst) ran
    · cases ran
    · cases ran
  stops s e s' holds ran := by
    rw [run_bind] at ran
    split at ran
    · rename_i a middle ranFirst
      exact (rest a).stops middle e s' (first.returns s a middle holds ranFirst) ran
    · rename_i ranFirst
      cases ran
      exact first.stops s _ _ holds ranFirst
    · cases ran

theorem Triple.get_bind {f : σ → ExceptT ε (StateT σ (Except δ)) α}
    (rest : ∀ s₀, P s₀ → Triple (· = s₀) (f s₀) Q R) :
    Triple P (get >>= f) Q R where
  returns s a s' holds ran := by
    rw [run_bind, run_get] at ran
    exact (rest s holds).returns s a s' rfl ran
  stops s e s' holds ran := by
    rw [run_bind, run_get] at ran
    exact (rest s holds).stops s e s' rfl ran

theorem Triple.set {t : σ} {Q : PUnit → σ → Prop} (post : ∀ s, P s → Q ⟨⟩ t) :
    Triple P (MonadStateOf.set t : ExceptT ε (StateT σ (Except δ)) PUnit) Q R where
  returns s _ s' holds ran := by
    cases ran
    exact post s holds
  stops _ _ _ _ ran := by cases ran

theorem Triple.modify {f : σ → σ} {Q : PUnit → σ → Prop} (post : ∀ s, P s → Q ⟨⟩ (f s)) :
    Triple P (modify f : ExceptT ε (StateT σ (Except δ)) PUnit) Q R where
  returns s _ s' holds ran := by
    cases ran
    exact post s holds
  stops _ _ _ _ ran := by cases ran

theorem Triple.throwStop {e : ε} (post : ∀ s, P s → R e s) :
    Triple P (throwThe ε e : ExceptT ε (StateT σ (Except δ)) α) Q R where
  returns _ _ _ _ ran := by cases ran
  stops s e' s' holds ran := by
    cases ran
    exact post s holds

theorem Triple.throwError {d : δ} :
    Triple P (throwThe δ d : ExceptT ε (StateT σ (Except δ)) α) Q R where
  returns _ _ _ _ ran := by cases ran
  stops _ _ _ _ ran := by cases ran

/-- Code that can only fail, run inside: the state stays, and the code returned what it
returns. -/
theorem Triple.lift {x : Except δ α} :
    Triple P (monadLift x : ExceptT ε (StateT σ (Except δ)) α) (fun a s => P s ∧ x = .ok a) R where
  returns s a s' holds ran := by
    cases x with
    | error d => cases ran
    | ok _ =>
        cases ran
        exact ⟨holds, rfl⟩
  stops s e s' holds ran := by
    cases x with
    | error d => cases ran
    | ok a' => cases ran

theorem Triple.ite_bind {c : Prop} [Decidable c] {x y : ExceptT ε (StateT σ (Except δ)) α}
    {f : α → ExceptT ε (StateT σ (Except δ)) β} {Q' : β → σ → Prop} (yes : c → Triple P x Q R)
    (no : ¬c → Triple P y Q R) (rest : ∀ a, Triple (Q a) (f a) Q' R) :
    Triple P (if c then x >>= f else y >>= f) Q' R := by
  split
  · rename_i holds
    exact (yes holds).bind rest
  · rename_i fails
    exact (no fails).bind rest

theorem Triple.map {x : ExceptT ε (StateT σ (Except δ)) α} {f : α → β} {Q' : β → σ → Prop}
    (triple : Triple P x Q R) (post : ∀ a s, Q a s → Q' (f a) s) :
    Triple P (f <$> x) Q' R := by
  rw [map_eq_pure_bind]
  exact triple.bind fun a => Triple.pure (post a)

end Triple

end Pintos.Control

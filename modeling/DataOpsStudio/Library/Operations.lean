import Mathlib.Tactic.Common

/-!
# Operations that may raise

An operation on a state gives a new state, or it raises and leaves the state as it is.  Of two
states on which every operation raises the same, or leads to states that are related again, every
list of operations raises the same.
-/

universe u v w x

variable {σ : Type u} {τ : Type v} {α : Type w} {ε : Type x}

/-- Performs the operations one after the other, and says what each of them has raised. -/
def runOps (step : σ → α → Except ε σ) (s : σ) : List α → σ × List (Option ε)
  | [] => (s, [])
  | a :: rest =>
      match step s a with
      | .error e =>
          let ran := runOps step s rest
          (ran.1, some e :: ran.2)
      | .ok t =>
          let ran := runOps step t rest
          (ran.1, none :: ran.2)

/-- What a computation that does not raise is seen to return. -/
theorem Outcome.toOption_eq_some {x : Except ε σ} {s : σ} :
  x.toOption = some s ↔ x = .ok s
  := by
  cases x with
  | error e =>
      constructor
      · intro h
        cases h
      · intro h
        cases h
  | ok t =>
      constructor
      · intro h
        exact congrArg Except.ok (Option.some.inj h)
      · intro h
        exact congrArg some (Except.ok.inj h)

/-- Both raise the same, or both lead to states that are related. -/
def AgreeOn (R : σ → τ → Prop) (x : Except ε σ) (y : Except ε τ) : Prop :=
  (∃ e, x = .error e ∧ y = .error e) ∨ ∃ s t, x = .ok s ∧ y = .ok t ∧ R s t

section Rules

variable {step : σ → α → Except ε σ} {step' : τ → α → Except ε τ} {s : σ} {t : τ}

@[simp]
theorem runOps_nil :
  runOps step s [] = (s, [])
  := rfl

theorem runOps_cons_error {a : α} {rest : List α} {e : ε} (h : step s a = .error e) :
  runOps step s (a :: rest) = ((runOps step s rest).1, some e :: (runOps step s rest).2)
  := by
  rw [runOps, h]

theorem runOps_cons_ok {a : α} {rest : List α} {s' : σ} (h : step s a = .ok s') :
  runOps step s (a :: rest) = ((runOps step s' rest).1, none :: (runOps step s' rest).2)
  := by
  rw [runOps, h]

/-- The simulation rule. -/
theorem runOps_simulation {R : σ → τ → Prop}
    (hstep : ∀ s t a, R s t → AgreeOn R (step s a) (step' t a)) (h : R s t) (actions : List α) :
  (runOps step s actions).2 = (runOps step' t actions).2
    ∧ R (runOps step s actions).1 (runOps step' t actions).1
  := by
  induction actions generalizing s t with
  | nil => exact ⟨rfl, h⟩
  | cons a rest ih =>
      obtain ⟨e, hs, ht⟩ | ⟨s', t', hs, ht, h'⟩ := hstep s t a h
      · rw [runOps_cons_error hs, runOps_cons_error ht, (ih h).1]
        exact ⟨rfl, (ih h).2⟩
      · rw [runOps_cons_ok hs, runOps_cons_ok ht, (ih h').1]
        exact ⟨rfl, (ih h').2⟩

/-- What every operation keeps that may be performed holds in the end. -/
theorem runOps_invariant (I : σ → Prop) {actions : List α}
    (hstep : ∀ s a t, a ∈ actions → I s → step s a = .ok t → I t) (h : I s) :
  I (runOps step s actions).1
  := by
  induction actions generalizing s with
  | nil => exact h
  | cons a rest ih =>
      have hrest : ∀ {s : σ}, I s → I (runOps step s rest).1 :=
        ih fun s b t hb => hstep s b t (List.mem_cons_of_mem a hb)
      cases hs : step s a with
      | error e =>
          rw [runOps_cons_error hs]
          exact hrest h
      | ok s' =>
          rw [runOps_cons_ok hs]
          exact hrest (hstep s a s' List.mem_cons_self h hs)

end Rules

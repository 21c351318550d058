import Mathlib.Logic.Relation

/-!
# Transition systems

A transition system has initial states and steps that are labelled by actions.  What holds
initially and is kept by every step holds in every reachable state; what is kept by every
step from a reachable state holds in every later state.
-/

universe u v

/-- A transition system on states `σ` with actions `α`. -/
structure TransitionSystem (σ : Type u) (α : Type v) where
  initial : σ → Prop
  step : σ → α → σ → Prop

namespace TransitionSystem

variable {σ : Type u} {α : Type v} (T : TransitionSystem σ α)

/-- The states that a run can reach. -/
inductive Reachable : σ → Prop
  | initial {s : σ} (h : T.initial s) : Reachable s
  | step {s t : σ} {a : α} (hs : Reachable s) (h : T.step s a t) : Reachable t

/-- The second state comes after the first in some run. -/
def Later : σ → σ → Prop := Relation.ReflTransGen (fun s t => ∃ a, T.step s a t)

variable {T}

/-- The invariant rule. -/
theorem Reachable.invariant {I : σ → Prop} (hinitial : ∀ s, T.initial s → I s)
    (hstep : ∀ s a t, I s → T.step s a t → I t) {s : σ} (h : T.Reachable s) :
  I s
  := by
  induction h with
  | initial h => apply hinitial _ h
  | step _ h ih => apply hstep _ _ _ ih h

/-- What every step between states with an invariant keeps still holds later. -/
theorem Later.invariant {I P : σ → Prop} (hI : ∀ s a t, I s → T.step s a t → I t)
    (hP : ∀ s a t, I s → P s → T.step s a t → P t) {s t : σ} (hs : I s) (h : P s)
    (hlater : T.Later s t) :
  I t ∧ P t
  := by
  induction hlater with
  | refl => exact ⟨hs, h⟩
  | tail _ hstep ih =>
      obtain ⟨a, hstep⟩ := hstep
      exact ⟨hI _ _ _ ih.1 hstep, hP _ _ _ ih.1 ih.2 hstep⟩

/-! ### Fewer steps -/

variable (T) in
/-- The system with only those steps whose action is fine in the state before it. -/
def restrict (fine : σ → α → Prop) : TransitionSystem σ α where
  initial := T.initial
  step := fun s a t => T.step s a t ∧ fine s a

theorem Reachable.of_restrict {fine : σ → α → Prop} {s : σ} (h : (T.restrict fine).Reachable s) :
  T.Reachable s
  := by
  induction h with
  | initial h => exact .initial h
  | step _ h ih => exact .step ih h.1

/-! ### Steps that can be computed -/

section Computed

variable {s t : σ}

/-- Computed steps lead to later states, also when they are named in another way. -/
theorem later_of_named {β : Type v} {next : σ → β → Option σ} {names : List β}
    (hnext : ∀ s b t, next s b = some t → ∃ a, T.step s a t)
    (h : names.foldlM next s = some t) :
  T.Later s t
  := by
  induction names generalizing s with
  | nil =>
      obtain rfl := Option.some.inj h
      exact .refl
  | cons b names ih =>
      obtain ⟨u, hu, h⟩ := Option.bind_eq_some_iff.mp h
      exact .head (hnext s b u hu) (ih h)

/-- Computed steps lead to later states. -/
theorem later_of_foldlM {next : σ → α → Option σ} {actions : List α}
    (hnext : ∀ s a t, next s a = some t → T.step s a t)
    (h : actions.foldlM next s = some t) :
  T.Later s t
  := later_of_named (fun s a t ha => ⟨a, hnext s a t ha⟩) h

theorem Reachable.later (hs : T.Reachable s) (h : T.Later s t) :
  T.Reachable t
  := by
  induction h with
  | refl => apply hs
  | tail _ hstep ih =>
      obtain ⟨a, hstep⟩ := hstep
      apply Reachable.step ih hstep

end Computed

end TransitionSystem

import Mathlib.Logic.Relation
import Mathlib.Tactic.Use

/-!
# Programs with state that may raise

A program changes a state and returns or raises; what it changed before it raised stays
changed.  `Ensures m s Q E` says what holds when `m` is run from `s`: `Q` of what it returns
and the state it leaves, or `E` of what it raises and the state it leaves.  `Uniform R m`
says that `m` does the same from states that are related by `R`, and leaves states that are.
-/

universe u

namespace Program

variable {ε σ τ α β : Type u}

/-- The state a run leaves. -/
def stateOf : EStateM.Result ε σ α → σ
  | .ok _ s => s
  | .error _ s => s

/-- What a run raises, if anything. -/
def raised : EStateM.Result ε σ α → Option ε
  | .ok _ _ => none
  | .error e _ => some e

/-- What holds when a program ends. -/
def Ensures (m : EStateM ε σ α) (s : σ) (Q : α → σ → Prop) (E : ε → σ → Prop) : Prop :=
  match m.run s with
  | .ok a t => Q a t
  | .error e t => E e t

/-- Returns or raises as a computation without state does. -/
def ofExcept : Except ε α → EStateM ε σ α
  | .ok a => pure a
  | .error e => throw e

/-- Runs a program if a condition holds. -/
def when (p : Prop) [Decidable p] (m : EStateM ε σ PUnit) : EStateM ε σ PUnit :=
  if p then m else pure ⟨⟩

/-- The value under a key, or an exception. -/
def demand (e : ε) : Option α → EStateM ε σ α
  | some a => pure a
  | none => throw e

/-! ### The rules of sequencing -/

section Rules

variable {m : EStateM ε σ α} {s : σ} {Q Q' : α → σ → Prop} {E E' : ε → σ → Prop}

/-- What a program ensures may be weakened. -/
theorem Ensures.mono (h : Ensures m s Q E) (hQ : ∀ a t, Q a t → Q' a t)
    (hE : ∀ e t, E e t → E' e t) :
  Ensures m s Q' E'
  := by
  rw [Ensures] at h ⊢
  split
  · rename_i hrun
    rw [hrun] at h
    apply hQ _ _ h
  · rename_i hrun
    rw [hrun] at h
    apply hE _ _ h

/-- What two proofs ensure may be taken together. -/
theorem Ensures.and (h : Ensures m s Q E) (h' : Ensures m s Q' E') :
  Ensures m s (fun a t => Q a t ∧ Q' a t) (fun e t => E e t ∧ E' e t)
  := by
  rw [Ensures] at h h' ⊢
  split
  · rename_i hrun
    rw [hrun] at h h'
    exact ⟨h, h'⟩
  · rename_i hrun
    rw [hrun] at h h'
    exact ⟨h, h'⟩

@[simp]
theorem ensures_pure (a : α) :
  Ensures (pure a : EStateM ε σ α) s Q E ↔ Q a s
  := Iff.rfl

@[simp]
theorem ensures_bind (f : α → EStateM ε σ β) (Q : β → σ → Prop) :
  Ensures (m >>= f) s Q E ↔ Ensures m s (fun a t => Ensures (f a) t Q E) E
  := by
  simp only [Ensures, EStateM.run_bind]
  cases m.run s with
  | ok a t => rfl
  | error e t => rfl

@[simp]
theorem ensures_get (Q : σ → σ → Prop) :
  Ensures (get : EStateM ε σ σ) s Q E ↔ Q s s
  := Iff.rfl

@[simp]
theorem ensures_set (t : σ) (Q : PUnit → σ → Prop) :
  Ensures (set t : EStateM ε σ PUnit) s Q E ↔ Q ⟨⟩ t
  := Iff.rfl

@[simp]
theorem ensures_modify (f : σ → σ) (Q : PUnit → σ → Prop) :
  Ensures (modify f : EStateM ε σ PUnit) s Q E ↔ Q ⟨⟩ (f s)
  := Iff.rfl

@[simp]
theorem ensures_throw (e : ε) :
  Ensures (throw e : EStateM ε σ α) s Q E ↔ E e s
  := Iff.rfl

@[simp]
theorem ensures_ite (p : Prop) [Decidable p] (n : EStateM ε σ α) :
  Ensures (if p then m else n) s Q E ↔ (p → Ensures m s Q E) ∧ (¬ p → Ensures n s Q E)
  := by
  split
  · rename_i h
    simp [h]
  · rename_i h
    simp [h]

theorem ensures_discard {Q : σ → Prop} :
  Ensures (discard m) s (fun _ t => Q t) E ↔ Ensures m s (fun _ t => Q t) E
  := by
  have hrun : (discard m).run s = match m.run s with
      | .ok _ t => .ok ⟨⟩ t
      | .error e t => .error e t := rfl
  rw [Ensures, Ensures, hrun]
  cases m.run s with
  | ok a t => rfl
  | error e t => rfl

@[simp]
theorem ofExcept_ok (a : α) :
  (ofExcept (.ok a) : EStateM ε σ α) = pure a
  := rfl

@[simp]
theorem demand_some (e : ε) (a : α) :
  (demand e (some a) : EStateM ε σ α) = pure a
  := rfl

theorem when_pos {p : Prop} [Decidable p] (hp : p) (m : EStateM ε σ PUnit) :
  when p m = m
  := if_pos hp

theorem when_neg {p : Prop} [Decidable p] (hp : ¬ p) (m : EStateM ε σ PUnit) :
  when p m = pure ⟨⟩
  := if_neg hp

@[simp]
theorem ensures_when (p : Prop) [Decidable p] {m : EStateM ε σ PUnit} {Q : PUnit → σ → Prop} :
  Ensures (when p m) s Q E ↔ (p → Ensures m s Q E) ∧ (¬ p → Q ⟨⟩ s)
  := by
  rw [when, ensures_ite, ensures_pure]

/-- What a run ensures holds of the state it leaves. -/
theorem Ensures.stateOf {P : σ → Prop} (h : Ensures m s (fun _ t => P t) (fun _ t => P t)) :
  P (stateOf (m.run s))
  := by
  rw [Ensures] at h
  cases hrun : m.run s with
  | ok a t =>
      rw [hrun] at h
      apply h
  | error e t =>
      rw [hrun] at h
      apply h

/-- What a program makes of what another returns does not matter for the state it leaves. -/
theorem stateOf_bind_pure (m : EStateM ε σ α) (f : α → β) (s : σ) :
  Program.stateOf ((m >>= fun a => pure (f a)).run s) = Program.stateOf (m.run s)
  := by
  rw [EStateM.run_bind]
  cases m.run s with
  | ok a t => rfl
  | error e t => rfl

/-- A run that ensures what it returns and leaves is known. -/
theorem Ensures.run {x : α} {y : σ}
    (h : Ensures m s (fun a t => a = x ∧ t = y) (fun _ _ => False)) :
  m.run s = .ok x y
  := by
  rw [Ensures] at h
  cases hrun : m.run s with
  | ok a t =>
      rw [hrun] at h
      obtain ⟨rfl, rfl⟩ := h
      rfl
  | error e t =>
      rw [hrun] at h
      exact h.elim

theorem ensures_stateOf (m : EStateM ε σ α) (s : σ) :
  Ensures m s (fun _ t => t = Program.stateOf (m.run s)) (fun _ t => t = Program.stateOf (m.run s))
  := by
  rw [Ensures]
  cases m.run s with
  | ok a t => rfl
  | error e t => rfl

/-- What a run ensures holds of what it raises. -/
theorem Ensures.of_raised (h : Ensures m s Q E) {e : ε} (he : raised (m.run s) = some e) :
  E e (Program.stateOf (m.run s))
  := by
  rw [Ensures] at h
  cases hrun : m.run s with
  | ok a t =>
      rw [hrun] at he
      cases he
  | error e' t =>
      rw [hrun] at h he
      obtain rfl := Option.some.inj he
      apply h

/-- What a run ensures that never raises holds of the state it leaves. -/
theorem Ensures.stateOf_of_ok {P : σ → Prop}
    (h : Ensures m s (fun _ t => P t) (fun _ _ => False)) :
  P (Program.stateOf (m.run s))
  := by
  apply Ensures.stateOf
  apply h.mono
  · intro a t ht
    apply ht
  · intro e t hfalse
    apply hfalse.elim

end Rules

/-! ### Programs on related states -/

/-- Two runs return the same or raise the same, and the states they leave are related. -/
inductive Matched (R : σ → τ → Prop) : EStateM.Result ε σ α → EStateM.Result ε τ α → Prop
  | ok (a : α) {s : σ} {t : τ} (h : R s t) : Matched R (.ok a s) (.ok a t)
  | error (e : ε) {s : σ} {t : τ} (h : R s t) : Matched R (.error e s) (.error e t)

theorem Matched.mono {R R' : σ → τ → Prop} {x : EStateM.Result ε σ α}
    {y : EStateM.Result ε τ α} (h : Matched R x y) (hR : ∀ s t, R s t → R' s t) :
  Matched R' x y
  := by
  cases h with
  | ok a h => exact .ok a (hR _ _ h)
  | error e h => exact .error e (hR _ _ h)

theorem Matched.stateOf {R : σ → τ → Prop} {x : EStateM.Result ε σ α}
    {y : EStateM.Result ε τ α} (h : Matched R x y) :
  R (stateOf x) (stateOf y)
  := by
  cases h with
  | ok a h => apply h
  | error e h => apply h

/-- What holds of the first steps of two runs holds of the runs if what follows keeps it. -/
theorem Matched.bind {P R : σ → τ → Prop} {m : EStateM ε σ α} {n : EStateM ε τ α}
    {f : α → EStateM ε σ β} {g : α → EStateM ε τ β} {s : σ} {t : τ}
    (h : Matched P (m.run s) (n.run t)) (herror : ∀ s t, P s t → R s t)
    (hf : ∀ a s t, P s t → Matched R ((f a).run s) ((g a).run t)) :
  Matched R ((m >>= f).run s) ((n >>= g).run t)
  := by
  rw [EStateM.run_bind, EStateM.run_bind]
  revert h
  generalize m.run s = x
  generalize n.run t = y
  intro h
  cases h with
  | ok a h => apply hf a _ _ h
  | error e h => exact .error e (herror _ _ h)

/-- What follows matched runs leaves related states if it does so from related states. -/
theorem Matched.stateOf_bind {P R : σ → τ → Prop} {m : EStateM ε σ α} {n : EStateM ε τ α}
    {f : α → EStateM ε σ β} {g : α → EStateM ε τ β} {s : σ} {t : τ}
    (h : Matched P (m.run s) (n.run t)) (herror : ∀ s t, P s t → R s t)
    (hf : ∀ a s t, P s t → R (Program.stateOf ((f a).run s)) (Program.stateOf ((g a).run t))) :
  R (Program.stateOf ((m >>= f).run s)) (Program.stateOf ((n >>= g).run t))
  := by
  rw [EStateM.run_bind, EStateM.run_bind]
  revert h
  generalize m.run s = x
  generalize n.run t = y
  intro h
  cases h with
  | ok a h => apply hf a _ _ h
  | error e h => apply herror _ _ h

/-- Two runs may read the states they start from. -/
theorem matched_get {R : σ → τ → Prop} {f : σ → EStateM ε σ β} {g : τ → EStateM ε τ β} {s : σ}
    {t : τ} (h : Matched R ((f s).run s) ((g t).run t)) :
  Matched R ((get >>= f).run s) ((get >>= g).run t)
  := h

/-- Two runs leave related states if every pair of states they may leave is related. -/
theorem stateOf_related {R : σ → τ → Prop} {m : EStateM ε σ α} {n : EStateM ε τ β} {s : σ} {t : τ}
    (h : Ensures m s
      (fun _ s' => Ensures n t (fun _ t' => R s' t') (fun _ t' => R s' t'))
      (fun _ s' => Ensures n t (fun _ t' => R s' t') (fun _ t' => R s' t'))) :
  R (stateOf (m.run s)) (stateOf (n.run t))
  := by
  have hn : Ensures n t (fun _ t' => R (stateOf (m.run s)) t')
      (fun _ t' => R (stateOf (m.run s)) t') := h.stateOf
  apply hn.stateOf

/-- A program does the same from related states. -/
def Uniform (R : σ → σ → Prop) (m : EStateM ε σ α) : Prop :=
  ∀ s t, R s t → Matched R (m.run s) (m.run t)

section Uniform

variable {R : σ → σ → Prop} {m : EStateM ε σ α}

theorem uniform_pure (a : α) :
  Uniform R (pure a : EStateM ε σ α)
  := fun _ _ => .ok a

theorem uniform_throw (e : ε) :
  Uniform R (throw e : EStateM ε σ α)
  := fun _ _ => .error e

theorem uniform_modify {f : σ → σ} (h : ∀ s t, R s t → R (f s) (f t)) :
  Uniform R (modify f : EStateM ε σ PUnit)
  := by
  intro s t hst
  have hmatched : Matched (ε := ε) R (.ok PUnit.unit (f s)) (.ok PUnit.unit (f t)) :=
    .ok _ (h s t hst)
  apply hmatched

theorem Uniform.bind (hm : Uniform R m) {f : α → EStateM ε σ β} (hf : ∀ a, Uniform R (f a)) :
  Uniform R (m >>= f)
  := by
  intro s t hst
  apply (hm s t hst).bind
  · intro s t h
    apply h
  · intro a
    apply hf a

/-- A program may read what related states have in common. -/
theorem uniform_get {f : σ → EStateM ε σ β} (hread : ∀ s t, R s t → f t = f s)
    (hf : ∀ s, Uniform R (f s)) :
  Uniform R (get >>= f)
  := by
  intro s t hst
  apply matched_get
  rw [hread s t hst]
  apply hf s s t hst

theorem uniform_ite {p : Prop} [Decidable p] {n : EStateM ε σ α} (hm : Uniform R m)
    (hn : Uniform R n) :
  Uniform R (if p then m else n)
  := by
  split
  · apply hm
  · apply hn

theorem uniform_when {p : Prop} [Decidable p] {m : EStateM ε σ PUnit} (hm : Uniform R m) :
  Uniform R (when p m)
  := uniform_ite hm (uniform_pure _)

theorem uniform_ofExcept (x : Except ε α) :
  Uniform R (ofExcept x)
  := by
  cases x with
  | error e => apply uniform_throw
  | ok a => apply uniform_pure

theorem uniform_demand (e : ε) (x : Option α) :
  Uniform R (demand e x)
  := by
  cases x with
  | none => apply uniform_throw
  | some a => apply uniform_pure

/-- A loop is uniform if every round of it is. -/
theorem uniform_forM {f : β → EStateM ε σ PUnit} {l : List β} (h : ∀ b, Uniform R (f b)) :
  Uniform R (l.forM f)
  := by
  induction l with
  | nil => apply uniform_pure
  | cons b l ih =>
      apply (h b).bind
      intro _
      apply ih

theorem uniform_discard (hm : Uniform R m) :
  Uniform R (discard m)
  := by
  apply hm.bind
  intro a
  apply uniform_pure

end Uniform

/-! ### Programs on a part of the state -/

/-- Runs a program on a part of the state. -/
def onPart (part : σ → τ) (put : τ → σ → σ) (m : EStateM ε τ α) : EStateM ε σ α :=
  fun s =>
    match m (part s) with
    | .ok a t => .ok a (put t s)
    | .error e t => .error e (put t s)

@[simp]
theorem ensures_onPart {part : σ → τ} {put : τ → σ → σ} {m : EStateM ε τ α} {s : σ}
    {Q : α → σ → Prop} {E : ε → σ → Prop} :
  Ensures (onPart part put m) s Q E
    ↔ Ensures m (part s) (fun a t => Q a (put t s)) (fun e t => E e (put t s))
  := by
  simp only [Ensures, EStateM.run, onPart]
  cases m (part s) with
  | ok a t => rfl
  | error e t => rfl

/-- Two runs on parts of the state leave related states if the runs on the parts do. -/
theorem matched_onPart {υ : Type u} {R : σ → τ → Prop} {P : υ → υ → Prop} {part : σ → υ}
    {part' : τ → υ} {put : υ → σ → σ} {put' : υ → τ → τ} {m n : EStateM ε υ α} {s : σ} {t : τ}
    (h : Matched P (m.run (part s)) (n.run (part' t)))
    (hput : ∀ p q, P p q → R (put p s) (put' q t)) :
  Matched R ((onPart part put m).run s) ((onPart part' put' n).run t)
  := by
  show Matched R (onPart part put m s) (onPart part' put' n t)
  rw [onPart, onPart]
  rw [EStateM.run, EStateM.run] at h
  revert h
  generalize m (part s) = x
  generalize n (part' t) = y
  intro h
  cases h with
  | ok a h => exact .ok a (hput _ _ h)
  | error e h => exact .error e (hput _ _ h)

/-- Runs a program and, if it raises, changes the state before the exception goes on. -/
def onRaise (cleanup : σ → σ) (m : EStateM ε σ α) : EStateM ε σ α :=
  fun s =>
    match m s with
    | .ok a t => .ok a t
    | .error e t => .error e (cleanup t)

@[simp]
theorem ensures_onRaise {cleanup : σ → σ} {m : EStateM ε σ α} {s : σ} {Q : α → σ → Prop}
    {E : ε → σ → Prop} :
  Ensures (onRaise cleanup m) s Q E ↔ Ensures m s Q (fun e t => E e (cleanup t))
  := by
  simp only [Ensures, EStateM.run, onRaise]
  cases m s with
  | ok a t => rfl
  | error e t => rfl

theorem matched_onRaise {R : σ → τ → Prop} {cleanup : σ → σ} {cleanup' : τ → τ}
    {m : EStateM ε σ α} {n : EStateM ε τ α} {s : σ} {t : τ} (h : Matched R (m.run s) (n.run t))
    (hcleanup : ∀ s t, R s t → R (cleanup s) (cleanup' t)) :
  Matched R ((onRaise cleanup m).run s) ((onRaise cleanup' n).run t)
  := by
  show Matched R (onRaise cleanup m s) (onRaise cleanup' n t)
  rw [onRaise, onRaise]
  rw [EStateM.run, EStateM.run] at h
  revert h
  generalize m s = x
  generalize n t = y
  intro h
  cases h with
  | ok a h => exact .ok a h
  | error e h => exact .error e (hcleanup _ _ h)

theorem uniform_onRaise {R : σ → σ → Prop} {cleanup : σ → σ} {m : EStateM ε σ α}
    (hm : Uniform R m) (hcleanup : ∀ s t, R s t → R (cleanup s) (cleanup t)) :
  Uniform R (onRaise cleanup m)
  := fun s t hst => matched_onRaise (hm s t hst) hcleanup

/-- Runs a program and, if it raises, another one instead of what is left of it. -/
def rescue (m handler : EStateM ε σ α) : EStateM ε σ α :=
  fun s =>
    match m s with
    | .ok a t => .ok a t
    | .error _ t => handler t

@[simp]
theorem ensures_rescue {m handler : EStateM ε σ α} {s : σ} {Q : α → σ → Prop} {E : ε → σ → Prop} :
  Ensures (rescue m handler) s Q E ↔ Ensures m s Q (fun _ t => Ensures handler t Q E)
  := by
  simp only [Ensures, EStateM.run, rescue]
  cases m s with
  | ok a t => rfl
  | error e t => rfl

/-- Runs a program and then another, however the first ends. -/
def andFinally (m : EStateM ε σ α) (cleanup : EStateM ε σ PUnit) : EStateM ε σ α :=
  fun s =>
    match m s with
    | .ok a t =>
        match cleanup t with
        | .ok _ u => .ok a u
        | .error e u => .error e u
    | .error e t =>
        match cleanup t with
        | .ok _ u => .error e u
        | .error e' u => .error e' u

@[simp]
theorem ensures_andFinally {m : EStateM ε σ α} {cleanup : EStateM ε σ PUnit} {s : σ}
    {Q : α → σ → Prop} {E : ε → σ → Prop} :
  Ensures (andFinally m cleanup) s Q E
    ↔ Ensures m s (fun a t => Ensures cleanup t (fun _ u => Q a u) E)
      (fun e t => Ensures cleanup t (fun _ u => E e u) E)
  := by
  simp only [Ensures, EStateM.run, andFinally]
  cases m s with
  | ok a t =>
      dsimp only
      cases cleanup t with
      | ok b u => rfl
      | error e u => rfl
  | error e t =>
      dsimp only
      cases cleanup t with
      | ok b u => rfl
      | error e' u => rfl

end Program

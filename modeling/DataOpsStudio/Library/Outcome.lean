import Mathlib.Data.List.Forall2
import Mathlib.Tactic.Use

/-!
# Computations that may raise

The inversion laws of sequencing: a sequence of computations returns exactly when each of
them returns.
-/

universe u v

namespace Outcome

variable {ε : Type u} {α β : Type v}

/-- A sequence returns when the first computation returns and so does the second on what
the first returned. -/
theorem bind_eq_ok {x : Except ε α} {f : α → Except ε β} {r : β} :
  (x >>= f) = .ok r ↔ ∃ a, x = .ok a ∧ f a = .ok r
  := by
  cases x with
  | error e =>
      constructor
      · intro h
        cases h
      · rintro ⟨a, ha, -⟩
        cases ha
  | ok a =>
      constructor
      · intro h
        use a, rfl
        apply h
      · rintro ⟨b, hb, hr⟩
        obtain rfl := Except.ok.inj hb
        apply hr

theorem pure_eq_ok {a r : α} :
  (pure a : Except ε α) = .ok r ↔ a = r
  := by
  constructor
  · intro h
    apply Except.ok.inj h
  · rintro rfl
    rfl

/-- A function of a result returns when the computation returns. -/
theorem map_eq_ok {x : Except ε α} {f : α → β} {r : β} :
  x.map f = .ok r ↔ ∃ a, x = .ok a ∧ f a = r
  := by
  cases x with
  | error e =>
      constructor
      · intro h
        cases h
      · rintro ⟨a, ha, -⟩
        cases ha
  | ok a =>
      constructor
      · intro h
        use a, rfl
        apply Except.ok.inj h
      · rintro ⟨b, hb, rfl⟩
        obtain rfl := Except.ok.inj hb
        rfl

theorem bind_pure_eq_map {x : Except ε α} {f : α → β} :
  (x >>= fun a => pure (f a)) = x.map f
  := by
  cases x with
  | error e => rfl
  | ok a => rfl

/-- What is seen of the result of a computation is seen of a result. -/
theorem exists_of_map_toOption {x : Except ε α} {f : α → β} {r : β}
    (h : x.toOption.map f = some r) :
  ∃ a, x = .ok a ∧ f a = r
  := by
  cases x with
  | error e => cases h
  | ok a => exact ⟨a, rfl, Option.some.inj h⟩

theorem exists_of_isSome {x : Except ε α} (h : x.toOption.isSome = true) :
  ∃ a, x = .ok a
  := by
  cases x with
  | error e => cases h
  | ok a => exact ⟨a, rfl⟩

/-- A computation with a function of its result raises what the computation raises. -/
theorem map_eq_error {x : Except ε α} {f : α → β} {e : ε} :
  x.map f = .error e ↔ x = .error e
  := by
  cases x with
  | error e' =>
      constructor
      · intro h
        rw [Except.error.inj h]
      · intro h
        rw [h]
        rfl
  | ok a =>
      constructor
      · intro h
        cases h
      · intro h
        cases h

/-- A sequence raises what one of its computations raises. -/
theorem bind_eq_error {x : Except ε α} {f : α → Except ε β} {e : ε} :
  (x >>= f) = .error e ↔ x = .error e ∨ ∃ a, x = .ok a ∧ f a = .error e
  := by
  cases x with
  | error e' =>
      constructor
      · intro h
        left
        rw [Except.error.inj h]
      · rintro (h | ⟨a, ha, -⟩)
        · rw [h]
          rfl
        · cases ha
  | ok a =>
      constructor
      · intro h
        right
        use a, rfl
        apply h
      · rintro (h | ⟨b, hb, h⟩)
        · cases h
        · obtain rfl := Except.ok.inj hb
          apply h

/-- A computation for every element of a list returns when each of them returns. -/
theorem mapM_eq_ok {f : α → Except ε β} {l : List α} {r : List β} :
  l.mapM f = .ok r ↔ List.Forall₂ (fun a b => f a = .ok b) l r
  := by
  induction l generalizing r with
  | nil =>
      rw [List.mapM_nil, pure_eq_ok, List.forall₂_nil_left_iff, eq_comm]
  | cons a l ih =>
      rw [List.mapM_cons, bind_eq_ok]
      constructor
      · rintro ⟨b, hb, h⟩
        obtain ⟨bs, hbs, h⟩ := bind_eq_ok.mp h
        obtain rfl := pure_eq_ok.mp h
        exact .cons hb (ih.mp hbs)
      · intro h
        obtain ⟨b, bs, hb, hbs, rfl⟩ := List.forall₂_cons_left_iff.mp h
        use b, hb
        apply bind_eq_ok.mpr
        exact ⟨bs, ih.mpr hbs, rfl⟩

/-- What is computed for a list, with a default where a computation raises. -/
theorem mapM_eq_ok_map {f : α → Except ε β} {l : List α} {r : List β} (default : β) :
  l.mapM f = .ok r
    ↔ (∀ a ∈ l, ∃ b, f a = .ok b) ∧ r = l.map (fun a => (f a).toOption.getD default)
  := by
  rw [mapM_eq_ok]
  constructor
  · intro h
    induction h with
    | nil => simp
    | cons hhead _ ih =>
        obtain ⟨hall, rfl⟩ := ih
        constructor
        · intro a ha
          rcases List.mem_cons.mp ha with rfl | ha
          · exact ⟨_, hhead⟩
          · apply hall a ha
        · rw [List.map_cons, hhead]
          rfl
  · rintro ⟨hall, rfl⟩
    rw [List.forall₂_map_right_iff, List.forall₂_same]
    intro a ha
    obtain ⟨b, hb⟩ := hall a ha
    rw [hb]
    rfl

/-- What is computed for a list is computed for one of its elements. -/
theorem exists_of_mem_mapM {f : α → Except ε β} {l : List α} {r : List β} (h : l.mapM f = .ok r)
    {b : β} (hb : b ∈ r) :
  ∃ a ∈ l, f a = .ok b
  := by
  have hforall := mapM_eq_ok.mp h
  clear h
  induction hforall with
  | nil => cases hb
  | @cons a b' _ _ hhead _ ih =>
      rcases List.mem_cons.mp hb with rfl | hb
      · use a, List.mem_cons_self
      · obtain ⟨a', ha', h⟩ := ih hb
        use a', List.mem_cons_of_mem _ ha'

/-- A computation for every element of a list returns when it returns for each element. -/
theorem exists_mapM {f : α → Except ε β} {l : List α} (h : ∀ a ∈ l, ∃ b, f a = .ok b) :
  ∃ r, l.mapM f = .ok r
  := by
  induction l with
  | nil => exact ⟨[], rfl⟩
  | cons a l ih =>
      obtain ⟨b, hb⟩ := h a List.mem_cons_self
      obtain ⟨bs, hbs⟩ := ih (fun a' ha' => h a' (List.mem_cons_of_mem _ ha'))
      use b :: bs
      apply mapM_eq_ok.mpr
      exact .cons hb (mapM_eq_ok.mp hbs)

/-- A computation for every element of a list raises what one of them raises. -/
theorem exists_of_mapM_error {f : α → Except ε β} {l : List α} {e : ε}
    (h : l.mapM f = .error e) :
  ∃ a ∈ l, f a = .error e
  := by
  induction l with
  | nil => cases h
  | cons a l ih =>
      rw [List.mapM_cons] at h
      rcases bind_eq_error.mp h with h | ⟨b, -, h⟩
      · use a, List.mem_cons_self
      · rcases bind_eq_error.mp h with h | ⟨bs, -, h⟩
        · obtain ⟨a', ha', h⟩ := ih h
          use a', List.mem_cons_of_mem _ ha'
        · cases h

theorem mapM_congr {f g : α → Except ε β} {l : List α} (h : ∀ a ∈ l, f a = g a) :
  l.mapM f = l.mapM g
  := by
  induction l with
  | nil => rfl
  | cons a l ih =>
      rw [List.mapM_cons, List.mapM_cons, h a List.mem_cons_self,
        ih (fun b hb => h b (List.mem_cons_of_mem _ hb))]

/-- A function of the result of a sequence is one of the result of its first computation, when
what follows carries one function to the other. -/
theorem map_bind {α' β' : Type v} {x : Except ε α} {k : α → Except ε β}
    {k' : α' → Except ε β'} {f : α → α'} {g : β → β'} (h : ∀ a, (k a).map g = k' (f a)) :
  (x >>= k).map g = x.map f >>= k'
  := by
  cases x with
  | error e => rfl
  | ok a => apply h a

/-- A function of the result of a sequence is carried to what follows the first computation. -/
theorem map_bind_right {β' : Type v} {x : Except ε α} {k : α → Except ε β}
    {k' : α → Except ε β'} {g : β → β'} (h : ∀ a, (k a).map g = k' a) :
  (x >>= k).map g = x >>= k'
  := by
  cases x with
  | error e => rfl
  | ok a => apply h a

theorem map_bind_congr {β' : Type v} {x : Except ε α} {k k' : α → Except ε β} {g : β → β'}
    (h : ∀ a, (k a).map g = (k' a).map g) :
  (x >>= k).map g = (x >>= k').map g
  := (map_bind_right h).trans (map_bind_right (fun _ => rfl)).symm

/-- A sequence depends only on what the second computation looks at in the first result. -/
theorem bind_congr_of_map {γ : Type v} {x y : Except ε α} {k k' : α → Except ε β} {f : α → γ}
    (hx : x.map f = y.map f) (hk : ∀ a b, f a = f b → k a = k' b) :
  x >>= k = y >>= k'
  := by
  cases x with
  | error e =>
      cases y with
      | error e' =>
          rw [Except.error.inj hx]
          rfl
      | ok b => cases hx
  | ok a =>
      cases y with
      | error e' => cases hx
      | ok b => apply hk a b (Except.ok.inj hx)

/-- A function applied to every result of the computations for a list. -/
theorem map_mapM {γ : Type v} (f : α → Except ε β) (g : β → γ) (l : List α) :
  (l.mapM f).map (List.map g) = l.mapM (fun a => (f a).map g)
  := by
  induction l with
  | nil => rfl
  | cons a l ih =>
      rw [List.mapM_cons, List.mapM_cons]
      apply map_bind
      intro b
      rw [← ih]
      apply map_bind
      intro bs
      rfl

/-- The computations for two lists are the same when they are the same in every place. -/
theorem mapM_eq_mapM {γ : Type v} {f : α → Except ε γ} {g : β → Except ε γ} {l : List α}
    {m : List β} (h : List.Forall₂ (fun a b => f a = g b) l m) :
  l.mapM f = m.mapM g
  := by
  induction h with
  | nil => rfl
  | cons hhead _ ih => rw [List.mapM_cons, List.mapM_cons, hhead, ih]

/-- A function of the result of a loop is the result of the loop whose steps it carries to. -/
theorem map_foldlM {σ τ γ : Type v} {f : σ → β → Except ε σ} {f' : τ → γ → Except ε τ}
    {g : σ → τ} {e : β → γ} (h : ∀ s b, (f s b).map g = f' (g s) (e b)) (l : List β) (s : σ) :
  (l.foldlM f s).map g = (l.map e).foldlM f' (g s)
  := by
  induction l generalizing s with
  | nil => rfl
  | cons b l ih =>
      rw [List.map_cons, List.foldlM_cons, List.foldlM_cons, ← h]
      apply map_bind
      intro s'
      apply ih

/-- What every step of a loop keeps holds when the loop returns. -/
theorem foldlM_invariant {γ : Type v} {f : β → γ → Except ε β} {l : List γ} {b r : β}
    (P : β → Prop) (hstart : P b)
    (hstep : ∀ b' c r', c ∈ l → P b' → f b' c = .ok r' → P r') (h : l.foldlM f b = .ok r) :
  P r
  := by
  induction l generalizing b with
  | nil =>
      rw [List.foldlM_nil] at h
      obtain rfl := pure_eq_ok.mp h
      apply hstart
  | cons c l ih =>
      rw [List.foldlM_cons] at h
      obtain ⟨b', hb', h⟩ := bind_eq_ok.mp h
      apply ih (hstep b c b' List.mem_cons_self hstart hb') _ h
      intro b'' c' r' hmem
      apply hstep b'' c' r' (List.mem_cons_of_mem _ hmem)

/-- A loop raises what one of its steps raises. -/
theorem exists_of_foldlM_error {γ : Type v} {f : β → γ → Except ε β} {l : List γ} {b : β} {e : ε}
    (h : l.foldlM f b = .error e) :
  ∃ b' c, c ∈ l ∧ f b' c = .error e
  := by
  induction l generalizing b with
  | nil => cases h
  | cons c l ih =>
      rw [List.foldlM_cons] at h
      rcases bind_eq_error.mp h with h | ⟨b', -, h⟩
      · use b, c, List.mem_cons_self
      · obtain ⟨b'', c', hc', h⟩ := ih h
        use b'', c', List.mem_cons_of_mem _ hc'

end Outcome

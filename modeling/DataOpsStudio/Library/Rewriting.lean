import DataOpsStudio.Library.Text
import Mathlib.Algebra.Ring.Nat

/-!
# Rewriting of texts

A rule that fires nowhere in a text leaves it alone, and a rule whose replacements weigh more than
what they replace changes every text it fires in.  A character that a rule does not see past cuts
the rewriting of a text in two.  Rewriting with replacements that have no dollar sign and no brace
makes no placeholder.
-/

namespace Text

/-- A rule that replaces a number of characters, seeing the character before them. -/
abbrev Rule := Option Char → Text → Option (ℕ × Text)

/-! ### Where a rule fires -/

/-- A rule fires somewhere in a text that stands after a character. -/
def Fires (rule : Rule) (before : Option Char) (s : Text) : Prop :=
  ∃ u t, s = u ++ t ∧ t ≠ [] ∧ rule (u.getLast?.or before) t ≠ none

theorem fires_cons {rule : Rule} {before : Option Char} {c : Char} {s : Text} :
  Fires rule before (c :: s) ↔ rule before (c :: s) ≠ none ∨ Fires rule (some c) s
  := by
  constructor
  · rintro ⟨u, t, hsplit, ht, hfires⟩
    cases u with
    | nil =>
        left
        rw [List.nil_append] at hsplit
        rw [hsplit]
        exact hfires
    | cons d u =>
        right
        obtain ⟨rfl, rfl⟩ := List.cons.inj hsplit
        refine ⟨u, t, rfl, ht, ?_⟩
        cases u with
        | nil => exact hfires
        | cons e u =>
            rw [List.getLast?_cons_cons] at hfires
            rw [List.getLast?_eq_some_getLast (List.cons_ne_nil e u)] at hfires ⊢
            exact hfires
  · rintro (hfires | ⟨u, t, rfl, ht, hfires⟩)
    · exact ⟨[], c :: s, rfl, List.cons_ne_nil c s, hfires⟩
    · refine ⟨c :: u, t, rfl, ht, ?_⟩
      cases u with
      | nil => exact hfires
      | cons e u =>
          rw [List.getLast?_cons_cons]
          rw [List.getLast?_eq_some_getLast (List.cons_ne_nil e u)] at hfires ⊢
          exact hfires

/-- A rule that fires nowhere in a text leaves it alone. -/
theorem rewrite_of_not_fires {rule : Rule} {before : Option Char} {s : Text}
    (h : ¬ Fires rule before s) :
  rewrite rule 0 before s = s
  := by
  induction s generalizing before with
  | nil => rfl
  | cons c s ih =>
      rw [fires_cons, not_or, not_not] at h
      rw [rewrite]
      simp only [h.1]
      rw [ih h.2]

/-- The weight of a text. -/
def weight (w : Char → ℕ) (s : Text) : ℕ := (s.map w).sum

theorem weight_append (w : Char → ℕ) (s t : Text) :
  weight w (s ++ t) = weight w s + weight w t
  := by rw [weight, List.map_append, List.sum_append, weight, weight]

/-- What a rule puts in weighs more than what it takes out. -/
def Gains (w : Char → ℕ) (rule : Rule) : Prop :=
  ∀ before c s length replacement, rule before (c :: s) = some (length, replacement) →
    0 < length ∧ weight w ((c :: s).take length) < weight w replacement

/-- Rewriting by a rule that gains takes no weight away. -/
theorem weight_le_rewrite {w : Char → ℕ} {rule : Rule} (h : Gains w rule) (skip : ℕ)
    (before : Option Char) (s : Text) :
  weight w (s.drop skip) ≤ weight w (rewrite rule skip before s)
  := by
  induction s generalizing skip before with
  | nil => simp [rewrite]
  | cons c s ih =>
      cases skip with
      | succ skip => exact ih skip (some c)
      | zero =>
          rw [List.drop_zero, rewrite]
          cases hrule : rule before (c :: s) with
          | none =>
              have hrest := ih 0 (some c)
              simp only [weight, List.map_cons, List.sum_cons, List.drop_zero] at hrest ⊢
              omega
          | some result =>
              obtain ⟨length, replacement⟩ := result
              obtain ⟨hpos, hgain⟩ := h before c s length replacement hrule
              have hrest := ih (length - 1) (some c)
              have hsplit := weight_append w ((c :: s).take length) ((c :: s).drop length)
              have hdrop : (c :: s).drop length = s.drop (length - 1) := by
                obtain ⟨n, rfl⟩ := Nat.exists_eq_succ_of_ne_zero hpos.ne'
                rfl
              rw [List.take_append_drop, hdrop] at hsplit
              simp only [weight_append]
              omega

/-- A rule that gains changes every text in which it fires. -/
theorem weight_lt_rewrite {w : Char → ℕ} {rule : Rule} (h : Gains w rule) {before : Option Char}
    {s : Text} (hfires : Fires rule before s) :
  weight w s < weight w (rewrite rule 0 before s)
  := by
  induction s generalizing before with
  | nil =>
      obtain ⟨u, t, hsplit, ht, -⟩ := hfires
      exact absurd (List.append_eq_nil_iff.mp hsplit.symm).2 ht
  | cons c s ih =>
      rw [rewrite]
      cases hrule : rule before (c :: s) with
      | none =>
          rw [fires_cons, hrule] at hfires
          have hrest := ih (hfires.resolve_left (fun hne => hne rfl))
          simp only [weight, List.map_cons, List.sum_cons] at hrest ⊢
          omega
      | some result =>
          obtain ⟨length, replacement⟩ := result
          obtain ⟨hpos, hgain⟩ := h before c s length replacement hrule
          have hrest := weight_le_rewrite h (length - 1) (some c) s
          have hsplit := weight_append w ((c :: s).take length) ((c :: s).drop length)
          have hdrop : (c :: s).drop length = s.drop (length - 1) := by
            obtain ⟨n, rfl⟩ := Nat.exists_eq_succ_of_ne_zero hpos.ne'
            rfl
          rw [List.take_append_drop, hdrop] at hsplit
          simp only [weight_append]
          omega

/-! ### Characters that cut -/

/-- A rule does not see past a character: it does not fire at it, before it everything is as if
the text ended there, and after it as if the text began there. -/
structure Cuts (rule : Rule) (c : Char) : Prop where
  idle : ∀ before s, rule before (c :: s) = none
  ends : ∀ before d u s, rule before (d :: u ++ c :: s) = rule before (d :: u)
  short : ∀ before d u length replacement,
    rule before (d :: u) = some (length, replacement) → length ≤ u.length + 1
  begins : ∀ s, rule (some c) s = rule none s

theorem rewrite_congr_before {rule : Rule} {before before' : Option Char}
    (h : ∀ s, rule before s = rule before' s) (skip : ℕ) (s : Text) :
  rewrite rule skip before s = rewrite rule skip before' s
  := by
  cases s with
  | nil => cases skip <;> rfl
  | cons c s =>
      cases skip with
      | zero => rw [rewrite, rewrite, h]
      | succ skip => rfl

theorem rewrite_append_of_cuts {rule : Rule} {c : Char} (h : Cuts rule c) (s : Text)
    {skip : ℕ} {before : Option Char} {u : Text} (hskip : skip ≤ u.length) :
  rewrite rule skip before (u ++ c :: s) = rewrite rule skip before u ++ c :: rewrite rule 0 none s
  := by
  induction u generalizing skip before with
  | nil =>
      obtain rfl := Nat.le_zero.mp hskip
      simp only [List.nil_append, rewrite, h.idle]
      rw [rewrite_congr_before h.begins]
  | cons d u ih =>
      cases skip with
      | succ skip =>
          rw [List.cons_append, rewrite, rewrite]
          exact ih (Nat.le_of_succ_le_succ hskip)
      | zero =>
          rw [List.cons_append, rewrite, rewrite, ← List.cons_append, h.ends]
          cases hrule : rule before (d :: u) with
          | none =>
              simp only [List.cons_append]
              rw [ih (Nat.zero_le _)]
          | some result =>
              obtain ⟨length, replacement⟩ := result
              have hshort := h.short before d u length replacement hrule
              simp only [List.append_assoc]
              rw [ih (by omega)]

/-- The rewriting of a text is cut in two at a character that the rule does not see past. -/
theorem rewrite_cut {rule : Rule} {c : Char} (h : Cuts rule c) (u s : Text) :
  rewrite rule 0 none (u ++ c :: s) = rewrite rule 0 none u ++ c :: rewrite rule 0 none s
  := rewrite_append_of_cuts h s (Nat.zero_le _)

/-- Rewriting keeps a property of characters that the replacements have. -/
theorem forall_mem_rewrite {rule : Rule} {p : Char → Prop}
    (h : ∀ before s length replacement, rule before s = some (length, replacement) →
      ∀ c ∈ replacement, p c)
    {skip : ℕ} {before : Option Char} {s : Text} (hs : ∀ c ∈ s, p c) :
  ∀ c ∈ rewrite rule skip before s, p c
  := by
  induction s generalizing skip before with
  | nil => simp [rewrite]
  | cons d s ih =>
      have hrest : ∀ {k : ℕ} {b : Option Char}, ∀ c ∈ rewrite rule k b s, p c :=
        ih (fun c hc => hs c (List.mem_cons_of_mem _ hc))
      cases skip with
      | succ skip => exact hrest
      | zero =>
          rw [rewrite]
          cases hrule : rule before (d :: s) with
          | none =>
              intro c hc
              obtain rfl | hc := List.mem_cons.mp hc
              · exact hs c List.mem_cons_self
              · exact hrest c hc
          | some result =>
              intro c hc
              obtain hc | hc := List.mem_append.mp hc
              · exact h before (d :: s) result.1 result.2 hrule c hc
              · exact hrest c hc

/-! ### Several rules in turn -/

/-- A text rewritten by several rules, one after the other. -/
def rewriteAll (rules : List Rule) (s : Text) : Text :=
  rules.foldl (fun s rule => rewrite rule 0 none s) s

section Rules

variable {rules : List Rule}

theorem rewriteAll_cut {c : Char} (h : ∀ rule ∈ rules, Cuts rule c) (u s : Text) :
  rewriteAll rules (u ++ c :: s) = rewriteAll rules u ++ c :: rewriteAll rules s
  := by
  induction rules generalizing u s with
  | nil => rfl
  | cons rule rules ih =>
      have hrest := ih (fun r hr => h r (List.mem_cons_of_mem _ hr))
      change rewriteAll rules (rewrite rule 0 none (u ++ c :: s)) = _
      rw [rewrite_cut (h rule List.mem_cons_self), hrest]
      rfl

theorem rewriteAll_of_not_fires {s : Text} (h : ∀ rule ∈ rules, ¬ Fires rule none s) :
  rewriteAll rules s = s
  := by
  induction rules with
  | nil => rfl
  | cons rule rules ih =>
      change rewriteAll rules (rewrite rule 0 none s) = s
      rw [rewrite_of_not_fires (h rule List.mem_cons_self)]
      exact ih (fun r hr => h r (List.mem_cons_of_mem _ hr))

theorem weight_le_rewriteAll {w : Char → ℕ} (h : ∀ rule ∈ rules, Gains w rule) (s : Text) :
  weight w s ≤ weight w (rewriteAll rules s)
  := by
  induction rules generalizing s with
  | nil => exact Nat.le_refl _
  | cons rule rules ih =>
      have hfirst := weight_le_rewrite (h rule List.mem_cons_self) 0 none s
      have hrest := ih (fun r hr => h r (List.mem_cons_of_mem _ hr)) (rewrite rule 0 none s)
      exact Nat.le_trans hfirst hrest

/-- Rules that gain leave a text alone exactly when none of them fires in it. -/
theorem rewriteAll_eq_self_iff {w : Char → ℕ} (h : ∀ rule ∈ rules, Gains w rule) {s : Text} :
  rewriteAll rules s = s ↔ ∀ rule ∈ rules, ¬ Fires rule none s
  := by
  constructor
  · induction rules with
    | nil => simp
    | cons rule rules ih =>
        intro heq
        have hrules : ∀ r ∈ rules, Gains w r := fun r hr => h r (List.mem_cons_of_mem _ hr)
        have hidle : ¬ Fires rule none s := by
          intro hfires
          have hfirst := weight_lt_rewrite (h rule List.mem_cons_self) hfires
          have hrest := weight_le_rewriteAll hrules (rewrite rule 0 none s)
          have hall : weight w (rewriteAll rules (rewrite rule 0 none s)) = weight w s :=
            congrArg (weight w) heq
          omega
        have hsame : rewriteAll rules s = s := by
          change rewriteAll rules (rewrite rule 0 none s) = s at heq
          rwa [rewrite_of_not_fires hidle] at heq
        intro r hr
        obtain rfl | hr := List.mem_cons.mp hr
        · exact hidle
        · exact ih hrules hsame r hr
  · exact rewriteAll_of_not_fires

theorem forall_mem_rewriteAll {p : Char → Prop}
    (h : ∀ rule ∈ rules, ∀ before s length replacement,
      rule before s = some (length, replacement) → ∀ c ∈ replacement, p c)
    {s : Text} (hs : ∀ c ∈ s, p c) :
  ∀ c ∈ rewriteAll rules s, p c
  := by
  induction rules generalizing s with
  | nil => exact hs
  | cons rule rules ih =>
      apply ih (fun r hr => h r (List.mem_cons_of_mem _ hr))
      exact forall_mem_rewrite (h rule List.mem_cons_self) hs

end Rules

end Text

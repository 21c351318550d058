import DataOpsStudio.Library.Rewriting

/-!
# Templates

The pieces of a template, and what it is substituted to, computed from left to right: a text that
opens no placeholder stands for itself, and a placeholder is rendered and the rest follows.
-/

namespace Text

/-- The text of a placeholder. -/
def placeholderOf (expression : Text) : Text := '$' :: '{' :: expression ++ ['}']

/-! ### Pieces -/

theorem piecesFrom_append (u s : Text) :
  piecesFrom u.length (u ++ s) = pieces s
  := by
  induction u with
  | nil => rfl
  | cons c u ih => exact ih

theorem placeholder?_eq_some {expression : Text} (h : '}' ∉ expression) (s : Text) :
  placeholder? ('{' :: expression ++ '}' :: s) = some expression
  := by
  have hmem : '}' ∈ expression ++ '}' :: s := List.mem_append_right _ List.mem_cons_self
  have htake : (expression ++ '}' :: s).takeWhile (· ≠ '}') = expression := by
    rw [List.takeWhile_append_of_pos]
    · simp
    · intro c hc
      simpa using fun heq : c = '}' => h (heq ▸ hc)
  rw [List.cons_append, placeholder?]
  simp only [hmem, if_true, htake]

/-- A placeholder in front of a text is a piece of its own. -/
theorem pieces_placeholder {expression : Text} (h : '}' ∉ expression) (s : Text) :
  pieces (placeholderOf expression ++ s) = .placeholder expression :: pieces s
  := by
  have hskip := piecesFrom_append ('{' :: expression ++ ['}']) s
  have hsplit : ('{' :: expression ++ ['}']) ++ s = '{' :: expression ++ '}' :: s := by simp
  have hlength : ('{' :: expression ++ ['}']).length = expression.length + 2 := by simp
  rw [hsplit, hlength] at hskip
  have hplaceholder : placeholderOf expression ++ s = '$' :: ('{' :: expression ++ '}' :: s) := by
    simp [placeholderOf]
  rw [hplaceholder, pieces, piecesFrom]
  simp only [if_true, placeholder?_eq_some h, hskip]

theorem placeholder?_eq_none {s : Text} (h : ∀ t, s = '{' :: t → '}' ∉ t) :
  placeholder? s = none
  := by
  cases s with
  | nil => rfl
  | cons c s =>
      by_cases hc : c = '{'
      · subst hc
        rw [placeholder?, if_neg (h s rfl)]
      · unfold placeholder?
        split
        · rename_i heq
          exact absurd (List.cons.inj heq).1 hc
        · rfl

/-- A character that opens no placeholder stands for itself. -/
theorem pieces_literal {c : Char} {s : Text} (h : ∀ t, c :: s = '$' :: '{' :: t → '}' ∉ t) :
  pieces (c :: s) = .literal c :: pieces s
  := by
  have hnone : (if c = '$' then placeholder? s else none) = none := by
    split
    · rename_i hc
      subst hc
      apply placeholder?_eq_none
      rintro t rfl
      exact h t rfl
    · rfl
  rw [pieces, piecesFrom]
  simp only [hnone]
  rfl

/-- A text that opens no placeholder, before a text that does not complete an opening. -/
theorem pieces_append {u t : Text} (hopen : ¬ ['$', '{'] <:+: u) (ht : t.head? ≠ some '{') :
  pieces (u ++ t) = u.map .literal ++ pieces t
  := by
  induction u with
  | nil => rfl
  | cons c u ih =>
      have hrest : ¬ ['$', '{'] <:+: u := fun h =>
        hopen (h.trans (List.suffix_cons c u).isInfix)
      rw [List.cons_append, pieces_literal, ih hrest]
      · rfl
      · intro r hsplit
        obtain ⟨rfl, hnext⟩ := List.cons.inj hsplit
        cases u with
        | nil =>
            rw [List.nil_append] at hnext
            rw [hnext] at ht
            exact absurd rfl ht
        | cons d u =>
            obtain ⟨rfl, -⟩ := List.cons.inj hnext
            exact absurd ⟨[], u, rfl⟩ hopen

/-- A text has no placeholder when no opening in it is closed. -/
theorem placeholders_eq_nil_iff {s : Text} :
  placeholders s = [] ↔ ∀ t, '$' :: '{' :: t <:+ s → '}' ∉ t
  := by
  induction s with
  | nil =>
      constructor
      · intro _ t ht
        exact absurd (List.suffix_nil.mp ht) (List.cons_ne_nil _ _)
      · intro _
        rfl
  | cons c s ih =>
      by_cases hopen : ∃ t, c :: s = '$' :: '{' :: t ∧ '}' ∈ t
      · obtain ⟨t, hsplit, hclosed⟩ := hopen
        obtain ⟨e, r, rfl, he⟩ := List.eq_append_cons_of_mem hclosed
        have hpieces := pieces_placeholder he r
        have hplaceholder : placeholderOf e ++ r = '$' :: '{' :: (e ++ '}' :: r) := by
          simp [placeholderOf]
        rw [hplaceholder, ← hsplit] at hpieces
        constructor
        · intro hnil
          rw [placeholders, hpieces] at hnil
          exact absurd hnil (List.cons_ne_nil _ _)
        · intro h
          exact absurd hclosed (h _ (hsplit ▸ List.suffix_refl _))
      · have hopen' : ∀ t, c :: s = '$' :: '{' :: t → '}' ∉ t := fun t ht hclosed =>
          hopen ⟨t, ht, hclosed⟩
        have hpieces : placeholders (c :: s) = placeholders s := by
          rw [placeholders, pieces_literal hopen']
          rfl
        rw [hpieces, ih]
        constructor
        · intro h t ht
          obtain ht | ht := List.suffix_cons_iff.mp ht
          · exact hopen' t ht.symm
          · exact h t ht
        · intro h t ht
          exact h t (ht.trans (List.suffix_cons c s))

theorem pieces_of_placeholders_eq_nil {s : Text} (h : placeholders s = []) :
  pieces s = s.map .literal
  := by
  induction s with
  | nil => rfl
  | cons c s ih =>
      rw [placeholders_eq_nil_iff] at h
      rw [pieces_literal (fun t ht => h t (ht ▸ List.suffix_refl _)), ih]
      · rfl
      · rw [placeholders_eq_nil_iff]
        exact fun t ht => h t (ht.trans (List.suffix_cons c s))

/-- A text between two texts that neither open nor close a placeholder. -/
theorem placeholders_between {u s v : Text} (hu : '$' ∉ u)
    (hv : ∀ c ∈ v, c ≠ '$' ∧ c ≠ '{' ∧ c ≠ '}') (h : placeholders s = []) :
  placeholders (u ++ s ++ v) = []
  := by
  have hright : ∀ t, '$' :: '{' :: t <:+ s ++ v → '}' ∉ t := by
    rw [placeholders_eq_nil_iff] at h
    induction s with
    | nil =>
        intro t ht
        exact absurd rfl (hv '$' (ht.subset List.mem_cons_self)).1
    | cons c s ih =>
        intro t ht
        obtain ht | ht := List.suffix_cons_iff.mp ht
        · obtain ⟨rfl, hnext⟩ := List.cons.inj ht
          cases s with
          | nil =>
              have hnext : '{' :: t = v := hnext
              exact absurd rfl (hv '{' (hnext ▸ List.mem_cons_self)).2.1
          | cons d s =>
              obtain ⟨rfl, rfl⟩ := List.cons.inj hnext
              intro hclosed
              obtain hclosed | hclosed := List.mem_append.mp hclosed
              · exact h s (List.suffix_refl _) hclosed
              · exact (hv '}' hclosed).2.2 rfl
        · exact ih (fun r hr => h r (hr.trans (List.suffix_cons c s))) t ht
  rw [placeholders_eq_nil_iff, List.append_assoc]
  induction u with
  | nil => exact hright
  | cons c u ih =>
      rw [List.mem_cons, not_or] at hu
      intro t ht
      obtain ht | ht := List.suffix_cons_iff.mp ht
      · exact absurd (List.cons.inj ht).1 hu.1
      · exact ih hu.2 t ht

/-- A text opens no placeholder when a brace after it closes none. -/
theorem not_opens_iff {t : Text} :
  ¬ ['$', '{'] <:+: t ↔ placeholders (t ++ ['}']) = []
  := by
  rw [placeholders_eq_nil_iff]
  constructor
  · rintro h r ⟨a, hsplit⟩
    exfalso
    obtain rfl | ⟨r', c, rfl⟩ := List.eq_nil_or_concat r
    · have hlast := congrArg List.getLast? hsplit
      simp at hlast
    · have hsplit : (a ++ '$' :: '{' :: r') ++ [c] = t ++ ['}'] := by simpa using hsplit
      obtain ⟨hcut, -⟩ := List.append_inj' hsplit rfl
      exact h ⟨a, r', by simpa using hcut⟩
  · rintro h ⟨a, b, rfl⟩
    apply h (b ++ ['}'])
    · exact ⟨a, by simp⟩
    · exact List.mem_append_right _ List.mem_cons_self

/-! ### Substitution -/

section Substitution

variable {ε : Type} (f : Text → Except ε Text)

theorem substitute_of_pieces {u s t : Text} (h : pieces s = u.map .literal ++ pieces t) :
  substitute f s = (substitute f t).map (u ++ ·)
  := by
  rw [substitute, h]
  clear h
  induction u with
  | nil =>
      rw [substitute, List.map_nil, List.nil_append]
      cases (pieces t).mapM (Piece.render f) <;> rfl
  | cons c u ih =>
      rw [substitute] at ih ⊢
      rw [List.map_cons, List.cons_append, List.mapM_cons]
      cases hrest : (u.map Piece.literal ++ pieces t).mapM (Piece.render f) with
      | error message =>
          rw [hrest] at ih
          cases ht : (pieces t).mapM (Piece.render f) with
          | error message' =>
              rw [ht] at ih
              exact ih
          | ok rendered =>
              rw [ht] at ih
              cases ih
      | ok texts =>
          rw [hrest] at ih
          cases ht : (pieces t).mapM (Piece.render f) with
          | error message' =>
              rw [ht] at ih
              cases ih
          | ok rendered =>
              rw [ht] at ih
              have heq : texts.flatten = u ++ rendered.flatten := Except.ok.inj ih
              change Except.ok ([c] ++ texts.flatten) = Except.ok (c :: u ++ rendered.flatten)
              rw [heq]
              rfl

/-- A placeholder is rendered, and the rest of the template after it. -/
theorem substitute_placeholder {expression : Text} (h : '}' ∉ expression) (s : Text) :
  substitute f (placeholderOf expression ++ s)
    = (f expression).bind fun rendered => (substitute f s).map (rendered ++ ·)
  := by
  rw [substitute, pieces_placeholder h, List.mapM_cons, substitute]
  change ((f expression).bind fun rendered =>
    ((pieces s).mapM (Piece.render f)).bind fun rest => .ok (rendered :: rest)).map _ = _
  cases f expression with
  | error message => rfl
  | ok rendered => cases (pieces s).mapM (Piece.render f) <;> rfl

/-- A text without placeholders stands for itself. -/
theorem substitute_of_placeholders_eq_nil {s : Text} (h : placeholders s = []) :
  substitute f s = .ok s
  := by
  rw [substitute_of_pieces f (u := s) (t := [])]
  · rw [substitute]
    change Except.ok (s ++ []) = Except.ok s
    rw [List.append_nil]
  · rw [pieces_of_placeholders_eq_nil h]
    exact (List.append_nil _).symm

end Substitution

/-! ### Templates that are rewritten -/

/-- Rewriting makes no placeholder when its replacements have no dollar sign and no brace. -/
theorem placeholders_rewrite {rule : Rule} {skip : ℕ} {before : Option Char} {s : Text}
    (hrule : ∀ before s length replacement, rule before s = some (length, replacement) →
      replacement ≠ [] ∧ ∀ c ∈ replacement, c ≠ '$' ∧ c ≠ '{' ∧ c ≠ '}')
    (h : placeholders s = []) :
  placeholders (rewrite rule skip before s) = []
  := by
  rw [placeholders_eq_nil_iff] at h ⊢
  induction s generalizing skip before with
  | nil =>
      intro t ht
      rw [rewrite, List.suffix_nil] at ht
      exact absurd ht (List.cons_ne_nil _ _)
  | cons c s ih =>
      have hrest : ∀ {k : ℕ} {b : Option Char} t,
          '$' :: '{' :: t <:+ rewrite rule k b s → '}' ∉ t :=
        ih (fun t ht => h t (ht.trans (List.suffix_cons c s)))
      have hclosing : ∀ {k : ℕ} {b : Option Char} {r : Text},
          '}' ∈ rewrite rule k b r → '}' ∈ r := by
        intro k b r hmem
        by_contra hnot
        refine forall_mem_rewrite (p := fun c => c ≠ '}') ?_ ?_ '}' hmem rfl
        · intro b s length replacement heq c hc
          exact ((hrule b s length replacement heq).2 c hc).2.2
        · intro c hc heq
          exact hnot (heq ▸ hc)
      cases skip with
      | succ skip => exact hrest
      | zero =>
          intro t ht
          rw [rewrite] at ht
          cases hfires : rule before (c :: s) with
          | some result =>
              obtain ⟨length, replacement⟩ := result
              rw [hfires] at ht
              obtain ⟨-, hplain⟩ := hrule before (c :: s) length replacement hfires
              simp only at ht
              clear hfires
              induction replacement with
              | nil => exact hrest t ht
              | cons d replacement ihr =>
                  obtain ht | ht := List.suffix_cons_iff.mp ht
                  · exact absurd (List.cons.inj ht).1.symm (hplain d List.mem_cons_self).1
                  · exact ihr ht (fun e he => hplain e (List.mem_cons_of_mem _ he))
          | none =>
              rw [hfires] at ht
              simp only at ht
              obtain ht | ht := List.suffix_cons_iff.mp ht
              · obtain ⟨rfl, ht⟩ := List.cons.inj ht
                intro hmem
                cases s with
                | nil => cases ht
                | cons d s =>
                    rw [rewrite] at ht
                    cases hnext : rule (some '$') (d :: s) with
                    | some result =>
                        obtain ⟨length, replacement⟩ := result
                        rw [hnext] at ht
                        obtain ⟨hne, hplain⟩ := hrule _ _ length replacement hnext
                        obtain ⟨e, replacement, rfl⟩ := List.exists_cons_of_ne_nil hne
                        obtain ⟨heq, -⟩ := List.cons.inj ht
                        exact (hplain e List.mem_cons_self).2.1 heq.symm
                    | none =>
                        rw [hnext] at ht
                        obtain ⟨rfl, ht⟩ := List.cons.inj ht
                        apply h s (List.suffix_refl _)
                        exact hclosing (ht ▸ hmem)
              · exact hrest t ht

theorem placeholders_rewriteAll {rules : List Rule} {s : Text}
    (hrules : ∀ rule ∈ rules, ∀ before s length replacement,
      rule before s = some (length, replacement) →
        replacement ≠ [] ∧ ∀ c ∈ replacement, c ≠ '$' ∧ c ≠ '{' ∧ c ≠ '}')
    (h : placeholders s = []) :
  placeholders (rewriteAll rules s) = []
  := by
  induction rules generalizing s with
  | nil => exact h
  | cons rule rules ih =>
      apply ih (fun r hr => hrules r (List.mem_cons_of_mem _ hr))
      exact placeholders_rewrite (hrules rule List.mem_cons_self) h

end Text

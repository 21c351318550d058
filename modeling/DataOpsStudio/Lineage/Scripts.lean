import DataOpsStudio.Library.Rewriting
import DataOpsStudio.Lineage.Plsql

/-!
# Scripts that keep their statements

A script puts statements one after the other, with semicolons behind them and with white space and
line comments in between, alone or between `BEGIN` and `END`.  It gives its statements back exactly
when no statement holds two dashes, an end of a line other than a line feed, or white space at an
end, and when no statement of a script without a block holds the word `BEGIN`.
-/

namespace Lineage

open Text

/-! ### Scripts -/

/-- A statement.  Its literals are closed, it begins with a keyword, and outside its literals it
holds no semicolon, no comment and neither `BEGIN` nor `END`. -/
structure Statement (a : Alphabet) where
  text : Text
  shown : Text
  outside_eq : outside everyQuote none text = some shown
  starts : ∃ word ∈ dmlKeywords, KeywordAt a word.toList none text
  noSemicolon : ';' ∉ shown
  noLineComment : Uncommented shown
  noBlockComment : shown.IsChain (fun c d => ¬(c = '/' ∧ d = '*'))
  noBegin : ¬ Occurs a "begin".toList shown
  noEnd : ¬ Occurs a "end".toList shown

/-- What may stand between statements: white space, or a comment up to the end of its line. -/
inductive Blank where
  | space (c : Char) (h : isSpace c = true)
  | comment (s : Text) (h : ∀ c ∈ s, isLineEnd c = false)

def Blank.text : Blank → Text
  | space c _ => [c]
  | comment s _ => "--".toList ++ s ++ ['\n']

def blanksText (blanks : List Blank) : Text := blanks.flatMap Blank.text

/-- White space. -/
abbrev Spaces := {w : Text // ∀ c ∈ w, isSpace c = true}

section Layout

variable {a : Alphabet} {γ : Type}

/-- Statements with a semicolon and a gap behind each, in front of a text. -/
def itemsText (f : Statement a → Text) (g : γ → Text) : List (Statement a × γ) → Text → Text
  | [], tail => tail
  | item :: items, tail => f item.1 ++ ';' :: (g item.2 ++ itemsText f g items tail)

variable (a γ) in
/-- Statements one after the other, with gaps of some kind.  The last one may go without a
semicolon. -/
structure Layout where
  front : γ
  items : List (Statement a × γ)
  last : Option (Statement a × γ)

/-- The text of a layout, for the texts of its statements and gaps. -/
def Layout.text (f : Statement a → Text) (g : γ → Text) (layout : Layout a γ) : Text :=
  g layout.front ++ itemsText f g layout.items (layout.last.elim [] (fun p => f p.1 ++ g p.2))

def Layout.statements (layout : Layout a γ) : List (Statement a) :=
  layout.items.map Prod.fst ++ (layout.last.map Prod.fst).toList

end Layout

/-- The words around a block, in letters of either case, and what stands outside of them. -/
structure Wrapper where
  before : List Blank
  beginWord : Text
  beginWord_eq : beginWord.map Char.toLower = "begin".toList
  endWord : Text
  endWord_eq : endWord.map Char.toLower = "end".toList
  behind : List Blank

/-- A script: statements, alone or in a block.  A comment stands behind a semicolon or white space,
and white space around the words of a block. -/
structure Script (a : Alphabet) where
  wrapper : Option Wrapper
  layout : Layout a (List Blank)
  apart : ∀ p ∈ layout.last, ∀ blank ∈ p.2.head?, blank.text.head? ≠ some '-'
  separated : wrapper.isSome = true → layout.front ≠ [] ∧ ∀ p ∈ layout.last, p.2 ≠ []

namespace Script

variable {a : Alphabet}

def text (script : Script a) : Text :=
  let body := script.layout.text Statement.text blanksText
  match script.wrapper with
  | none => body
  | some wrapper =>
      blanksText wrapper.before ++ (wrapper.beginWord ++ (body
        ++ (wrapper.endWord ++ ';' :: blanksText wrapper.behind)))

/-- The statements come back as they are. -/
def KeepsStatements (script : Script a) : Prop :=
  splitPlsqlStatements a script.text = script.layout.statements.map Statement.text

end Script

/-- A statement that no pass touches: without two dashes, without an end of a line other than a line
feed, and without white space at its ends. -/
structure Statement.Untouched {a : Alphabet} (s : Statement a) : Prop where
  uncommented : Uncommented s.text
  lineEnds : ∀ c ∈ s.text, isLineEnd c = true → c = '\n'
  stripped : strip s.text = s.text

/-! ### The ends of a statement -/

section Statement

variable {a : Alphabet} (s : Statement a)

theorem Statement.exists_cons : ∃ c rest, s.text = c :: rest ∧ c.isAlpha = true := by
  obtain ⟨word, hmem, hkeyword⟩ := s.starts
  obtain ⟨hne, hletters⟩ := dmlKeywords_letters word hmem
  have hle := length_le_of_startsWith hkeyword.2.1
  have hpos := List.length_pos_of_ne_nil hne
  obtain ⟨c, rest, hs⟩ := List.exists_cons_of_ne_nil
    (List.ne_nil_of_length_pos (Nat.lt_of_lt_of_le hpos hle))
  refine ⟨c, rest, hs, ?_⟩
  apply isAlpha_of_startsWith hletters hkeyword.2.1
  obtain ⟨n, hn⟩ := Nat.exists_eq_succ_of_ne_zero (Nat.ne_of_gt hpos)
  rw [hs, hn, List.take_succ_cons]
  apply List.mem_cons_self

theorem Statement.text_ne_nil : s.text ≠ [] := by
  obtain ⟨c, rest, hs, -⟩ := s.exists_cons
  rw [hs]
  apply List.cons_ne_nil

/-- A statement begins with a letter. -/
theorem Statement.head?_ne {c : Char} (hc : c.isAlpha = false) : s.text.head? ≠ some c := by
  obtain ⟨d, rest, hs, hd⟩ := s.exists_cons
  rw [hs]
  rintro heq
  obtain rfl := Option.some.inj heq
  rw [hc] at hd
  cases hd

/-- What ends outside of a literal ends with what is shown there, or with a quote. -/
theorem getLast?_of_outside {literal : Option Char} {u t : Text} {c : Char}
    (hl : ∀ quote, literal = some quote → isQuote quote = true)
    (hu : outside everyQuote literal u = some t) (hc : u.getLast? = some c) :
  isQuote c = true ∨ c ∈ t
  := by
  induction u generalizing literal t with
  | nil => cases hc
  | cons d u ih =>
      obtain ⟨t, ht, rfl⟩ := outside_cons.mp hu
      by_cases hu : u = []
      · subst hu
        obtain rfl := Option.some.inj hc
        rw [outside] at ht
        split at ht
        · next hnone =>
            cases literal with
            | none =>
                cases hquote : isQuote d with
                | true =>
                    left
                    exact hquote
                | false =>
                    right
                    rw [shown, hquote]
                    apply List.mem_cons_self
            | some quote =>
                left
                rw [literalAfter] at hnone
                split at hnone
                · next hend =>
                    rw [hend.1]
                    apply hl quote rfl
                · cases hnone
        · cases ht
      · rw [List.getLast?_cons_of_ne_nil hu] at hc
        rcases ih (isQuote_of_literalAfter hl) ht hc with hquote | hmem
        · left
          apply hquote
        · right
          apply List.mem_cons_of_mem _ hmem

theorem Statement.getLast?_ne : s.text.getLast? ≠ some ';' := by
  intro hlast
  rcases getLast?_of_outside (fun _ h => by cases h) s.outside_eq hlast with hquote | hmem
  · cases hquote
  · exact s.noSemicolon hmem

end Statement

/-! ### Comments between statements -/

section Uncommented

variable {a : Alphabet}

theorem beforeComment_nil : beforeComment [] = [] := rfl

theorem blanksText_cons (blank : Blank) (blanks : List Blank) :
  blanksText (blank :: blanks) = blank.text ++ blanksText blanks
  := List.flatMap_cons

/-- Of a blank only white space is left. -/
theorem Blank.exists_mapLines (blank : Blank) (afterReturn : Bool) (s : Text) :
  ∃ (w : Spaces) (after : Bool),
    mapLines beforeComment afterReturn (blank.text ++ s) = w.1 ++ mapLines beforeComment after s
      ∧ (afterReturn = false → (∀ r, splitlinesFrom r s ≠ []) → w.1 ≠ [])
  := by
  have hend : ∀ (c : Char) (afterReturn : Bool), isLineEnd c = true → ∃ (w : Spaces) (after : Bool),
      mapLines beforeComment afterReturn (c :: s) = w.1 ++ mapLines beforeComment after s
        ∧ (afterReturn = false → (∀ r, splitlinesFrom r s ≠ []) → w.1 ≠ []) := by
    intro c afterReturn hc
    obtain ⟨w, hw, heq, hne⟩ := exists_mapLines_lineEnd afterReturn s
      beforeComment_nil hc
    refine ⟨⟨w, hw⟩, c == '\r', heq, ?_⟩
    rintro rfl hlines
    apply hne (hlines _) rfl
  cases blank with
  | space c h =>
      cases hc : isLineEnd c with
      | true => apply hend c _ hc
      | false =>
          refine ⟨⟨[c], by simpa using h⟩, false, ?_, fun _ _ => List.cons_ne_nil _ _⟩
          apply mapLines_beforeComment_cons hc
          rintro ⟨rest, hrest⟩
          change '-' :: '-' :: rest = c :: s at hrest
          obtain ⟨rfl, -⟩ := List.cons.inj hrest
          cases h
  | comment u h =>
      obtain ⟨w, after, heq, hne⟩ := hend '\n' false rfl
      refine ⟨w, after, ?_, fun _ => hne rfl⟩
      rw [← heq, Blank.text, List.append_assoc]
      apply mapLines_beforeComment_comment h rfl

/-- Of blanks only white space is left, in front of a text that begins with no line feed. -/
theorem exists_mapLines_blanksText (blanks : List Blank) (afterReturn : Bool) {s : Text}
    (hs : s.head? ≠ some '\n') :
  ∃ w : Spaces,
    mapLines beforeComment afterReturn (blanksText blanks ++ s)
        = w.1 ++ mapLines beforeComment false s
      ∧ (afterReturn = false → s ≠ [] → blanks ≠ [] → w.1 ≠ [])
  := by
  induction blanks generalizing afterReturn with
  | nil =>
      refine ⟨⟨[], by simp⟩, ?_, fun _ _ hne => absurd rfl hne⟩
      exact mapLines_of_head hs
  | cons blank blanks ih =>
      obtain ⟨w, after, heq, hne⟩ := blank.exists_mapLines afterReturn (blanksText blanks ++ s)
      obtain ⟨w', heq', -⟩ := ih after
      refine ⟨⟨w.1 ++ w'.1, ?_⟩, ?_, ?_⟩
      · intro c hc
        rcases List.mem_append.mp hc with hc | hc
        · apply w.2 c hc
        · apply w'.2 c hc
      · rw [blanksText_cons, List.append_assoc, heq, heq', List.append_assoc]
      · intro hreturn hsne _ hnil
        apply hne hreturn _ (List.append_eq_nil_iff.mp hnil).1
        intro r
        apply splitlinesFrom_append_ne_nil hsne hs

/-- A statement that is not touched stays as it is in front of a text. -/
theorem Statement.Untouched.mapLines_append {s : Statement a} (h : s.Untouched) {t : Text}
    (ht : t.head? ≠ some '-') :
  mapLines beforeComment false (s.text ++ t) = s.text ++ mapLines beforeComment false t
  := by
  apply mapLines_beforeComment_append h.uncommented h.lineEnds
  intro d hd
  refine ⟨fun hdash => ht hdash.2, ?_⟩
  rintro -
  rw [← Bool.not_eq_true]
  intro hend
  have hspace := (strip_eq_self_iff.mp h.stripped).2 d hd
  rw [isSpace_of_isLineEnd hend] at hspace
  cases hspace

theorem itemsText_head {γ : Type} {g : γ → Text} (items : List (Statement a × γ)) {tail : Text}
    {c : Char} (hc : c.isAlpha = false) (htail : tail.head? ≠ some c) :
  (itemsText Statement.text g items tail).head? ≠ some c
  := by
  cases items with
  | nil => exact htail
  | cons item items =>
      rw [itemsText, List.head?_append_of_ne_nil _ item.1.text_ne_nil]
      exact item.1.head?_ne hc

/-- Statements that are not touched are left with white space behind their semicolons. -/
theorem exists_mapLines_itemsText {items : List (Statement a × List Blank)} {tail : Text}
    (hitems : ∀ item ∈ items, item.1.Untouched) (htail : tail.head? ≠ some '\n') :
  ∃ items' : List (Statement a × Spaces), items'.map Prod.fst = items.map Prod.fst
    ∧ mapLines beforeComment false (itemsText Statement.text blanksText items tail)
      = itemsText Statement.text Subtype.val items' (mapLines beforeComment false tail)
  := by
  induction items with
  | nil => exact ⟨[], rfl, rfl⟩
  | cons item items ih =>
      obtain ⟨items', hfst, heq⟩ := ih (fun i hi => hitems i (List.mem_cons_of_mem _ hi))
      obtain ⟨w, hw, -⟩ := exists_mapLines_blanksText item.2 false
        (itemsText_head (g := blanksText) items (by decide) htail)
      refine ⟨(item.1, w) :: items', by rw [List.map_cons, List.map_cons, hfst], ?_⟩
      have hsemicolon : ∀ t, mapLines beforeComment false (';' :: t)
          = ';' :: mapLines beforeComment false t := by
        intro t
        apply mapLines_beforeComment_cons rfl
        rintro ⟨rest, hrest⟩
        cases hrest
      rw [itemsText, (hitems item List.mem_cons_self).mapLines_append (by simp), hsemicolon, hw, heq]
      rfl

theorem itemsText_append {γ : Type} {f : Statement a → Text} {g : γ → Text}
    (items : List (Statement a × γ)) (u v : Text) :
  itemsText f g items (u ++ v) = itemsText f g items u ++ v
  := by
  induction items with
  | nil => rfl
  | cons item items ih => simp only [itemsText, ih, List.append_assoc, List.cons_append]

theorem Blank.text_ne_nil (blank : Blank) : blank.text ≠ [] := by
  cases blank with
  | space c h => apply List.cons_ne_nil
  | comment s h => apply List.cons_ne_nil

/-- Of a layout of statements that are not touched, white space is left between them. -/
theorem Layout.exists_mapLines {layout : Layout a (List Blank)}
    (hs : ∀ s ∈ layout.statements, s.Untouched)
    (hapart : ∀ p ∈ layout.last, ∀ blank ∈ p.2.head?, blank.text.head? ≠ some '-') {t : Text}
    (hfeed : t.head? ≠ some '\n') (hdash : t.head? ≠ some '-') :
  ∃ body : Layout a Spaces, body.statements = layout.statements
    ∧ mapLines beforeComment false (layout.text Statement.text blanksText ++ t)
      = body.text Statement.text Subtype.val ++ mapLines beforeComment false t
    ∧ (t ≠ [] → (layout.front ≠ [] → body.front.1 ≠ [])
      ∧ ((∀ p ∈ layout.last, p.2 ≠ []) → ∀ p ∈ body.last, p.2.1 ≠ []))
  := by
  obtain ⟨front, items, last⟩ := layout
  have hitems : ∀ item ∈ items, item.1.Untouched :=
    fun item hitem => hs _ (List.mem_append_left _ (List.mem_map_of_mem hitem))
  -- what stands behind the items that have a semicolon
  obtain ⟨last', hlast, htail, hne⟩ : ∃ last' : Option (Statement a × Spaces),
      last'.map Prod.fst = last.map Prod.fst
        ∧ mapLines beforeComment false
            (last.elim [] (fun p => p.1.text ++ blanksText p.2) ++ t)
          = last'.elim [] (fun p => p.1.text ++ p.2.1) ++ mapLines beforeComment false t
        ∧ (t ≠ [] → (∀ p ∈ last, p.2 ≠ []) → ∀ p ∈ last', p.2.1 ≠ []) := by
    cases last with
    | none => exact ⟨none, rfl, rfl, fun _ _ p hp => by cases hp⟩
    | some p =>
        obtain ⟨w, hw, hne⟩ := exists_mapLines_blanksText p.2 false hfeed
        refine ⟨some (p.1, w), rfl, ?_, ?_⟩
        · have hhead : (blanksText p.2 ++ t).head? ≠ some '-' := by
            cases hblanks : p.2 with
            | nil => exact hdash
            | cons blank blanks =>
                rw [blanksText_cons, List.append_assoc,
                  List.head?_append_of_ne_nil _ blank.text_ne_nil]
                exact hapart p rfl blank (by rw [hblanks]; rfl)
          have huntouched : p.1.Untouched :=
            hs _ (List.mem_append_right _ (List.mem_singleton_self _))
          rw [Option.elim_some, List.append_assoc, huntouched.mapLines_append hhead, hw,
            Option.elim_some, List.append_assoc]
        · intro ht hblanks q hq
          obtain rfl := Option.some.inj hq
          exact hne rfl ht (hblanks p rfl)
  have hhead : (last.elim [] (fun p => p.1.text ++ blanksText p.2) ++ t).head? ≠ some '\n' := by
    cases last with
    | none => exact hfeed
    | some p =>
        rw [Option.elim_some, List.append_assoc, List.head?_append_of_ne_nil _ p.1.text_ne_nil]
        exact p.1.head?_ne rfl
  obtain ⟨items', hfst, heq⟩ := exists_mapLines_itemsText hitems hhead
  obtain ⟨w, hw, hfront⟩ := exists_mapLines_blanksText front false
    (itemsText_head (g := blanksText) items (by decide) hhead)
  refine ⟨⟨w, items', last'⟩, ?_, ?_, ?_⟩
  · rw [statements, statements, hfst, hlast]
  · rw [text, text, List.append_assoc, ← itemsText_append, hw, heq, htail, itemsText_append,
      List.append_assoc]
  · intro ht
    refine ⟨hfront rfl ?_, hne ht⟩
    rw [itemsText_append]
    exact fun hnil => ht (List.append_eq_nil_iff.mp hnil).2

end Uncommented

/-! ### Statements with white space between them -/

section Bodies

variable {a : Alphabet}

theorem strip_spaces (w : Spaces) : strip w.1 = [] := by
  have hstrip := strip_append_left (s := []) w.2
  rwa [List.append_nil] at hstrip

theorem outside_spaces (w : Spaces) : outside everyQuote none w.1 = some w.1 := by
  have houtside := outside_of_forall (s := []) (fun d hd => (isSpace_not_quote (w.2 d hd)).1)
  rw [List.append_nil] at houtside
  rw [houtside]
  exact congrArg some (List.append_nil w.1)

theorem semicolon_not_mem (w : Spaces) : ';' ∉ w.1 := by
  intro hmem
  cases w.2 _ hmem

/-- A statement is cut off in front of its semicolon. -/
theorem Statement.Untouched.statementOf {s : Statement a} (h : s.Untouched) (w : Spaces) :
  statementOf (w.1 ++ s.text ++ [';']) = [s.text]
  := by
  have hends := strip_eq_self_iff.mp h.stripped
  have hstrip : strip (w.1 ++ s.text ++ [';']) = s.text ++ [';'] := by
    rw [List.append_assoc, strip_append_left w.2]
    apply strip_eq_self_iff.mpr
    constructor
    · intro c hc
      rw [List.head?_append_of_ne_nil _ s.text_ne_nil] at hc
      exact hends.1 c hc
    · intro c hc
      rw [List.getLast?_concat] at hc
      obtain rfl := Option.some.inj hc
      rfl
  have hdrop : (s.text ++ [';']).rdropWhile (· == ';') = s.text := by
    rw [List.rdropWhile_concat_pos _ _ _ rfl]
    apply List.rdropWhile_eq_self_iff.mpr
    intro hne hlast
    apply s.getLast?_ne
    rw [List.getLast?_eq_some_getLast hne, eq_of_beq hlast]
  rw [statementOf_eq, hstrip, hdrop, h.stripped, if_neg s.text_ne_nil]

/-- Spaces are read as a part of what follows. -/
theorem plsqlStatementsFrom_spaces (current : Text) (w : Spaces) (t : Text) :
  plsqlStatementsFrom none current (w.1 ++ t) = plsqlStatementsFrom none (current ++ w.1) t
  := plsqlStatementsFrom_append (fun _ h => by cases h) (outside_spaces w) (semicolon_not_mem w)

theorem Statement.plsqlStatementsFrom_append (s : Statement a) (current t : Text) :
  plsqlStatementsFrom none current (s.text ++ t) = plsqlStatementsFrom none (current ++ s.text) t
  := Lineage.plsqlStatementsFrom_append (fun _ h => by cases h) s.outside_eq s.noSemicolon

theorem plsqlStatementsFrom_itemsText {items : List (Statement a × Spaces)}
    (hitems : ∀ item ∈ items, item.1.Untouched) (w : Spaces) {tail : Text} {results : List Text}
    (htail : ∀ w : Spaces, plsqlStatementsFrom none w.1 tail = results) :
  plsqlStatementsFrom none w.1 (itemsText Statement.text Subtype.val items tail)
    = (items.map Prod.fst).map Statement.text ++ results
  := by
  induction items generalizing w with
  | nil => exact htail w
  | cons item items ih =>
      have hrest := ih (fun i hi => hitems i (List.mem_cons_of_mem _ hi)) item.2
      rw [itemsText, item.1.plsqlStatementsFrom_append, plsqlStatementsFrom_semicolon,
        (hitems item List.mem_cons_self).statementOf, plsqlStatementsFrom_spaces, List.nil_append,
        hrest]
      rfl

/-- Statements with white space between them are split into the statements. -/
theorem Layout.plsqlStatementsFrom_text {body : Layout a Spaces}
    (hs : ∀ s ∈ body.statements, s.Untouched) :
  plsqlStatementsFrom none [] (body.text Statement.text Subtype.val)
    = body.statements.map Statement.text
  := by
  obtain ⟨front, items, last⟩ := body
  rw [text, plsqlStatementsFrom_spaces, List.nil_append, statements, List.map_append]
  apply plsqlStatementsFrom_itemsText
  · intro item hitem
    apply hs _ (List.mem_append_left _ (List.mem_map_of_mem hitem))
  · intro w
    cases last with
    | none =>
        rw [Option.elim_none, plsqlStatementsFrom_nil, if_pos (strip_spaces w)]
        rfl
    | some p =>
        have huntouched : p.1.Untouched :=
          hs _ (List.mem_append_right _ (List.mem_singleton_self _))
        have hstrip : strip (w.1 ++ p.1.text ++ p.2.1) = p.1.text := by
          rw [strip_append_right p.2.2, strip_append_left w.2, huntouched.stripped]
        rw [Option.elim_some, p.1.plsqlStatementsFrom_append, ← List.append_nil p.2.1,
          plsqlStatementsFrom_spaces, plsqlStatementsFrom_nil, hstrip,
          if_neg p.1.text_ne_nil]
        rfl

section Words

variable {word : Text} (hword : ∀ c ∈ word, c.isAlpha = true ∧ c.toLower = c) (hne : word ≠ [])

include hword hne

theorem occurs_spaces_append (w : Spaces) (t : Text) :
  Occurs a word (w.1 ++ t) ↔ Occurs a word t
  := by
  obtain ⟨w, hw⟩ := w
  induction w with
  | nil => rfl
  | cons c w ih =>
      have hc : a.isWord c = false := a.not_isWord_of_isSpace (hw c List.mem_cons_self)
      have hsplit := occurs_append_cons (u := []) (s := w ++ t) hword hc
      rw [List.nil_append] at hsplit
      rw [List.cons_append, hsplit, ih (fun d hd => hw d (List.mem_cons_of_mem c hd))]
      exact or_iff_right (not_occurs_nil hne)

theorem occurs_append_spaces (u : Text) (w : Spaces) :
  Occurs a word (u ++ w.1) ↔ Occurs a word u
  := by
  obtain ⟨w, hw⟩ := w
  cases w with
  | nil => rw [List.append_nil]
  | cons c w =>
      have hc : a.isWord c = false := a.not_isWord_of_isSpace (hw c List.mem_cons_self)
      have hrest := occurs_spaces_append hword hne (a := a)
        ⟨w, fun d hd => hw d (List.mem_cons_of_mem c hd)⟩ []
      rw [List.append_nil] at hrest
      rw [occurs_append_cons hword hc, hrest]
      exact or_iff_left (not_occurs_nil hne)

theorem occurs_itemsText {f : Statement a → Text} {items : List (Statement a × Spaces)}
    {tail : Text} :
  Occurs a word (itemsText f Subtype.val items tail)
    ↔ (∃ s ∈ items.map Prod.fst, Occurs a word (f s)) ∨ Occurs a word tail
  := by
  induction items with
  | nil => simp [itemsText]
  | cons item items ih =>
      have hsemicolon : a.isWord ';' = false := a.not_isWord_of_ascii (by decide) (by decide)
      rw [itemsText, occurs_append_cons hword hsemicolon, occurs_spaces_append hword hne, ih,
        List.map_cons, ← or_assoc]
      simp

/-- A keyword stands in a body when it stands in one of the statements. -/
theorem Layout.occurs_iff {f : Statement a → Text} {body : Layout a Spaces} :
  Occurs a word (body.text f Subtype.val) ↔ ∃ s ∈ body.statements, Occurs a word (f s)
  := by
  obtain ⟨front, items, last⟩ := body
  rw [text, occurs_spaces_append hword hne, occurs_itemsText hword hne, statements]
  simp only [List.mem_append, or_and_right, exists_or]
  apply or_congr_right
  cases last with
  | none =>
      rw [Option.elim_none]
      exact iff_of_false (not_occurs_nil hne) (by simp)
  | some p =>
      rw [Option.elim_some, occurs_append_spaces hword hne]
      simp

end Words

theorem outside_itemsText {items : List (Statement a × Spaces)} {tail shown : Text}
    (htail : outside everyQuote none tail = some shown) :
  outside everyQuote none (itemsText Statement.text Subtype.val items tail)
    = some (itemsText Statement.shown Subtype.val items shown)
  := by
  induction items with
  | nil => exact htail
  | cons item items ih =>
      have hsemicolon : ∀ t, outside everyQuote none (';' :: t)
          = (outside everyQuote none t).map (List.cons ';') := fun t => rfl
      rw [itemsText, outside_append item.1.outside_eq, hsemicolon,
        outside_append (outside_spaces item.2), ih]
      rfl

/-- Of a body everything outside the literals of its statements is shown. -/
theorem Layout.outside_text (body : Layout a Spaces) :
  outside everyQuote none (body.text Statement.text Subtype.val)
    = some (body.text Statement.shown Subtype.val)
  := by
  obtain ⟨front, items, last⟩ := body
  rw [text, outside_append (outside_spaces front), outside_itemsText]
  · rfl
  · cases last with
    | none => rfl
    | some p =>
        rw [Option.elim_some, outside_append p.1.outside_eq, outside_spaces]
        rfl

theorem itemsText_append_items {γ : Type} {f : Statement a → Text} {g : γ → Text}
    (items items' : List (Statement a × γ)) (tail : Text) :
  itemsText f g (items ++ items') tail = itemsText f g items (itemsText f g items' tail)
  := by
  induction items with
  | nil => rfl
  | cons item items ih => rw [List.cons_append, itemsText, ih, itemsText]

/-- A body has nothing to strip when no white space stands behind its last statement. -/
theorem strip_itemsText {items : List (Statement a × Spaces)} {s : Statement a} {rest : Text}
    (h : ∀ c ∈ (s.text ++ rest).getLast?, isSpace c = false) :
  strip (itemsText Statement.text Subtype.val items (s.text ++ rest))
    = itemsText Statement.text Subtype.val items (s.text ++ rest)
  := by
  apply strip_eq_self_iff.mpr
  constructor
  · intro c hc
    rw [← Bool.not_eq_true]
    intro hspace
    have halpha : c.isAlpha = false := by
      rw [← Bool.not_eq_true]
      intro halpha
      rw [isAlpha_iff] at halpha
      simp only [isSpace, Bool.or_eq_true, Bool.and_eq_true, decide_eq_true_eq,
        beq_iff_eq] at hspace
      omega
    apply itemsText_head (g := Subtype.val) items halpha _ hc
    rw [List.head?_append_of_ne_nil _ s.text_ne_nil]
    exact s.head?_ne halpha
  · intro c hc
    rw [← List.nil_append (s.text ++ rest), itemsText_append] at hc
    rw [List.getLast?_append_of_ne_nil] at hc
    · exact h c hc
    · intro hnil
      exact s.text_ne_nil (List.append_eq_nil_iff.mp hnil).1

def noSpaces : Spaces := ⟨[], fun c hc => by cases hc⟩

/-- Without the white space around it a body has the same statements. -/
theorem Layout.exists_strip {body : Layout a Spaces} (hs : ∀ s ∈ body.statements, s.Untouched) :
  ∃ body' : Layout a Spaces, body'.statements = body.statements
    ∧ strip (body.text Statement.text Subtype.val) = body'.text Statement.text Subtype.val
  := by
  obtain ⟨front, items, last⟩ := body
  rw [text, strip_append_left front.2]
  cases last with
  | some p =>
      have huntouched : p.1.Untouched :=
        hs _ (List.mem_append_right _ (List.mem_singleton_self _))
      refine ⟨⟨noSpaces, items, some (p.1, noSpaces)⟩, rfl, ?_⟩
      rw [Option.elim_some, itemsText_append, strip_append_right p.2.2,
        ← List.append_nil p.1.text, strip_itemsText]
      · rfl
      · rw [List.append_nil]
        exact (strip_eq_self_iff.mp huntouched.stripped).2
  | none =>
      rcases List.eq_nil_or_concat items with rfl | ⟨init, item, rfl⟩
      · exact ⟨⟨noSpaces, [], none⟩, rfl, rfl⟩
      · refine ⟨⟨noSpaces, init ++ [(item.1, noSpaces)], none⟩, ?_, ?_⟩
        · simp [statements]
        · have hitem : ∀ w : Spaces, itemsText Statement.text Subtype.val
              (init ++ [(item.1, w)]) []
              = itemsText Statement.text Subtype.val init (item.1.text ++ [';']) ++ w.1 := by
            intro w
            rw [itemsText_append_items, ← itemsText_append, itemsText, itemsText,
              List.append_assoc, List.append_nil]
            rfl
          dsimp only
          rw [List.concat_eq_append, Option.elim_none, show item = (item.1, item.2) from rfl,
            hitem item.2, strip_append_right item.2.2, strip_itemsText]
          · exact ((hitem noSpaces).trans (List.append_nil _)).symm
          · intro c hc
            rw [List.getLast?_concat] at hc
            obtain rfl := Option.some.inj hc
            rfl

/-- A rest without quotes that is reached outside of literals is shown as it is. -/
theorem exists_outside_append {literal : Option Char} {front behind shown : Text}
    (hl : ∀ quote, literal = some quote → isQuote quote = true)
    (hbehind : ∀ c ∈ behind, isQuote c = false)
    (h : outside everyQuote literal (front ++ behind) = some shown) :
  ∃ u, shown = u ++ behind ∧ u.length = front.length ∧ (front = [] → literal = none)
    ∧ (front ≠ [] → Regex.wordAt a.isWord u.getLast? = Regex.wordAt a.isWord front.getLast?)
  := by
  induction front generalizing literal shown with
  | nil =>
      rw [List.nil_append] at h
      cases literal with
      | none =>
          have hrest := outside_of_forall (s := []) hbehind
          rw [List.append_nil] at hrest
          rw [hrest] at h
          refine ⟨[], ?_, rfl, fun _ => rfl, fun hne => absurd rfl hne⟩
          rw [List.nil_append, ← Option.some.inj h]
          exact List.append_nil behind
      | some quote =>
          -- the literal is never closed
          exfalso
          have hnone : outside everyQuote (some quote) behind = none := by
            clear h
            induction behind with
            | nil => rfl
            | cons c s ih =>
                have hafter : literalAfter everyQuote (some quote) c s = some quote := by
                  rw [literalAfter, if_neg]
                  rintro ⟨rfl, -⟩
                  have hc := hbehind c List.mem_cons_self
                  cases (hl c rfl).symm.trans hc
                rw [outside, hafter, ih (fun d hd => hbehind d (List.mem_cons_of_mem c hd))]
                rfl
          rw [hnone] at h
          cases h
  | cons c front ih =>
      rw [List.cons_append] at h
      obtain ⟨t, ht, rfl⟩ := outside_cons.mp h
      obtain ⟨u, rfl, hlength, hnone, hword⟩ := ih (isQuote_of_literalAfter hl) ht
      refine ⟨Lineage.shown literal c :: u, rfl, by rw [List.length_cons, hlength, List.length_cons],
        fun hnil => absurd hnil (List.cons_ne_nil _ _), ?_⟩
      intro _
      by_cases hfront : front = []
      · subst hfront
        obtain rfl := List.eq_nil_of_length_eq_zero hlength
        exact (wordAt_shown hl (hnone rfl)).symm
      · have hu : u ≠ [] := by
          rintro rfl
          exact hfront (List.eq_nil_of_length_eq_zero hlength.symm)
        rw [List.getLast?_cons_of_ne_nil hu, List.getLast?_cons_of_ne_nil hfront, hword hfront]

/-- Where the end of a block is matched, the word `END` is shown. -/
theorem keywordAt_shown {front behind shown : Text} {passed : ℕ} {q : Regex.Spot}
    (h : outside everyQuote none (front ++ behind) = some shown)
    (hq : Regex.tryAt (blockTail a) ⟨front.getLast?, passed, behind, []⟩ = some q) :
  ∃ u, shown = u ++ behind ∧ u.length = front.length ∧ KeywordAt a "end".toList u.getLast? behind
  := by
  obtain ⟨hkeyword, hquotes⟩ := of_mem_ends_blockTail (List.mem_of_head? hq)
  obtain ⟨u, hu, hlength, -, hword⟩ := exists_outside_append (a := a) (fun _ h => by cases h)
    hquotes h
  refine ⟨u, hu, hlength, ?_, hkeyword.2⟩
  by_cases hfront : front = []
  · subst hfront
    rw [List.eq_nil_of_length_eq_zero hlength]
    rfl
  · rw [hword hfront]
    exact hkeyword.1

/-! ### The body is found -/

theorem search_blockTail_eq_none (body : Layout a Spaces) :
  Regex.search (blockTail a) (body.text Statement.text Subtype.val) 0 = none
  := by
  rw [Regex.search_zero]
  apply Regex.searchFrom_eq_none_iff.mpr
  intro front behind hsplit
  rw [lastOr_none]
  cases htry : Regex.tryAt (blockTail a) ⟨front.getLast?, 0 + front.length, behind, []⟩ with
  | none => rfl
  | some q =>
      exfalso
      have hshown := body.outside_text
      rw [hsplit] at hshown
      obtain ⟨u, hu, -, hkeyword⟩ := keywordAt_shown hshown htry
      obtain ⟨s, -, hs⟩ := (Layout.occurs_iff end_letters (by decide)).mp ⟨u, behind, hu, hkeyword⟩
      exact s.noEnd hs

/-- Without a block, a text without the word `BEGIN` is the body. -/
theorem procedureBody_of_not_occurs {body : Layout a Spaces} {sqlText : Text}
    (hstrip : strip (stripLineComments sqlText) = body.text Statement.text Subtype.val)
    (h : ∀ s ∈ body.statements, ¬ Occurs a "begin".toList s.text) :
  procedureBody a sqlText = body.text Statement.text Subtype.val
  := by
  have hbegin : Regex.search (wholeWord a "begin") (body.text Statement.text Subtype.val) 0
      = none := by
    apply (search_wholeWord_eq_none_iff (by decide) begin_letters _).mpr
    rw [Layout.occurs_iff begin_letters (by decide)]
    rintro ⟨s, hs, hoccurs⟩
    exact h s hs hoccurs
  rw [procedureBody, hstrip, hbegin]
  dsimp only
  rw [search_blockTail_eq_none]

/-- A text ends with a character outside words. -/
def EndsOutside (a : Alphabet) (t : Text) : Prop := ∃ u d, t = u ++ [d] ∧ a.isWord d = false

theorem EndsOutside.append {t : Text} (h : EndsOutside a t) (u : Text) : EndsOutside a (u ++ t) := by
  obtain ⟨v, d, rfl, hd⟩ := h
  exact ⟨u ++ v, d, (List.append_assoc _ _ _).symm, hd⟩

theorem endsOutside_spaces {w : Spaces} (hw : w.1 ≠ []) : EndsOutside a w.1 := by
  refine ⟨w.1.dropLast, w.1.getLast hw, (List.dropLast_append_getLast hw).symm, ?_⟩
  exact a.not_isWord_of_isSpace (w.2 _ (List.getLast_mem hw))

/-- A body that is set apart from the words of a block. -/
structure Layout.IsApart (body : Layout a Spaces) : Prop where
  front : body.front.1 ≠ []
  last : ∀ p ∈ body.last, p.2.1 ≠ []

theorem Layout.IsApart.endsOutside {body : Layout a Spaces} (h : body.IsApart)
    (f : Statement a → Text) :
  EndsOutside a (body.text f Subtype.val)
  := by
  obtain ⟨front, items, last⟩ := body
  have hsemicolon : a.isWord ';' = false := a.not_isWord_of_ascii (by decide) (by decide)
  rw [Layout.text]
  cases last with
  | some p =>
      rw [Option.elim_some, itemsText_append]
      apply EndsOutside.append
      apply (endsOutside_spaces (h.last p rfl)).append
  | none =>
      rcases List.eq_nil_or_concat items with rfl | ⟨init, item, rfl⟩
      · dsimp only
        rw [Option.elim_none, itemsText, List.append_nil]
        apply endsOutside_spaces h.front
      · dsimp only
        rw [Option.elim_none, List.concat_eq_append, itemsText_append_items]
        apply EndsOutside.append
        rw [itemsText, itemsText, List.append_nil, ← List.nil_append (_ ++ _), itemsText_append]
        apply EndsOutside.append
        apply EndsOutside.append
        by_cases hgap : item.2.1 = []
        · rw [hgap]
          exact ⟨[], ';', rfl, hsemicolon⟩
        · exact (endsOutside_spaces hgap).append [';']

/-- What a block holds is the body. -/
theorem procedureBody_of_wrapper {body : Layout a Spaces} (hapart : body.IsApart)
    {sqlText : Text} (wrapper : Wrapper)
    (hstrip : strip (stripLineComments sqlText) = wrapper.beginWord
      ++ (body.text Statement.text Subtype.val ++ (wrapper.endWord ++ [';']))) :
  procedureBody a sqlText = body.text Statement.text Subtype.val
  := by
  have hlength : wrapper.beginWord.length = 5 := by
    have h := congrArg List.length wrapper.beginWord_eq
    rwa [List.length_map] at h
  let rest := body.text Statement.text Subtype.val ++ (wrapper.endWord ++ [';'])
  have hbegin : Regex.search (wholeWord a "begin") (wrapper.beginWord ++ rest) 0
      = some ⟨0, 5, []⟩ := by
    have hkeyword : KeywordAt a "begin".toList none (wrapper.beginWord ++ rest) := by
      have htake : (wrapper.beginWord ++ rest).take "begin".toList.length = wrapper.beginWord := by
        rw [show "begin".toList.length = wrapper.beginWord.length from hlength.symm, List.take_left]
      have hdrop : (wrapper.beginWord ++ rest).drop "begin".toList.length = rest := by
        rw [show "begin".toList.length = wrapper.beginWord.length from hlength.symm, List.drop_left]
      refine ⟨rfl, ?_, ?_⟩
      · rw [Regex.startsWith, htake, wrapper.beginWord_eq]
        rfl
      · rw [hdrop]
        obtain ⟨c, w, hw⟩ := List.exists_cons_of_ne_nil hapart.front
        have hrest : rest.head? = some c := by
          change (body.front.1 ++ _ ++ _).head? = _
          rw [hw]
          rfl
        rw [hrest]
        apply a.not_isWord_of_isSpace
        apply body.front.2
        rw [hw]
        apply List.mem_cons_self
    have htry : Regex.tryAt (wholeWord a "begin") ⟨none, 0, wrapper.beginWord ++ rest, []⟩
        = some (Regex.Spot.advance ⟨none, 0, wrapper.beginWord ++ rest, []⟩ 5) := by
      rw [Regex.tryAt, ends_wholeWord (by decide) begin_letters, if_pos hkeyword]
      rfl
    rw [Regex.search_zero]
    exact Regex.searchFrom_of_tryAt htry
  have hend : ∃ q : Regex.Spot, Regex.search (blockTail a) rest 0
      = some ⟨(body.text Statement.text Subtype.val).length, q.passed, q.groups⟩ := by
    obtain ⟨v, d, hv, hd⟩ := hapart.endsOutside Statement.text
    have hlast : Regex.wordAt a.isWord (body.text Statement.text Subtype.val).getLast? = false := by
      rw [hv, List.getLast?_concat]
      exact hd
    obtain ⟨q, hq⟩ := Option.isSome_iff_exists.mp
      (isSome_tryAt_blockTail (a := a) (p := ⟨(body.text Statement.text Subtype.val).getLast?,
        0 + (body.text Statement.text Subtype.val).length, wrapper.endWord ++ [';'], []⟩)
        wrapper.endWord_eq rfl hlast)
    use q
    rw [Regex.search_zero, Regex.searchFrom_append, lastOr_none, Regex.searchFrom_of_tryAt hq, Nat.zero_add]
    intro front c w hsplit
    rw [lastOr_none]
    cases htry : Regex.tryAt (blockTail a) ⟨front.getLast?, 0 + front.length,
        c :: (w ++ (wrapper.endWord ++ [';'])), []⟩ with
    | none => rfl
    | some q =>
        exfalso
        have hquotes : ∀ e ∈ wrapper.endWord ++ [';'], isQuote e = false := by
          intro e he
          apply (of_mem_ends_blockTail (List.mem_of_head? htry)).2
          exact List.mem_cons_of_mem _ (List.mem_append_right _ he)
        have hwhole : outside everyQuote none (front ++ c :: (w ++ (wrapper.endWord ++ [';'])))
            = some (body.text Statement.shown Subtype.val ++ (wrapper.endWord ++ [';'])) := by
          have htail := outside_of_forall (s := []) hquotes
          rw [List.append_nil] at htail
          rw [← List.cons_append, ← List.append_assoc, ← hsplit, outside_append body.outside_text,
            htail]
          simp [outside]
        obtain ⟨u, hu, -, hkeyword⟩ := keywordAt_shown hwhole htry
        rw [← List.cons_append, ← List.append_assoc u] at hu
        have hbody := List.append_cancel_right hu
        obtain ⟨x, e, hx, he⟩ := hapart.endsOutside Statement.shown
        obtain ⟨y, hy⟩ : ∃ y, c :: w = y ++ [e] := by
          have hlast := congrArg List.getLast? (hbody.symm.trans hx)
          rw [List.getLast?_append_of_ne_nil _ (List.cons_ne_nil _ _), List.getLast?_concat] at hlast
          obtain ⟨y, hy⟩ := List.getLast?_eq_some_iff.mp hlast
          exact ⟨y, hy⟩
        rw [← List.cons_append, hy, List.append_assoc, List.singleton_append,
          keywordAt_append_cons end_letters he] at hkeyword
        have hoccurs : Occurs a "end".toList (body.text Statement.shown Subtype.val) := by
          rw [hbody, hy, ← List.append_assoc, occurs_append_cons end_letters he]
          left
          exact ⟨u, y, rfl, hkeyword⟩
        obtain ⟨s, -, hs⟩ := (Layout.occurs_iff end_letters (by decide)).mp hoccurs
        exact s.noEnd hs
  obtain ⟨q, hq⟩ := hend
  rw [procedureBody, hstrip, hbegin]
  dsimp only
  rw [← hlength, List.drop_left, hq]
  dsimp only
  rw [List.take_left]

end Bodies

/-! ### Scripts without their comments -/

section Stripped

variable {a : Alphabet}

theorem isAlpha_of_lower {u : Text} {word : Text} (hword : ∀ c ∈ word, c.isAlpha = true)
    (hu : u.map Char.toLower = word) :
  ∀ c ∈ u, c.isAlpha = true
  := by
  intro c hc
  apply isAlpha_of_toLower_mem hword
  rw [← hu]
  exact List.mem_map_of_mem hc

theorem not_isSpace_of_isAlpha {c : Char} (h : c.isAlpha = true) : isSpace c = false := by
  rw [isAlpha_iff] at h
  rw [← Bool.not_eq_true]
  intro hspace
  simp only [isSpace, Bool.or_eq_true, Bool.and_eq_true, decide_eq_true_eq, beq_iff_eq] at hspace
  omega

/-- Letters stay as they are. -/
theorem mapLines_letters {u : Text} (hu : ∀ c ∈ u, c.isAlpha = true) (t : Text) :
  mapLines beforeComment false (u ++ t) = u ++ mapLines beforeComment false t
  := by
  induction u with
  | nil => rfl
  | cons c u ih =>
      have hc := hu c List.mem_cons_self
      have hspace := not_isSpace_of_isAlpha hc
      rw [List.cons_append, mapLines_beforeComment_cons,
        ih (fun d hd => hu d (List.mem_cons_of_mem c hd))]
      · rfl
      · rw [← Bool.not_eq_true]
        intro hend
        rw [isSpace_of_isLineEnd hend] at hspace
        cases hspace
      · rintro ⟨rest, hrest⟩
        change '-' :: '-' :: rest = c :: (u ++ t) at hrest
        obtain ⟨rfl, -⟩ := List.cons.inj hrest
        cases hc

theorem exists_cons_of_lower {u t word : Text} (hword : ∀ c ∈ word, c.isAlpha = true)
    (hne : word ≠ []) (hu : u.map Char.toLower = word) :
  ∃ c rest, u ++ t = c :: rest ∧ c.isAlpha = true
  := by
  cases u with
  | nil => exact absurd hu.symm hne
  | cons c u => exact ⟨c, u ++ t, rfl, isAlpha_of_lower hword hu c List.mem_cons_self⟩

theorem head?_ne_of_isAlpha {t : Text} (ht : ∃ c rest, t = c :: rest ∧ c.isAlpha = true) {d : Char}
    (hd : d.isAlpha = false) :
  t.head? ≠ some d
  := by
  obtain ⟨c, rest, rfl, hc⟩ := ht
  intro heq
  obtain rfl := Option.some.inj heq
  rw [hc] at hd
  cases hd

/-- What stands behind the body of a block begins with a letter. -/
theorem Wrapper.exists_cons (wrapper : Wrapper) :
  ∃ c rest, wrapper.endWord ++ ';' :: blanksText wrapper.behind = c :: rest ∧ c.isAlpha = true
  := exists_cons_of_lower (by decide) (by decide) wrapper.endWord_eq

/-- The words of a block stay around its body. -/
theorem Wrapper.strip_text (wrapper : Wrapper) {inner body : Text}
    (h : mapLines beforeComment false
        (inner ++ (wrapper.endWord ++ ';' :: blanksText wrapper.behind))
      = body ++ mapLines beforeComment false
          (wrapper.endWord ++ ';' :: blanksText wrapper.behind)) :
  strip (stripLineComments (blanksText wrapper.before ++ (wrapper.beginWord ++ (inner
      ++ (wrapper.endWord ++ ';' :: blanksText wrapper.behind)))))
    = wrapper.beginWord ++ (body ++ (wrapper.endWord ++ [';']))
  := by
  have hbegin := isAlpha_of_lower (by decide) wrapper.beginWord_eq
  have hend := isAlpha_of_lower (by decide) wrapper.endWord_eq
  have hhead : ∀ t, ∃ c rest, wrapper.beginWord ++ t = c :: rest ∧ c.isAlpha = true :=
    fun t => exists_cons_of_lower (by decide) (by decide) wrapper.beginWord_eq
  obtain ⟨w, hw, -⟩ := exists_mapLines_blanksText wrapper.before false
    (head?_ne_of_isAlpha (hhead (inner ++ (wrapper.endWord ++ ';' :: blanksText wrapper.behind)))
      (d := '\n') rfl)
  obtain ⟨w', hw', -⟩ := exists_mapLines_blanksText wrapper.behind false (s := []) (by simp)
  have hsemicolon : mapLines beforeComment false (';' :: blanksText wrapper.behind)
      = ';' :: mapLines beforeComment false (blanksText wrapper.behind) := by
    apply mapLines_beforeComment_cons rfl
    rintro ⟨rest, hrest⟩
    cases hrest
  have hbehind : mapLines beforeComment false (blanksText wrapper.behind) = w'.1 := by
    rw [List.append_nil] at hw'
    rw [hw']
    exact List.append_nil _
  have hsplit : wrapper.beginWord ++ (body ++ (wrapper.endWord ++ ';' :: w'.1))
      = wrapper.beginWord ++ (body ++ (wrapper.endWord ++ [';'])) ++ w'.1 := by simp
  rw [stripLineComments, hw, mapLines_letters hbegin, h, mapLines_letters hend, hsemicolon, hbehind,
    strip_append_left w.2, hsplit, strip_append_right w'.2]
  apply strip_eq_self_iff.mpr
  constructor
  · intro c hc
    obtain ⟨d, rest, hd, hdalpha⟩ := hhead (body ++ (wrapper.endWord ++ [';']))
    rw [hd] at hc
    obtain rfl := Option.some.inj hc
    apply not_isSpace_of_isAlpha hdalpha
  · intro c hc
    rw [← List.append_assoc, ← List.append_assoc, List.getLast?_concat] at hc
    obtain rfl := Option.some.inj hc
    rfl

/-- When no statement is touched, a script without a block leaves its statements with white space
between them. -/
theorem Script.exists_strip {script : Script a} (hnone : script.wrapper = none)
    (hs : ∀ s ∈ script.layout.statements, s.Untouched) :
  ∃ body : Layout a Spaces, body.statements = script.layout.statements
    ∧ strip (stripLineComments script.text) = body.text Statement.text Subtype.val
  := by
  obtain ⟨body, hstatements, htext, -⟩ := Layout.exists_mapLines hs script.apart (t := [])
    (by simp) (by simp)
  rw [List.append_nil] at htext
  obtain ⟨body', hstatements', hstrip⟩ := Layout.exists_strip (hstatements ▸ hs)
  refine ⟨body', hstatements'.trans hstatements, ?_⟩
  rw [← hstrip, Script.text, hnone, stripLineComments]
  dsimp only
  rw [htext]
  exact congrArg strip (List.append_nil _)

/-- The body of a script are its statements with white space between them, when no statement is
touched and no word `BEGIN` stands in front of it. -/
theorem Script.exists_procedureBody {script : Script a}
    (hs : ∀ s ∈ script.layout.statements, s.Untouched)
    (hbegin : script.wrapper.isSome = true
      ∨ ∀ s ∈ script.layout.statements, ¬ Occurs a "begin".toList s.text) :
  ∃ body : Layout a Spaces, body.statements = script.layout.statements
    ∧ procedureBody a script.text = body.text Statement.text Subtype.val
  := by
  cases hwrapper : script.wrapper with
  | none =>
      obtain ⟨body, hstatements, hstrip⟩ := Script.exists_strip hwrapper hs
      refine ⟨body, hstatements, procedureBody_of_not_occurs hstrip ?_⟩
      rw [hstatements]
      apply hbegin.resolve_left
      rw [hwrapper]
      exact Bool.false_ne_true
  | some wrapper =>
      have htail := wrapper.exists_cons
      obtain ⟨body, hstatements, htext, hfront⟩ := Layout.exists_mapLines hs script.apart
        (head?_ne_of_isAlpha htail (d := '\n') rfl) (head?_ne_of_isAlpha htail (d := '-') rfl)
      obtain ⟨c, rest, hc, -⟩ := htail
      obtain ⟨hfront, hlast⟩ := hfront (by rw [hc]; apply List.cons_ne_nil)
      obtain ⟨hne, hnes⟩ := script.separated (by rw [hwrapper]; rfl)
      refine ⟨body, hstatements, procedureBody_of_wrapper ⟨hfront hne, hlast hnes⟩ wrapper ?_⟩
      rw [← wrapper.strip_text htext, Script.text, hwrapper]

end Stripped

/-! ### What comes back -/

section Returned

variable {a : Alphabet}

theorem mem_statementOf {current x : Text} (hx : x ∈ statementOf current) :
  x <:+: current ∧ strip x = x
  := by
  rw [statementOf_eq] at hx
  split at hx
  · cases hx
  · obtain rfl := List.mem_singleton.mp hx
    refine ⟨?_, strip_strip _⟩
    exact (isInfix_strip _).trans ((List.rdropWhile_prefix _ _).isInfix.trans (isInfix_strip _))

/-- What comes back is a part of the text without white space at its ends. -/
theorem mem_plsqlStatementsFrom {literal : Option Char} {current s x : Text}
    (hl : ∀ quote, literal = some quote → isQuote quote = true)
    (hx : x ∈ plsqlStatementsFrom literal current s) :
  x <:+: current ++ s ∧ strip x = x
  := by
  induction s generalizing literal current with
  | nil =>
      rw [plsqlStatementsFrom_nil] at hx
      split at hx
      · cases hx
      · obtain rfl := List.mem_singleton.mp hx
        rw [List.append_nil]
        exact ⟨isInfix_strip current, strip_strip current⟩
  | cons c s ih =>
      have hassoc : current ++ c :: s = current ++ [c] ++ s := by simp
      rw [hassoc]
      rw [plsqlStatementsFrom_cons hl] at hx
      split at hx
      · rcases List.mem_append.mp hx with hx | hx
        · obtain ⟨hpart, hstrip⟩ := mem_statementOf hx
          exact ⟨hpart.trans (List.prefix_append _ _).isInfix, hstrip⟩
        · obtain ⟨hpart, hstrip⟩ := ih (fun _ h => by cases h) hx
          exact ⟨hpart.trans (List.suffix_append _ _).isInfix, hstrip⟩
      · exact ih (isQuote_of_literalAfter hl) hx

theorem procedureBody_isInfix (sqlText : Text) :
  procedureBody a sqlText <:+: stripLineComments sqlText
  := by
  have hstripped := isInfix_strip (stripLineComments sqlText)
  rw [procedureBody]
  cases hbegin : Regex.search (wholeWord a "begin") (strip (stripLineComments sqlText)) 0 with
  | none =>
      dsimp only
      split
      · exact (List.take_prefix _ _).isInfix.trans hstripped
      · exact hstripped
  | some found =>
      have hdrop := (List.drop_suffix found.stop _).isInfix.trans hstripped
      dsimp only
      split
      · exact (List.take_prefix _ _).isInfix.trans hdrop
      · exact hdrop

/-- A statement that comes back has not been touched. -/
theorem Script.untouched_of_keeps {script : Script a} (h : script.KeepsStatements) :
  ∀ s ∈ script.layout.statements, s.Untouched
  := by
  intro s hs
  have hmem : s.text ∈ splitPlsqlStatements a script.text := by
    rw [h]
    exact List.mem_map_of_mem hs
  obtain ⟨hpart, hstrip⟩ := mem_plsqlStatementsFrom (fun _ h => by cases h)
    (List.mem_of_mem_filter hmem)
  rw [List.nil_append] at hpart
  have hbodyPart := hpart.trans (procedureBody_isInfix script.text)
  obtain ⟨huncommented, hends⟩ := stripLineComments_spec script.text
  have hkept : Uncommented s.text := List.IsChain.infix huncommented hbodyPart
  exact ⟨hkept, fun c hc => hends c (hbodyPart.subset hc), hstrip⟩

/-! ### What a statement weighs -/

/-- What counts of a character: nothing for white space and semicolons. -/
def solid (c : Char) : ℕ := if isSpace c || c == ';' then 0 else 1

theorem weight_le_of_isInfix {x y : Text} (h : x <:+: y) : weight solid x ≤ weight solid y := by
  obtain ⟨u, v, rfl⟩ := h
  rw [weight_append, weight_append]
  omega

theorem weight_plsqlStatementsFrom {literal : Option Char} {current s : Text}
    (hl : ∀ quote, literal = some quote → isQuote quote = true) :
  ((plsqlStatementsFrom literal current s).map (weight solid)).sum
    ≤ weight solid current + weight solid s
  := by
  induction s generalizing literal current with
  | nil =>
      have hle := weight_le_of_isInfix (isInfix_strip current)
      rw [plsqlStatementsFrom_nil]
      split
      · exact Nat.zero_le _
      · rw [List.map_singleton, List.sum_singleton]
        omega
  | cons c s ih =>
      have hcons : weight solid (c :: s) = weight solid [c] + weight solid s :=
        weight_append solid [c] s
      rw [plsqlStatementsFrom_cons hl, hcons, ← Nat.add_assoc, ← weight_append]
      split
      · have hrest := @ih none [] (fun _ h => by cases h)
        have hfirst : ((statementOf (current ++ [c])).map (weight solid)).sum
            ≤ weight solid (current ++ [c]) := by
          cases hx : statementOf (current ++ [c]) with
          | nil => exact Nat.zero_le _
          | cons x rest =>
              have hrest : rest = [] := by
                rw [statementOf_eq] at hx
                split at hx
                · cases hx
                · exact (List.cons.inj hx).2.symm
              rw [hrest, List.map_singleton, List.sum_singleton]
              apply weight_le_of_isInfix
              exact (mem_statementOf (hx ▸ List.mem_cons_self)).1
        rw [List.map_append, List.sum_append]
        have hnil : weight solid [] = 0 := rfl
        omega
      · exact ih (isQuote_of_literalAfter hl)

theorem weight_spaces (w : Spaces) : weight solid w.1 = 0 := by
  obtain ⟨w, hw⟩ := w
  induction w with
  | nil => rfl
  | cons c w ih =>
      have hcons : weight solid (c :: w) = weight solid [c] + weight solid w :=
        weight_append solid [c] w
      have hc : weight solid [c] = 0 := by
        simp [weight, solid, hw c List.mem_cons_self]
      rw [hcons, hc, ih (fun d hd => hw d (List.mem_cons_of_mem c hd))]

theorem weight_itemsText (items : List (Statement a × Spaces)) (tail : Text) :
  weight solid (itemsText Statement.text Subtype.val items tail)
    = ((items.map Prod.fst).map (fun s => weight solid s.text)).sum + weight solid tail
  := by
  induction items with
  | nil => simp [itemsText]
  | cons item items ih =>
      have hsemicolon : ∀ t, weight solid (';' :: t) = weight solid t := by
        intro t
        have hcons : weight solid (';' :: t) = weight solid [';'] + weight solid t :=
          weight_append solid [';'] t
        rw [hcons, show weight solid [';'] = 0 from rfl, Nat.zero_add]
      rw [itemsText, weight_append, hsemicolon, weight_append, weight_spaces, ih, List.map_cons,
        List.map_cons, List.sum_cons]
      omega

/-- A body weighs what its statements weigh. -/
theorem Layout.weight_text (body : Layout a Spaces) :
  weight solid (body.text Statement.text Subtype.val)
    = (body.statements.map (fun s => weight solid s.text)).sum
  := by
  obtain ⟨front, items, last⟩ := body
  rw [text, weight_append, weight_spaces, weight_itemsText, statements, List.map_append,
    List.sum_append, Nat.zero_add]
  cases last with
  | none => rfl
  | some p =>
      rw [Option.elim_some, weight_append, weight_spaces]
      rfl

/-- What is cut off up to a keyword weighs something. -/
theorem weight_drop_lt {text : Text} {found : Regex.Found}
    (h : Regex.search (wholeWord a "begin") text 0 = some found) :
  weight solid (text.drop found.stop) < weight solid text
  := by
  rw [Regex.search_zero] at h
  obtain ⟨p, q, k, hq, hrest, hk, hstart, hp, hstop⟩ := Regex.exists_of_searchFrom h
  rw [ends_wholeWord (by decide) begin_letters] at hq
  split at hq
  · next hkeyword =>
      obtain rfl := List.mem_singleton.mp hq
      have hsplit : text.drop found.stop = p.rest.drop 5 := by
        have hnext : found.stop = k + 5 := by
          rw [hstop]
          change p.passed + 5 = _
          omega
        rw [hrest, List.drop_drop, hnext]
      have hletters := isAlpha_of_startsWith begin_letters hkeyword.2.1
      have hlength := length_le_of_startsWith hkeyword.2.1
      have hpos : 0 < weight solid (p.rest.take 5) := by
        obtain ⟨c, rest, hc⟩ := List.exists_cons_of_ne_nil
          (List.ne_nil_of_length_pos (Nat.lt_of_lt_of_le (by decide) hlength))
        have hcons : weight solid (c :: rest.take 4)
            = weight solid [c] + weight solid (rest.take 4) := weight_append solid [c] _
        have halpha : c.isAlpha = true := by
          apply hletters
          rw [hc]
          exact List.mem_cons_self
        have hone : weight solid [c] = 1 := by
          have hne : c ≠ ';' := by
            rintro rfl
            cases halpha
          simp [weight, solid, not_isSpace_of_isAlpha halpha, hne]
        rw [hc, List.take_succ_cons, hcons, hone]
        omega
      have hle : weight solid p.rest ≤ weight solid text := by
        apply weight_le_of_isInfix
        rw [hrest]
        exact (List.drop_suffix k text).isInfix
      have hwhole : weight solid p.rest = weight solid (p.rest.take 5)
          + weight solid (p.rest.drop 5) := by rw [← weight_append, List.take_append_drop]
      rw [hsplit]
      omega
  · cases hq

/-- When the statements of a script without a block come back, none of them holds `BEGIN`. -/
theorem Script.not_occurs_of_keeps {script : Script a} (h : script.KeepsStatements)
    (hnone : script.wrapper = none) :
  ∀ s ∈ script.layout.statements, ¬ Occurs a "begin".toList s.text
  := by
  intro s hs hoccurs
  obtain ⟨body, hstatements, hstrip⟩ := Script.exists_strip hnone (Script.untouched_of_keeps h)
  have hbody : Occurs a "begin".toList (body.text Statement.text Subtype.val) := by
    apply (Layout.occurs_iff begin_letters (by decide)).mpr
    rw [hstatements]
    exact ⟨s, hs, hoccurs⟩
  cases hfound : Regex.search (wholeWord a "begin") (body.text Statement.text Subtype.val) 0 with
  | none => exact (search_wholeWord_eq_none_iff (by decide) begin_letters _).mp hfound hbody
  | some found =>
      have hlt := weight_drop_lt hfound
      have hcut : procedureBody a script.text
          <:+: (body.text Statement.text Subtype.val).drop found.stop := by
        rw [procedureBody, hstrip, hfound]
        dsimp only
        split
        · exact (List.take_prefix _ _).isInfix
        · exact List.infix_rfl
      have hle := weight_le_of_isInfix hcut
      have hsplit := @weight_plsqlStatementsFrom none []
        (procedureBody a script.text) (fun _ h => by cases h)
      have hfilter : ((splitPlsqlStatements a script.text).map (weight solid)).sum
          ≤ ((plsqlStatementsFrom none [] (procedureBody a script.text)).map (weight solid)).sum := by
        rw [splitPlsqlStatements]
        generalize plsqlStatementsFrom none [] (procedureBody a script.text) = statements
        induction statements with
        | nil => exact Nat.le_refl _
        | cons x statements ih =>
            rw [List.filter_cons, List.map_cons, List.sum_cons]
            split
            · rw [List.map_cons, List.sum_cons]
              omega
            · omega
      rw [h, List.map_map] at hfilter
      have hweight := body.weight_text
      rw [hstatements] at hweight
      have hsame : (script.layout.statements.map (weight solid ∘ Statement.text)).sum
          = (script.layout.statements.map (fun s => weight solid s.text)).sum := rfl
      have hnil : weight solid [] = 0 := rfl
      omega

end Returned

/-- A script gives its statements back exactly when no statement holds two dashes, an end of a line
other than a line feed, or white space at an end, and the word `BEGIN` stands in none of them unless
it stands in front of all of them. -/
theorem Script.keepsStatements_iff {a : Alphabet} (script : Script a) :
  script.KeepsStatements
    ↔ (∀ s ∈ script.layout.statements, s.Untouched)
      ∧ (script.wrapper.isSome = true
        ∨ ∀ s ∈ script.layout.statements, ¬ Occurs a "begin".toList s.text)
  := by
  constructor
  · intro h
    refine ⟨Script.untouched_of_keeps h, ?_⟩
    cases hwrapper : script.wrapper with
    | none =>
        right
        exact Script.not_occurs_of_keeps h hwrapper
    | some wrapper =>
        left
        rfl
  · rintro ⟨hs, hbegin⟩
    obtain ⟨body, hstatements, hbody⟩ := Script.exists_procedureBody hs hbegin
    rw [KeepsStatements, splitPlsqlStatements, hbody,
      Layout.plsqlStatementsFrom_text (hstatements ▸ hs), hstatements]
    apply List.filter_eq_self.mpr
    intro x hx
    obtain ⟨s, -, rfl⟩ := List.mem_map.mp hx
    exact isSome_tryAt_dmlStart s.starts

/-- A statement with two dashes in a literal. -/
def dashesStatement : Statement asciiAlphabet where
  text := "INSERT INTO t VALUES ('a--b')".toList
  shown := "INSERT INTO t VALUES (      )".toList
  outside_eq := by decide
  starts := ⟨"insert", by decide, by decide⟩
  noSemicolon := by decide
  noLineComment := by decide
  noBlockComment := by decide
  noBegin := (search_wholeWord_eq_none_iff (by decide) begin_letters _).mp rfl
  noEnd := (search_wholeWord_eq_none_iff (by decide) end_letters _).mp rfl

def dashesScript : Script asciiAlphabet where
  wrapper := none
  layout := ⟨[], [], some (dashesStatement, [])⟩
  apart := by simp
  separated := by simp

/-- The literal is cut off at its dashes. -/
theorem not_keepsStatements_dashesScript :
  splitPlsqlStatements asciiAlphabet dashesScript.text = ["INSERT INTO t VALUES ('a".toList]
    ∧ ¬ dashesScript.KeepsStatements
  := by
  have hsplit : splitPlsqlStatements asciiAlphabet dashesScript.text
      = ["INSERT INTO t VALUES ('a".toList] := by decide +kernel
  refine ⟨hsplit, ?_⟩
  rw [Script.KeepsStatements, hsplit]
  decide +kernel

end Lineage

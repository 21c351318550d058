import DataOpsStudio.Sql.Dialects

/-!
# One statement

The scanner of the guard and the reading of a database go together as long as their rules lead to
the same place.  So a semicolon that the database takes for the end of a statement is seen by the
scanner when nothing before it is read in another way, and a text with such a semicolon between two
statements is refused.  Behind the first place that is read in another way a second statement can
hide, a quote after a backslash being enough.
-/

namespace Sql

open Text Lexis

/-! ### The scanner along a reading -/

/-- What the scanner is inside of, where a database is inside of what it knows. -/
def Mode.scanMode : Mode → Option ScanMode
  | .top => some .plain
  | .quoted close escapes =>
      if close = '\'' then some .single
      else if close = '"' then some .double
      else if close = '`' ∧ escapes = false then some .backtick
      else none
  | .line => some .lineComment
  | .block 0 => some .blockComment
  | _ => none

theorem scanMode_quoted (close : Char) (escapes : Bool) :
  (Mode.quoted close escapes).scanMode
    = if close = '\'' then some .single
      else if close = '"' then some .double
      else if close = '`' ∧ escapes = false then some .backtick
      else none
  := rfl

/-- A step of the scanner goes where a step of a reading goes. -/
structure Mirrors (step : Mode × ℕ × Mark) (scan : ScanMode × ℕ × Bool) : Prop where
  mode : step.1.scanMode = some scan.1
  skip : step.2.1 = scan.2.1
  separator : scan.2.2 = true ↔ step.2.2 = .separator

section Steps

variable {lexis : Lexis} {before before' after : Text} {c : Char}

theorem mirrors_line (hsame : lexis.differs .line before c after = false) :
  Mirrors (lexis.step .line before c after) (scanStep .lineComment before' c after)
  := by
  have hends : lexis.endsLine c after = decide (c = '\n') := by
    by_cases hc : c = '\n'
    · simp [Lexis.endsLine, hc]
    · simpa [Lexis.differs, hc] using hsame
  rw [Lexis.step, scanStep, hends]
  by_cases hc : c = '\n'
  · simp only [hc, decide_true, if_true]
    exact ⟨rfl, rfl, nofun, nofun⟩
  · simp only [hc, decide_false, if_false, Bool.false_eq_true]
    exact ⟨rfl, rfl, nofun, nofun⟩

theorem mirrors_block (hsame : lexis.differs (.block 0) before c after = false) :
  Mirrors (lexis.step (.block 0) before c after) (scanStep .blockComment before' c after)
  := by
  have hnested : ¬ (lexis.nestedComments = true ∧ c = '/' ∧ after.head? = some '*') := by
    rintro ⟨hnested, hc, hafter⟩
    simp [Lexis.differs, hnested, hc, hafter] at hsame
  rw [Lexis.step, scanStep, if_neg hnested]
  split
  · exact ⟨rfl, rfl, nofun, nofun⟩
  · exact ⟨rfl, rfl, nofun, nofun⟩

/-- Where a database goes the way of the scanner, a quote that closes a literal stands alone. -/
theorem doubles_of_closes {close : Char} {escapes : Bool}
    (hsame : lexis.differs (.quoted close escapes) before c after = false)
    (hcloses : c = close ∧ (escapes && isEscaped before) = false) :
  lexis.doubles close escapes after = false
  := by
  obtain ⟨rfl, hopen⟩ := hcloses
  cases escapes with
  | false => simp [Lexis.doubles]
  | true =>
      rw [Bool.true_and] at hopen
      simpa [Lexis.differs, hopen] using hsame

/-- A quoted text ends for the scanner where it ends for a database. -/
theorem mirrors_quoted {close : Char} {escapes : Bool} {scan : ScanMode}
    (hscan : (Mode.quoted close escapes).scanMode = some scan)
    (hescaped : isEscaped before = isEscaped before')
    (hsame : lexis.differs (.quoted close escapes) before c after = false) :
  Mirrors (lexis.step (.quoted close escapes) before c after) (scanStep scan before' c after)
  := by
  have hstep : ∀ closes : Bool,
      (c = close ∧ (escapes && isEscaped before) = false ↔ closes = true) →
      scanStep scan before' c after = (if closes then .plain else scan, 0, false) →
      Mirrors (lexis.step (.quoted close escapes) before c after)
        (scanStep scan before' c after) := by
    intro closes hcloses hscanStep
    rw [Lexis.step, hscanStep]
    cases closes with
    | false =>
        rw [if_neg (hcloses.not.mpr Bool.false_ne_true)]
        exact ⟨hscan, rfl, nofun, nofun⟩
    | true =>
        rw [if_pos (hcloses.mpr rfl), doubles_of_closes hsame (hcloses.mpr rfl)]
        exact ⟨rfl, rfl, nofun, nofun⟩
  have hquote : close ≠ '`' → (c = close ∧ (escapes && isEscaped before) = false
      ↔ decide (c = close ∧ isEscaped before' = false) = true) := by
    intro hclose
    rw [← hescaped, decide_eq_true_eq]
    constructor
    · rintro ⟨hc, hopen⟩
      use hc
      by_contra hbackslash
      simp [Lexis.differs, hc, hclose, hbackslash] at hsame hopen
      rw [hsame] at hopen
      cases hopen
    · rintro ⟨hc, hbackslash⟩
      rw [hbackslash, Bool.and_false]
      exact ⟨hc, rfl⟩
  rw [scanMode_quoted] at hscan
  split at hscan
  · rename_i hclose
    obtain rfl := Option.some.inj hscan
    subst hclose
    apply hstep _ (hquote (by decide))
    simp only [scanStep, decide_eq_true_eq]
  · split at hscan
    · rename_i hclose
      obtain rfl := Option.some.inj hscan
      subst hclose
      apply hstep _ (hquote (by decide))
      simp only [scanStep, decide_eq_true_eq]
    · split at hscan
      · rename_i hclose
        obtain rfl := Option.some.inj hscan
        obtain ⟨rfl, rfl⟩ := hclose
        apply hstep (decide (c = '`'))
        · simp
        · simp only [scanStep, decide_eq_true_eq]
      · cases hscan

/-- Outside of quotes and comments the scanner goes where a database goes. -/
theorem mirrors_top (hescaped : isEscaped before = isEscaped before')
    (hsame : lexis.differs .top before c after = false) :
  Mirrors (lexis.step .top before c after) (scanStep .plain before' c after)
  := by
  simp only [Lexis.differs, Bool.or_eq_false_iff, and_assoc] at hsame
  obtain ⟨hdashes, hhash, hslash, hquote, halternative, hbacktick, hdollar⟩ := hsame
  have hcomment : (c = '-' ∧ after.head? = some '-' ∧ lexis.dashesBegin (after.drop 1) = true)
      ↔ c = '-' ∧ after.head? = some '-' := by
    constructor
    · rintro ⟨hc, hafter, -⟩
      exact ⟨hc, hafter⟩
    · rintro ⟨hc, hafter⟩
      simp only [hc, hafter, beq_self_eq_true, Bool.true_and, Bool.not_eq_false'] at hdashes
      exact ⟨hc, hafter, hdashes⟩
  have hnoHash : ¬ (c = '#' ∧ lexis.hashComments = true) := by
    rintro ⟨hc, hcomments⟩
    simp [hc, hcomments] at hhash
  have hnoDollar : ¬ (c = '$' ∧ lexis.dollarQuotes = true
      ∧ (!(insideName before)) = true ∧ (dollarTag after).isSome = true) := by
    rintro ⟨hc, hquotes, hbefore, htag⟩
    simp [hc, hquotes, htag] at hdollar hbefore
    simp [hdollar] at hbefore
  rw [Lexis.step, scanStep]
  simp only [hcomment, hnoHash, hnoDollar, if_false]
  split
  · exact ⟨rfl, rfl, by simp, by simp⟩
  · split
    · exact ⟨rfl, rfl, by simp, by simp⟩
    · split
      · exact ⟨rfl, rfl, fun _ => rfl, fun _ => rfl⟩
      · split
        · rename_i hc
          simp only [hc, beq_self_eq_true, Bool.true_or, Bool.true_and] at hquote halternative
          rw [← hescaped, hquote]
          simp only [Lexis.openQuote, halternative, Bool.false_eq_true, if_false]
          exact ⟨rfl, rfl, by simp, by simp⟩
        · split
          · rename_i hc
            simp only [hc, beq_self_eq_true, Bool.or_true, Bool.true_and] at hquote
            rw [← hescaped, hquote]
            exact ⟨rfl, rfl, by simp, by simp⟩
          · by_cases hc : c = '`'
            · have hbackticks : lexis.backticks = true := by simpa [hc] using hbacktick
              simp only [hc, hbackticks, true_and, if_true]
              exact ⟨rfl, rfl, by simp, by simp⟩
            · simp only [hc, false_and, if_false]
              refine ⟨rfl, rfl, by simp, fun hmark => ?_⟩
              split at hmark <;> cases hmark

/-- Where its rules do not differ, the scanner goes where a database goes. -/
theorem mirrors_step {mode : Mode} {scan : ScanMode} (hscan : mode.scanMode = some scan)
    (hescaped : isEscaped before = isEscaped before')
    (hsame : lexis.differs mode before c after = false) :
  Mirrors (lexis.step mode before c after) (scanStep scan before' c after)
  := by
  cases mode with
  | top =>
      obtain rfl := Option.some.inj hscan
      apply mirrors_top hescaped hsame
  | quoted close escapes => apply mirrors_quoted hscan hescaped hsame
  | line =>
      obtain rfl := Option.some.inj hscan
      apply mirrors_line hsame
  | block depth =>
      cases depth with
      | zero =>
          obtain rfl := Option.some.inj hscan
          apply mirrors_block hsame
      | succ depth => cases hscan
  | alternative close => cases hscan
  | dollar tag => cases hscan

/-- A statement ends for the scanner at a semicolon only. -/
theorem eq_of_scanStep_separator {scan : ScanMode} (h : (scanStep scan before c after).2.2 = true) :
  c = ';' ∧ scan = .plain
  := by
  cases scan with
  | plain =>
      rw [scanStep] at h
      split at h
      · cases h
      · split at h
        · cases h
        · split at h
          · rename_i hc
            exact ⟨hc, rfl⟩
          · split at h
            · cases h
            · split at h
              · cases h
              · split at h
                · cases h
                · cases h
  | blockComment =>
      rw [scanStep] at h
      split at h
      · cases h
      · cases h
  | _ => cases h

/-- A semicolon outside of everything ends a statement. -/
theorem scanStep_semicolon (before after : Text) :
  scanStep .plain before ';' after = (.plain, 0, true)
  := rfl

/-- A statement ends for a database at a semicolon outside of everything. -/
theorem eq_of_step_separator {mode : Mode} (h : (lexis.step mode before c after).2.2 = .separator) :
  c = ';' ∧ mode = .top
  := by
  cases mode with
  | top =>
      rw [Lexis.step] at h
      split at h
      · cases h
      · split at h
        · cases h
        · split at h
          · cases h
          · split at h
            · rename_i hc
              exact ⟨hc, rfl⟩
            · split at h
              · cases h
              · split at h
                · cases h
                · split at h
                  · cases h
                  · split at h
                    · cases h
                    · dsimp only at h
                      split at h
                      · cases h
                      · cases h
  | block depth =>
      rw [Lexis.step.eq_def] at h
      dsimp only at h
      split at h
      · cases h
      · split at h
        · cases h
        · cases h
  | quoted close escapes =>
      rw [Lexis.step] at h
      split at h
      · split at h
        · cases h
        · cases h
      · cases h
  | alternative close =>
      rw [Lexis.step] at h
      split at h
      · cases h
      · cases h
  | dollar tag =>
      rw [Lexis.step] at h
      split at h
      · cases h
      · cases h
  | _ => cases h

theorem step_semicolon (before after : Text) :
  lexis.step .top before ';' after = (.top, 0, .separator)
  := by
  simp [Lexis.step]

theorem step_space (hc : isSpace c = true) :
  lexis.step .top before c after = (.top, 0, .blank)
  := by
  have hne : ∀ d : Char, isSpace d = false → c ≠ d := by
    rintro d hd rfl
    rw [hc] at hd
    cases hd
  simp [Lexis.step, hc, hne '-' (by decide), hne '#' (by decide), hne '/' (by decide),
    hne ';' (by decide), hne '\'' (by decide), hne '"' (by decide), hne '`' (by decide),
    hne '$' (by decide)]

end Steps

/-! ### What statements are made of -/

/-- A character that is neither white space nor a semicolon. -/
def Solid (c : Char) : Prop := isSpace c = false ∧ c ≠ ';'

section Solid

variable {lexis : Lexis}

theorem map_char_read (mode : Mode) (skip : ℕ) (mark : Mark) (before s : Text) :
  (lexis.read mode skip mark before s).map Place.char = s
  := by
  induction s generalizing mode skip mark before with
  | nil => rfl
  | cons c s ih =>
      cases skip with
      | zero => rw [Lexis.read, List.map_cons, ih]
      | succ skip => rw [Lexis.read, List.map_cons, ih]

/-- A part of a statement begins with a character that is neither white space nor a semicolon. -/
theorem exists_solid_of_hasToken {mark : Mark} {before s : Text} {reading rest : List Place}
    (hread : lexis.read .top 0 mark before s = reading ++ rest) (h : HasToken reading) :
  ∃ c ∈ reading.map Place.char, Solid c
  := by
  induction reading generalizing mark before s with
  | nil => exact (not_hasToken_nil h).elim
  | cons place reading ih =>
      cases s with
      | nil => cases hread
      | cons c s =>
          rw [Lexis.read, List.cons_append] at hread
          obtain ⟨rfl, htail⟩ := List.cons.inj hread
          rw [hasToken_cons] at h
          by_cases hc : isSpace c = true
          · rw [step_space hc] at htail h
            obtain ⟨d, hd, hsolid⟩ := ih htail (h.resolve_left nofun)
            exact ⟨d, List.mem_cons_of_mem _ hd, hsolid⟩
          · by_cases hsemicolon : c = ';'
            · subst hsemicolon
              rw [step_semicolon] at htail h
              obtain ⟨d, hd, hsolid⟩ := ih htail (h.resolve_left nofun)
              exact ⟨d, List.mem_cons_of_mem _ hd, hsolid⟩
            · exact ⟨c, List.mem_cons_self, by simpa using hc, hsemicolon⟩

theorem statementOf_ne_nil {part : Text} (h : ∃ c ∈ part, Solid c) :
  statementOf part.reverse ≠ []
  := by
  obtain ⟨c, hc, hspace, -⟩ := h
  have hstrip : strip part.reverse ≠ [] := by
    intro hnil
    rw [strip, stripBy, List.reverse_eq_nil_iff, List.dropWhile_eq_nil_iff] at hnil
    have hfront : part.reverse.dropWhile isSpace = [] := by
      cases hdrop : part.reverse.dropWhile isSpace with
      | nil => rfl
      | cons d rest =>
          have hd : isSpace d = true := by
            apply hnil
            rw [hdrop]
            simp
          have hhead := List.head_dropWhile_not (p := isSpace) (l := part.reverse) (by simp [hdrop])
          simp only [hdrop, List.head_cons] at hhead
          rw [hhead] at hd
          cases hd
    have hall := List.dropWhile_eq_nil_iff.mp hfront c (List.mem_reverse.mpr hc)
    rw [hspace] at hall
    cases hall
  rw [statementOf, if_neg hstrip]
  apply List.cons_ne_nil

/-- A text with something in it has a statement. -/
theorem splitFrom_ne_nil {scan : ScanMode} {skip : ℕ} {before part s : Text}
    (h : ∃ c ∈ part ++ s, Solid c) :
  splitFrom scan skip before part s ≠ []
  := by
  induction s generalizing scan skip before part with
  | nil =>
      rw [splitFrom]
      apply statementOf_ne_nil
      simpa using h
  | cons c s ih =>
      have hshift : ∃ d ∈ (c :: part) ++ s, Solid d := by
        obtain ⟨d, hd, hsolid⟩ := h
        refine ⟨d, ?_, hsolid⟩
        simp only [List.mem_append, List.mem_cons] at hd ⊢
        tauto
      cases skip with
      | succ skip =>
          rw [splitFrom]
          apply ih hshift
      | zero =>
          rw [splitFrom]
          split
          · rename_i next skip hstep
            have hc : c = ';' := (eq_of_scanStep_separator (by rw [hstep])).1
            obtain ⟨d, hd, hsolid⟩ := h
            rcases List.mem_append.mp hd with hpart | hrest
            · apply List.append_ne_nil_of_left_ne_nil
              apply statementOf_ne_nil ⟨d, hpart, hsolid⟩
            · apply List.append_ne_nil_of_right_ne_nil
              apply ih
              rcases List.mem_cons.mp hrest with rfl | hrest
              · apply (hsolid.2 hc).elim
              · exact ⟨d, hrest, hsolid⟩
          · apply ih hshift

/-- Backslashes count back to the first other character. -/
theorem isEscaped_append (scanned : Text) {earlier : Text} (h : earlier.head? ≠ some '\\') :
  isEscaped (scanned ++ earlier) = isEscaped scanned
  := by
  rw [isEscaped, isEscaped]
  by_cases hall : ∀ d ∈ scanned, (d == '\\') = true
  · have hnone : earlier.takeWhile (fun d => d == '\\') = [] := by
      cases earlier with
      | nil => rfl
      | cons d rest =>
          apply List.takeWhile_cons_of_neg
          simpa using fun hd => h (by rw [hd]; rfl)
    rw [List.takeWhile_append_of_pos hall, hnone, List.append_nil,
      List.takeWhile_eq_self_iff.mpr hall]
  · rw [List.takeWhile_append, if_neg]
    intro hlength
    apply hall
    apply List.takeWhile_eq_self_iff.mp
    apply (List.takeWhile_prefix _).eq_of_length hlength

/-- The scanner sees a semicolon between two statements that nothing in front of is read in another
way. -/
theorem two_le_length_splitFrom {mode : Mode} {scan : ScanMode} {skip : ℕ} {mark : Mark}
    {before scanned earlier part s : Text} {reading after : List Place} {semicolon : Place}
    (hread : lexis.read mode skip mark before s = reading ++ semicolon :: after)
    (hscan : mode.scanMode = some scan) (hbefore : before = scanned ++ earlier)
    (hearlier : earlier.head? ≠ some '\\') (hsame : ∀ place ∈ reading, place.differs = false)
    (hmark : 0 < skip → mark ≠ .separator) (hsemicolon : semicolon.mark = .separator)
    (hfront : ∃ c ∈ part ++ reading.map Place.char, Solid c)
    (hback : ∃ c ∈ after.map Place.char, Solid c) :
  2 ≤ (splitFrom scan skip scanned part s).length
  := by
  induction s generalizing mode scan skip mark before scanned part reading with
  | nil =>
      cases reading <;> cases hread
  | cons c s ih =>
      subst hbefore
      cases skip with
      | succ skip =>
          rw [Lexis.read] at hread
          rw [splitFrom]
          cases reading with
          | nil =>
              obtain ⟨rfl, -⟩ := List.cons.inj hread
              apply (hmark (Nat.succ_pos skip) hsemicolon).elim
          | cons place reading =>
              obtain ⟨rfl, htail⟩ := List.cons.inj hread
              refine ih htail hscan rfl (fun p hp => hsame p (List.mem_cons_of_mem _ hp))
                (fun _ => hmark (Nat.succ_pos skip)) ?_
              obtain ⟨d, hd, hsolid⟩ := hfront
              refine ⟨d, ?_, hsolid⟩
              simp only [List.map_cons, List.mem_append, List.mem_cons] at hd ⊢
              tauto
      | zero =>
          rw [Lexis.read] at hread
          cases reading with
          | nil =>
              obtain ⟨rfl, htail⟩ := List.cons.inj hread
              obtain ⟨rfl, rfl⟩ := eq_of_step_separator hsemicolon
              obtain rfl := Option.some.inj hscan
              have hpart : statementOf part.reverse ≠ [] := by
                apply statementOf_ne_nil
                simpa using hfront
              have hrest : splitFrom .plain 0 (';' :: scanned) [] s ≠ [] := by
                apply splitFrom_ne_nil
                rw [← htail, map_char_read] at hback
                exact hback
              rw [splitFrom, scanStep_semicolon, List.length_append]
              have hpos := List.length_pos_of_ne_nil hpart
              have hpos' := List.length_pos_of_ne_nil hrest
              omega
          | cons place reading =>
              rw [List.cons_append] at hread
              obtain ⟨rfl, htail⟩ := List.cons.inj hread
              have hmirrors : Mirrors (lexis.step mode (scanned ++ earlier) c s)
                  (scanStep scan scanned c s) :=
                mirrors_step hscan (isEscaped_append scanned hearlier) (hsame _ List.mem_cons_self)
              have hsame' := fun p hp => hsame p (List.mem_cons_of_mem _ hp)
              have hshift : ∃ d ∈ (c :: part) ++ reading.map Place.char, Solid d := by
                obtain ⟨d, hd, hsolid⟩ := hfront
                refine ⟨d, ?_, hsolid⟩
                simp only [List.map_cons, List.mem_append, List.mem_cons] at hd ⊢
                tauto
              rw [splitFrom]
              split
              · rename_i next skip hstep
                rw [hstep] at hmirrors
                obtain ⟨rfl, rfl⟩ := eq_of_step_separator (hmirrors.separator.mp rfl)
                rw [step_semicolon] at htail hmirrors
                have hnext : Mode.top.scanMode = some next := hmirrors.mode
                rw [List.length_append]
                obtain ⟨d, hd, hsolid⟩ := hfront
                rcases List.mem_append.mp hd with hpart | hreading
                · have hstatement := List.length_pos_of_ne_nil
                    (statementOf_ne_nil ⟨d, hpart, hsolid⟩)
                  have hrest : splitFrom next 0 (';' :: scanned) [] s ≠ [] := by
                    apply splitFrom_ne_nil
                    have hmap := congrArg (List.map Place.char) htail
                    rw [map_char_read, List.map_append, List.map_cons] at hmap
                    obtain ⟨e, he, hsolid⟩ := hback
                    refine ⟨e, ?_, hsolid⟩
                    rw [List.nil_append, hmap]
                    apply List.mem_append_right _ (List.mem_cons_of_mem _ he)
                  have hpos := List.length_pos_of_ne_nil hrest
                  omega
                · have htwo : 2 ≤ (splitFrom next 0 (';' :: scanned) [] s).length := by
                    refine ih htail hnext rfl hsame' nofun ⟨d, ?_, hsolid⟩
                    rcases List.mem_cons.mp hreading with rfl | hreading
                    · apply (hsolid.2 rfl).elim
                    · exact hreading
                  omega
              · rename_i next skip hstep
                rw [hstep] at hmirrors
                rw [show _ = skip from hmirrors.skip] at htail
                refine ih htail hmirrors.mode rfl hsame' (fun _ hseparator => ?_) hshift
                cases hmirrors.separator.mpr hseparator

end Solid

/-! ### White space at the end -/

theorem statementOf_cons_space {part : Text} {c : Char} (hc : isSpace c = true) :
  statementOf (c :: part).reverse = statementOf part.reverse
  := by
  rw [List.reverse_cons, statementOf, statementOf,
    strip_append_right (by simpa using hc)]

/-- The scanner looks one character ahead, and white space is as good as the end of the text. -/
theorem scanStep_append (scan : ScanMode) (before : Text) (c : Char) (s : Text) {spaces : Text}
    (hspaces : ∀ d ∈ spaces, isSpace d = true) :
  scanStep scan before c (s ++ spaces) = scanStep scan before c s
  := by
  have hhead : ∀ d : Char, isSpace d = false →
      ((s ++ spaces).head? = some d ↔ s.head? = some d) := by
    intro d hd
    cases s with
    | cons e s => exact Iff.rfl
    | nil =>
        cases spaces with
        | nil => exact Iff.rfl
        | cons e spaces =>
            constructor
            · intro heq
              have he := hspaces e List.mem_cons_self
              rw [Option.some.inj heq, hd] at he
              cases he
            · nofun
  cases scan <;> simp only [scanStep, hhead '-' (by decide), hhead '*' (by decide),
    hhead '/' (by decide)]

/-- White space behind a text makes no statement. -/
theorem splitFrom_append_spaces (scan : ScanMode) (skip : ℕ) (before part s : Text) {spaces : Text}
    (hspaces : ∀ d ∈ spaces, isSpace d = true) :
  splitFrom scan skip before part (s ++ spaces) = splitFrom scan skip before part s
  := by
  induction s generalizing scan skip before part with
  | nil =>
      rw [List.nil_append, splitFrom]
      induction spaces generalizing scan skip before part with
      | nil => rw [splitFrom]
      | cons c spaces ih =>
          have hc := hspaces c List.mem_cons_self
          have hrest := fun d hd => hspaces d (List.mem_cons_of_mem _ hd)
          cases skip with
          | succ skip => rw [splitFrom, ih hrest, statementOf_cons_space hc]
          | zero =>
              rw [splitFrom]
              split
              · rename_i next skip hstep
                have hsemicolon : c = ';' := (eq_of_scanStep_separator (by rw [hstep])).1
                rw [hsemicolon] at hc
                cases hc
              · rw [ih hrest, statementOf_cons_space hc]
  | cons c s ih =>
      cases skip with
      | succ skip => rw [List.cons_append, splitFrom, splitFrom, ih]
      | zero =>
          rw [List.cons_append, splitFrom, splitFrom, scanStep_append _ _ _ _ hspaces]
          split
          · rw [ih]
          · rw [ih]

/-- A text without white space in front has the statements it has without the white space behind. -/
theorem splitSemicolonStatements_strip {s : Text} (h : lstrip s = s) :
  splitSemicolonStatements (strip s) = splitSemicolonStatements s
  := by
  have hsplit : s = strip s ++ (s.reverse.takeWhile isSpace).reverse := by
    have hparts := congrArg List.reverse (List.takeWhile_append_dropWhile (p := isSpace)
      (l := s.reverse))
    rw [List.reverse_append, List.reverse_reverse] at hparts
    rw [strip, stripBy, show s.dropWhile isSpace = s from h]
    exact hparts.symm
  have hspaces : ∀ d ∈ (s.reverse.takeWhile isSpace).reverse, isSpace d = true := by
    intro d hd
    exact List.mem_takeWhile_imp (List.mem_reverse.mp hd)
  conv_rhs => rw [hsplit]
  exact (splitFrom_append_spaces _ _ _ _ _ hspaces).symm

/-! ### Comments in front -/

section Leading

variable {lexis : Lexis} {semicolon : Place} {after : List Place}

/-- The rest of a reading after blanks in front of it. -/
def Resumes (lexis : Lexis) (reading : List Place) (semicolon : Place) (after : List Place)
    (s : Text) : Prop :=
  ∃ front rest mark before, reading = front ++ rest
    ∧ (∀ place ∈ front, place.mark = .blank)
    ∧ lexis.read .top 0 mark before s = rest ++ semicolon :: after
    ∧ before.head? ≠ some '\\'

/-- A blank in front of the rest of a reading. -/
theorem Resumes.cons {place : Place} {reading : List Place} {s : Text}
    (hplace : place.mark = .blank) (h : Resumes lexis reading semicolon after s) :
  Resumes lexis (place :: reading) semicolon after s
  := by
  obtain ⟨front, rest, mark, before, rfl, hfront, hread, hbefore⟩ := h
  refine ⟨place :: front, rest, mark, before, rfl, ?_, hread, hbefore⟩
  intro p hp
  rcases List.mem_cons.mp hp with rfl | hp
  · exact hplace
  · exact hfront p hp

/-- What comes after blanks can be passed over further. -/
theorem Resumes.trans {reading : List Place} {s t : Text}
    (h : Resumes lexis reading semicolon after s)
    (hsame : ∀ place ∈ reading, place.differs = false)
    (hnext : ∀ (mark : Mark) (before : Text) (rest : List Place),
      lexis.read .top 0 mark before s = rest ++ semicolon :: after →
      before.head? ≠ some '\\' → (∀ place ∈ rest, place.differs = false) →
      Resumes lexis rest semicolon after t) :
  Resumes lexis reading semicolon after t
  := by
  obtain ⟨front, rest, mark, before, rfl, hfront, hread, hbefore⟩ := h
  obtain ⟨front', rest', mark', before', rfl, hfront', hread', hbefore'⟩ :=
    hnext mark before rest hread hbefore (fun p hp => hsame p (List.mem_append_right _ hp))
  refine ⟨front ++ front', rest', mark', before', (List.append_assoc _ _ _).symm, ?_, hread',
    hbefore'⟩
  intro p hp
  rcases List.mem_append.mp hp with hp | hp
  · exact hfront p hp
  · exact hfront' p hp

theorem resumes_lstrip {mark : Mark} {before s : Text} {reading : List Place}
    (hread : lexis.read .top 0 mark before s = reading ++ semicolon :: after)
    (hsemicolon : semicolon.mark = .separator) (hbefore : before.head? ≠ some '\\') :
  Resumes lexis reading semicolon after (lstrip s)
  := by
  induction s generalizing mark before reading with
  | nil => cases reading <;> cases hread
  | cons c s ih =>
      by_cases hc : isSpace c = true
      · rw [lstrip, List.dropWhile_cons_of_pos hc]
        rw [Lexis.read, step_space hc] at hread
        cases reading with
        | nil =>
            rw [← (List.cons.inj hread).1] at hsemicolon
            cases hsemicolon
        | cons place reading =>
            rw [List.cons_append] at hread
            obtain ⟨rfl, htail⟩ := List.cons.inj hread
            apply Resumes.cons rfl
            apply ih htail
            rintro heq
            rw [Option.some.inj heq] at hc
            cases hc
      · rw [lstrip, List.dropWhile_cons_of_neg hc]
        exact ⟨[], reading, mark, before, rfl, nofun, hread, hbefore⟩

/-- A line comment is passed over. -/
theorem resumes_line {mark : Mark} {before s rest : Text} {reading : List Place}
    (hread : lexis.read .line 0 mark before s = reading ++ semicolon :: after)
    (hsemicolon : semicolon.mark = .separator)
    (hsame : ∀ place ∈ reading, place.differs = false)
    (hrest : afterFirst "\n".toList s = some rest) :
  Resumes lexis reading semicolon after rest
  := by
  induction s generalizing mark before reading with
  | nil => cases hrest
  | cons c s ih =>
      rw [Lexis.read] at hread
      cases reading with
      | nil =>
          rw [← (List.cons.inj hread).1] at hsemicolon
          cases hsemicolon
      | cons place reading =>
          rw [List.cons_append] at hread
          obtain ⟨rfl, htail⟩ := List.cons.inj hread
          apply Resumes.cons rfl
          have hsame' := fun p hp => hsame p (List.mem_cons_of_mem _ hp)
          have hdiffers := hsame _ List.mem_cons_self
          rw [afterFirst] at hrest
          by_cases hc : c = '\n'
          · subst hc
            rw [if_pos (by rfl)] at hrest
            obtain rfl := Option.some.inj hrest
            have hstep : lexis.step .line before '\n' s = (.top, 0, .blank) := by
              simp [Lexis.step, Lexis.endsLine]
            rw [hstep] at htail
            exact ⟨[], reading, .blank, '\n' :: before, rfl, by simp, htail, by simp⟩
          · have hno : "\n".toList.isPrefixOf (c :: s) = false := by
              simp [List.isPrefixOf, Ne.symm hc]
            rw [hno] at hrest
            have hends : lexis.endsLine c s = false := by simpa [Lexis.differs, hc] using hdiffers
            have hstep : lexis.step .line before c s = (.line, 0, .blank) := by
              simp [Lexis.step, hends]
            rw [hstep] at htail
            exact ih htail hsame' hrest

/-- A block comment is passed over. -/
theorem resumes_block {mark : Mark} {before s rest : Text} {reading : List Place}
    (hread : lexis.read (.block 0) 0 mark before s = reading ++ semicolon :: after)
    (hsemicolon : semicolon.mark = .separator)
    (hsame : ∀ place ∈ reading, place.differs = false)
    (hrest : afterFirst "*/".toList s = some rest) :
  Resumes lexis reading semicolon after rest
  := by
  induction s generalizing mark before reading with
  | nil => cases hrest
  | cons c s ih =>
      have hblank : (lexis.step (.block 0) before c s).2.2 = .blank := by
        rw [Lexis.step.eq_def]
        dsimp only
        split
        · rfl
        · split <;> rfl
      rw [Lexis.read] at hread
      cases reading with
      | nil =>
          rw [← (List.cons.inj hread).1] at hsemicolon
          cases hblank.symm.trans hsemicolon
      | cons place reading =>
          rw [List.cons_append] at hread
          obtain ⟨rfl, htail⟩ := List.cons.inj hread
          apply Resumes.cons hblank
          have hsame' := fun p hp => hsame p (List.mem_cons_of_mem _ hp)
          have hdiffers := hsame _ List.mem_cons_self
          rw [afterFirst] at hrest
          by_cases hclose : c = '*' ∧ s.head? = some '/'
          · obtain ⟨rfl, hhead⟩ := hclose
            obtain ⟨u, rfl⟩ := List.head?_eq_some_iff.mp hhead
            rw [if_pos (by rfl)] at hrest
            obtain rfl := Option.some.inj hrest
            have hstep : lexis.step (.block 0) before '*' ('/' :: u) = (.top, 1, .blank) := by
              simp [Lexis.step]
            rw [hstep, Lexis.read] at htail
            cases reading with
            | nil =>
                rw [← (List.cons.inj htail).1] at hsemicolon
                cases hsemicolon
            | cons place reading =>
                rw [List.cons_append] at htail
                obtain ⟨rfl, hlast⟩ := List.cons.inj htail
                exact .cons rfl
                  ⟨[], reading, .blank, '/' :: '*' :: before, rfl, by simp, hlast, by simp⟩
          · have hno : "*/".toList.isPrefixOf (c :: s) = false := by
              rw [Bool.eq_false_iff]
              intro hprefix
              obtain ⟨u, hu⟩ := List.isPrefixOf_iff_prefix.mp hprefix
              obtain ⟨rfl, rfl⟩ := List.cons.inj hu
              exact hclose ⟨rfl, rfl⟩
            rw [hno] at hrest
            have hstep : lexis.step (.block 0) before c s = (.block 0, 0, .blank) := by
              have hnested : ¬ (lexis.nestedComments = true ∧ c = '/' ∧ s.head? = some '*') := by
                rintro ⟨hnested, hc, hhead⟩
                simp [Lexis.differs, hnested, hc, hhead] at hdiffers
              rw [Lexis.step.eq_def]
              dsimp only
              rw [if_neg hclose, if_neg hnested]
            rw [hstep] at htail
            exact ih htail hsame' hrest

/-- Two dashes that begin a comment are passed over with the comment. -/
theorem resumes_dashes {mark : Mark} {before s rest : Text} {reading : List Place}
    (hread : lexis.read .top 0 mark before ('-' :: '-' :: s) = reading ++ semicolon :: after)
    (hsemicolon : semicolon.mark = .separator)
    (hsame : ∀ place ∈ reading, place.differs = false)
    (hrest : afterFirst "\n".toList s = some rest) :
  Resumes lexis reading semicolon after rest
  := by
  rw [Lexis.read] at hread
  cases reading with
  | nil =>
      rw [← (List.cons.inj hread).1] at hsemicolon
      cases (eq_of_step_separator hsemicolon).1
  | cons place reading =>
      rw [List.cons_append] at hread
      obtain ⟨rfl, htail⟩ := List.cons.inj hread
      have hbegin : lexis.dashesBegin s = true := by
        simpa [Lexis.differs] using hsame _ List.mem_cons_self
      have hstep : lexis.step .top before '-' ('-' :: s) = (.line, 1, .blank) := by
        simp [Lexis.step, hbegin]
      rw [hstep, Lexis.read] at htail
      apply Resumes.cons (by rw [hstep])
      cases reading with
      | nil =>
          rw [← (List.cons.inj htail).1] at hsemicolon
          cases hsemicolon
      | cons place reading =>
          rw [List.cons_append] at htail
          obtain ⟨rfl, hline⟩ := List.cons.inj htail
          apply Resumes.cons rfl
          apply resumes_line hline hsemicolon _ hrest
          intro p hp
          apply hsame p (List.mem_cons_of_mem _ (List.mem_cons_of_mem _ hp))

/-- The opening of a comment is passed over with the comment. -/
theorem resumes_opening {mark : Mark} {before s rest : Text} {reading : List Place}
    (hread : lexis.read .top 0 mark before ('/' :: '*' :: s) = reading ++ semicolon :: after)
    (hsemicolon : semicolon.mark = .separator)
    (hsame : ∀ place ∈ reading, place.differs = false)
    (hrest : afterFirst "*/".toList ('*' :: s) = some rest) :
  Resumes lexis reading semicolon after rest
  := by
  rw [Lexis.read] at hread
  cases reading with
  | nil =>
      rw [← (List.cons.inj hread).1] at hsemicolon
      cases (eq_of_step_separator hsemicolon).1
  | cons place reading =>
      rw [List.cons_append] at hread
      obtain ⟨rfl, htail⟩ := List.cons.inj hread
      have hclosed : "*/".toList.isPrefixOf ('*' :: s) = false := by
        simpa [Lexis.differs] using hsame _ List.mem_cons_self
      have hstep : lexis.step .top before '/' ('*' :: s) = (.block 0, 1, .blank) := by
        simp [Lexis.step]
      rw [afterFirst, hclosed] at hrest
      rw [hstep, Lexis.read] at htail
      apply Resumes.cons (by rw [hstep])
      cases reading with
      | nil =>
          rw [← (List.cons.inj htail).1] at hsemicolon
          cases hsemicolon
      | cons place reading =>
          rw [List.cons_append] at htail
          obtain ⟨rfl, hblock⟩ := List.cons.inj htail
          apply Resumes.cons rfl
          apply resumes_block hblock hsemicolon _ hrest
          intro p hp
          apply hsame p (List.mem_cons_of_mem _ (List.mem_cons_of_mem _ hp))

/-- What is left behind the comments in front is read from the start again. -/
theorem resumes_stripLeadingFrom {fuel : ℕ} {mark : Mark} {before s rest : Text}
    {reading : List Place}
    (hread : lexis.read .top 0 mark before s = reading ++ semicolon :: after)
    (hsemicolon : semicolon.mark = .separator) (hbefore : before.head? ≠ some '\\')
    (hsame : ∀ place ∈ reading, place.differs = false)
    (hrest : stripLeadingFrom fuel s = .ok rest) (hne : rest ≠ []) :
  Resumes lexis reading semicolon after rest
  := by
  induction fuel generalizing mark before s reading with
  | zero =>
      obtain rfl := Except.ok.inj hrest
      exact ⟨[], reading, mark, before, rfl, nofun, hread, hbefore⟩
  | succ fuel ih =>
      -- a comment has been passed over, and the white space behind it is passed over next
      have hnext : ∀ u, stripLeadingFrom fuel (lstrip u) = .ok rest →
          Resumes lexis reading semicolon after u → Resumes lexis reading semicolon after rest := by
        intro u hu hresumes
        apply hresumes.trans hsame
        intro mark before reading hread hbefore hsame
        apply (resumes_lstrip hread hsemicolon hbefore).trans hsame
        intro mark before reading hread hbefore hsame
        exact ih hread hbefore hsame hu
      rw [stripLeadingFrom] at hrest
      split at hrest
      · rename_i hprefix
        obtain ⟨t, rfl⟩ := List.isPrefixOf_iff_prefix.mp hprefix
        split at hrest
        · obtain rfl := Except.ok.inj hrest
          apply (hne rfl).elim
        · rename_i u hu
          apply hnext u hrest
          exact resumes_dashes hread hsemicolon hsame hu
      · split at hrest
        · rename_i hprefix
          obtain ⟨t, rfl⟩ := List.isPrefixOf_iff_prefix.mp hprefix
          split at hrest
          · cases hrest
          · rename_i u hu
            apply hnext u hrest
            exact resumes_opening hread hsemicolon hsame hu
        · obtain rfl := Except.ok.inj hrest
          exact ⟨[], reading, mark, before, rfl, nofun, hread, hbefore⟩

end Leading

/-! ### One statement -/

/-- Behind a semicolon a reading starts again. -/
theorem read_after_separator {lexis : Lexis} {mode : Mode} {skip : ℕ} {mark : Mark}
    {before s : Text} {reading after : List Place} {semicolon : Place}
    (hread : lexis.read mode skip mark before s = reading ++ semicolon :: after)
    (hmark : 0 < skip → mark ≠ .separator) (hsemicolon : semicolon.mark = .separator) :
  ∃ mark' before' s', after = lexis.read .top 0 mark' before' s'
  := by
  induction s generalizing mode skip mark before reading with
  | nil => cases reading <;> cases hread
  | cons c s ih =>
      cases skip with
      | succ skip =>
          rw [Lexis.read] at hread
          cases reading with
          | nil =>
              rw [← (List.cons.inj hread).1] at hsemicolon
              apply (hmark (Nat.succ_pos skip) hsemicolon).elim
          | cons place reading =>
              rw [List.cons_append] at hread
              exact ih (List.cons.inj hread).2 (fun _ => hmark (Nat.succ_pos skip))
      | zero =>
          rw [Lexis.read] at hread
          cases reading with
          | nil =>
              obtain ⟨rfl, htail⟩ := List.cons.inj hread
              obtain ⟨rfl, rfl⟩ := eq_of_step_separator hsemicolon
              rw [step_semicolon] at htail
              exact ⟨_, _, _, htail.symm⟩
          | cons place reading =>
              rw [List.cons_append] at hread
              refine ih (List.cons.inj hread).2 (fun hskip hseparator => ?_)
              obtain ⟨rfl, rfl⟩ := eq_of_step_separator hseparator
              rw [step_semicolon] at hskip
              cases hskip

/-- A text is refused when a semicolon separates two statements and nothing in front of it is read
in another way. -/
theorem not_accepted_of_separates {isWord : Char → Bool} {lexis : Lexis} {sql : Text}
    {before after : List Place} {semicolon : Place}
    (h : Separates (lexis.places sql) before semicolon after)
    (hsame : ∀ place ∈ before, place.differs = false) :
  ¬ Accepted isWord sql
  := by
  intro haccepted
  obtain ⟨rest, hrest, hne, hone⟩ := haccepted.statements
  have hrestNe : rest ≠ [] := by
    rintro rfl
    apply hne
    rfl
  have hresumes : Resumes lexis before semicolon after rest := by
    apply (resumes_lstrip h.eq h.mark (by simp)).trans hsame
    intro mark earlier reading hread hearlier hsame
    exact resumes_stripLeadingFrom hread h.mark hearlier hsame hrest hrestNe
  obtain ⟨front, reading, mark, earlier, rfl, hfront, hread, hearlier⟩ := hresumes
  have htoken : HasToken reading := by
    obtain ⟨p, hp, hmark⟩ := h.before
    rcases List.mem_append.mp hp with hp | hp
    · cases (hfront p hp).symm.trans hmark
    · exact ⟨p, hp, hmark⟩
  have hback : ∃ c ∈ after.map Place.char, Solid c := by
    obtain ⟨mark', earlier', s', hafter⟩ := read_after_separator hread nofun h.mark
    exact exists_solid_of_hasToken (hafter.symm.trans (List.append_nil after).symm) h.after
  have htwo : 2 ≤ (splitSemicolonStatements rest).length :=
    two_le_length_splitFrom hread rfl (List.nil_append earlier).symm hearlier
      (fun p hp => hsame p (List.mem_append_right _ hp)) nofun h.mark
      (exists_solid_of_hasToken hread htoken) hback
  rw [splitSemicolonStatements_strip (lstrip_of_stripLeadingFrom hrest)] at hone
  omega

/-- An insertion of one backslash, with a second statement behind it. -/
def backslashSql : Text := "insert into t values ('\\'); drop table t; --')".toList

end Sql

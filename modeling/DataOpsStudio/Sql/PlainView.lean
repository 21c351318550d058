import DataOpsStudio.Sql.Shield

/-!
# Placeholders in plain view

A placeholder is to be replaced when the database does not read it as a part of a quoted text or a
comment.  The scanner sees the same placeholders as the database up to the first place where the
rules of the database lead elsewhere.
-/

namespace Sql

open Text

namespace Lexis

variable (lexis : Lexis)

/-- Whether the characters of the rest of a text are outside of quoted texts and comments for a
database, after the characters `before` in reverse. -/
def plainFrom (mode : Mode) (skip : ℕ) (before : Text) : Text → List Bool
  | [] => []
  | c :: s =>
      match skip with
      | skip + 1 => false :: plainFrom mode skip (c :: before) s
      | 0 =>
          decide (mode = .top ∧ (lexis.step mode before c s).1 = .top)
            :: plainFrom (lexis.step mode before c s).1 (lexis.step mode before c s).2.1
              (c :: before) s

/-- Whether a dollar quote begins at a character. -/
def beginsDollar (before : Text) (c : Char) (after : Text) : Bool :=
  c == '$' && lexis.dollarQuotes && !(insideName before) && (dollarTag after).isSome

/-- The places at which the rules of a database lead elsewhere than the scanner of placeholders: two
dashes, a hash or a backtick that begin nothing, and a dollar quote that only one of them sees; a
carriage return that ends a line; a comment inside a comment; and a quote that is not escaped by
the backslash before it. -/
def misscans (mode : Mode) (before : Text) (c : Char) (after : Text) : Bool :=
  match mode with
  | .top =>
      (c == '-' && after.head? == some '-' && !lexis.dashesBegin (after.drop 1))
        || (c == '#' && !lexis.hashComments)
        || (c == '`' && !lexis.backticks)
        || (dollarQuote? (c :: after)).isSome != lexis.beginsDollar before c after
  | .line => c != '\n' && lexis.endsLine c after
  | .block _ => lexis.nestedComments && c == '/' && after.head? == some '*'
  | .quoted close escapes => c == close && !escapes && isEscaped before
  | .alternative _ => false
  | .dollar _ => false

/-- The places of the rest of a text at which a database leads elsewhere. -/
def misscansFrom (mode : Mode) (skip : ℕ) (before : Text) : Text → List Bool
  | [] => []
  | c :: s =>
      match skip with
      | skip + 1 => false :: misscansFrom mode skip (c :: before) s
      | 0 =>
          lexis.misscans mode before c s
            :: misscansFrom (lexis.step mode before c s).1 (lexis.step mode before c s).2.1
              (c :: before) s

theorem length_plainFrom {mode : Mode} {skip : ℕ} {before s : Text} :
  (lexis.plainFrom mode skip before s).length = s.length
  := by
  induction s generalizing mode skip before with
  | nil => rfl
  | cons c s ih =>
      cases skip with
      | succ skip => rw [plainFrom, List.length_cons, List.length_cons, ih]
      | zero => rw [plainFrom, List.length_cons, List.length_cons, ih]

end Lexis

/-! ### Where the scanner is -/

/-- The scanner is where the database is, at the rest of a text: outside of quoted texts and
comments, or inside of the same one, as many characters in front of its end as are left of it. -/
inductive Scans (lexis : Lexis) : Mode → ℕ → Text → ℕ → Text → Prop
  | done (mode : Mode) (skip : ℕ) (before : Text) (length : ℕ) :
      Scans lexis mode skip before length []
  | top (skip : ℕ) (before s : Text) : Scans lexis .top skip before skip s
  | reopened (close : Char) (before s : Text) (hclose : close = '\'' ∨ close = '"' ∨ close = '`')
      (hbackticks : close = '`' → lexis.backticks = true) :
      Scans lexis .top 0 before (quotedLength close s + 1) (close :: s)
  | line (before s : Text) : Scans lexis .line 0 before (lengthThrough "\n".toList s) s
  | dash (before s : Text) :
      Scans lexis .line 1 before (lengthThrough "\n".toList s + 1) ('-' :: s)
  | block (before s : Text) : Scans lexis (.block 0) 0 before (lengthThrough "*/".toList s) s
  | star (before s : Text) :
      Scans lexis (.block 0) 1 before (lengthThrough "*/".toList s + 1) ('*' :: s)
  | dollar (tag : Text) (skip : ℕ) (before s : Text) :
      Scans lexis (.dollar tag) skip before
        (lengthThrough ('$' :: tag ++ ['$']) (s.drop skip) + skip) s
  | quoted (close : Char) (escapes : Bool) (before s : Text)
      (hclose : close = '\'' ∨ close = '"' ∨ close = '`')
      (hbackticks : close = '`' → lexis.backticks = true) (hescaped : isEscaped before = false) :
      Scans lexis (.quoted close escapes) 0 before (quotedLength close s) s
  | escaped (close : Char) (escapes : Bool) (before : Text) (c : Char) (s : Text)
      (hclose : close = '\'' ∨ close = '"' ∨ close = '`')
      (hbackticks : close = '`' → lexis.backticks = true) (hescaped : isEscaped before = true) :
      Scans lexis (.quoted close escapes) 0 before (quotedLength close s + 1) (c :: s)
  | doubled (close : Char) (escapes : Bool) (before s : Text)
      (hclose : close = '\'' ∨ close = '"' ∨ close = '`')
      (hbackticks : close = '`' → lexis.backticks = true) :
      Scans lexis (.quoted close escapes) 1 before (quotedLength close s + 1) (close :: s)

theorem isEscaped_backslash (before : Text) :
  isEscaped ('\\' :: before) = !isEscaped before
  := by
  have hlength : ('\\' :: before).takeWhile (fun c => c == '\\')
      = '\\' :: before.takeWhile (fun c => c == '\\') := by simp
  rw [isEscaped, isEscaped, hlength, List.length_cons]
  generalize (before.takeWhile (fun c => c == '\\')).length = n
  rcases Nat.mod_two_eq_zero_or_one n with h | h
  · rw [Nat.add_mod, h]
    rfl
  · rw [Nat.add_mod, h]
    rfl

theorem isEscaped_of_ne {c : Char} (h : c ≠ '\\') (before : Text) :
  isEscaped (c :: before) = false
  := by
  rw [isEscaped, List.takeWhile_cons_of_neg (by simpa using h)]
  rfl

/-- A character that does not begin the occurrence is passed over. -/
theorem lengthThrough_cons {part s : Text} {c : Char} (h : part.isPrefixOf (c :: s) = false) :
  lengthThrough part (c :: s) = lengthThrough part s + 1
  := by
  rw [lengthThrough, lengthThrough, afterFirst, h]
  cases hrest : afterFirst part s with
  | none => simp
  | some rest =>
      have hlength := length_afterFirst hrest
      simp only [Bool.false_eq_true, if_false, List.length_cons]
      omega

theorem lengthThrough_of_prefix {part s : Text} (hpart : part ≠ []) (h : part <+: s) :
  lengthThrough part s = part.length
  := by
  obtain ⟨rest, rfl⟩ := h
  obtain ⟨c, part, rfl⟩ := List.exists_cons_of_ne_nil hpart
  have hbegins : (c :: part).isPrefixOf (c :: (part ++ rest)) = true := by
    rw [List.isPrefixOf_iff_prefix]
    exact ⟨rest, rfl⟩
  rw [lengthThrough, List.cons_append, afterFirst, if_pos hbegins]
  simp only [List.length_cons, List.drop_succ_cons, List.drop_left, List.length_append]
  omega

/-! ### What the scanner begins with a character -/

theorem isPrefixOf_pair_iff {c d e : Char} {s : Text} :
  [d, e].isPrefixOf (c :: s) = true ↔ c = d ∧ s.head? = some e
  := by
  cases s with
  | nil => simp [List.isPrefixOf_cons_cons]
  | cons f s =>
      rw [List.isPrefixOf_iff_prefix, List.cons_prefix_cons, List.cons_prefix_cons,
        List.head?_cons, Option.some_inj, eq_comm, eq_comm (a := e)]
      simp

theorem isPrefixOf_single_iff {c d : Char} {s : Text} :
  [d].isPrefixOf (c :: s) = true ↔ c = d
  := by
  rw [List.isPrefixOf_iff_prefix, List.cons_prefix_cons, eq_comm]
  simp

theorem quotedOrCommentEnd_dashes (s : Text) :
  quotedOrCommentEnd ('-' :: '-' :: s) = some (lengthThrough "\n".toList s + 2)
  := by
  rw [quotedOrCommentEnd.eq_def, if_pos (.inl (isPrefixOf_pair_iff.mpr ⟨rfl, rfl⟩)),
    lengthThrough_cons rfl, lengthThrough_cons rfl]

theorem quotedOrCommentEnd_hash (s : Text) :
  quotedOrCommentEnd ('#' :: s) = some (lengthThrough "\n".toList s + 1)
  := by
  rw [quotedOrCommentEnd.eq_def, if_pos (.inr (isPrefixOf_single_iff.mpr rfl)),
    lengthThrough_cons rfl]

theorem quotedOrCommentEnd_slash (s : Text) :
  quotedOrCommentEnd ('/' :: '*' :: s) = some (lengthThrough "*/".toList s + 2)
  := by
  have hnone : ¬ ("--".toList.isPrefixOf ('/' :: '*' :: s) = true
      ∨ "#".toList.isPrefixOf ('/' :: '*' :: s) = true) := by
    rw [not_or, Bool.not_eq_true, Bool.not_eq_true]
    exact ⟨rfl, rfl⟩
  have hopens : "/*".toList.isPrefixOf ('/' :: '*' :: s) = true :=
    isPrefixOf_pair_iff.mpr ⟨rfl, rfl⟩
  rw [quotedOrCommentEnd.eq_def, if_neg hnone, if_pos hopens]
  rfl

/-- A character that begins no comment begins a dollar quote, a quoted text, or nothing. -/
theorem quotedOrCommentEnd_of_not {c : Char} {s : Text}
    (hdashes : ¬ (c = '-' ∧ s.head? = some '-')) (hhash : c ≠ '#')
    (hslash : ¬ (c = '/' ∧ s.head? = some '*')) :
  quotedOrCommentEnd (c :: s)
    = match dollarQuote? (c :: s) with
      | some delimiter =>
          some (lengthThrough delimiter ((c :: s).drop delimiter.length) + delimiter.length)
      | none =>
          if c = '\'' ∨ c = '"' ∨ c = '`' then some (quotedLength c s + 1) else none
  := by
  have hnone : ¬ ("--".toList.isPrefixOf (c :: s) = true
      ∨ "#".toList.isPrefixOf (c :: s) = true) := by
    rintro (h | h)
    · exact hdashes (isPrefixOf_pair_iff.mp h)
    · exact hhash (isPrefixOf_single_iff.mp h)
  have hcloses : ¬ "/*".toList.isPrefixOf (c :: s) = true := isPrefixOf_pair_iff.not.mpr hslash
  rw [quotedOrCommentEnd.eq_def]
  exact (if_neg hnone).trans (if_neg hcloses)

theorem isDigit_of_startsWord {c : Char} (h : startsWord c = true) :
  c.isDigit = false
  := by
  rw [← Bool.not_eq_true, Compare.isDigit_iff]
  rintro ⟨hlow, hhigh⟩
  rw [startsWord, Bool.or_eq_true, isAlpha_iff, beq_iff_eq] at h
  rcases h with h | rfl
  · omega
  · revert hhigh
    decide

/-- The tag of a dollar quote is the same for the scanner and for a database. -/
theorem dollarTag_of_dollarQuote? {s delimiter : Text}
    (h : dollarQuote? ('$' :: s) = some delimiter) :
  ∃ tag, dollarTag s = some tag ∧ delimiter = '$' :: tag ++ ['$']
    ∧ ∃ rest, s = tag ++ '$' :: rest
  := by
  have htag : ∀ (tag rest : Text), (∀ c ∈ tag, continuesWord c = true) →
      (tag.head?.any Char.isDigit) = false → dollarTag (tag ++ '$' :: rest) = some tag := by
    intro tag rest hword hdigit
    have htake : (tag ++ '$' :: rest).takeWhile continuesTag = tag := by
      rw [List.takeWhile_append_of_pos, List.takeWhile_cons_of_neg (by decide), List.append_nil]
      intro c hc
      rw [continuesTag, hword c hc, Bool.true_or]
    simp only [dollarTag, htake, List.drop_left, hdigit]
    rfl
  rw [dollarQuote?.eq_def] at h
  split at h
  · rename_i rest heq
    obtain rfl := Option.some.inj h
    obtain ⟨-, rfl⟩ := List.cons.inj heq
    exact ⟨[], htag [] rest (by simp) rfl, rfl, rest, rfl⟩
  · rename_i rest _ heq
    obtain ⟨-, rfl⟩ := List.cons.inj heq
    split at h
    · cases h
    · rename_i tag hname
      obtain ⟨hne, after, rfl⟩ := firstToken_eq hname
      rw [List.drop_left] at h
      split at h
      · rename_i hafter
        obtain rfl := Option.some.inj h
        cases after with
        | nil => cases hafter
        | cons d after =>
            obtain rfl := Option.some.inj hafter
            refine ⟨tag, htag tag after (continuesWord_of_firstToken hname) ?_, rfl, after, rfl⟩
            rw [firstToken.eq_def] at hname
            split at hname
            · cases hname
            · split at hname
              · rename_i hstarts
                rw [← Option.some.inj hname]
                exact isDigit_of_startsWord hstarts
              · cases hname
      · cases h
  · cases h

/-! ### Steps of the scanner and of a reading -/

/-- One step of the scanner: whether the character in front is plain, and how many of the next ones
belong to the same quoted text or comment. -/
def scannerStep (length : ℕ) (s : Text) : Bool × ℕ :=
  match length with
  | length + 1 => (false, length)
  | 0 =>
      match quotedOrCommentEnd s with
      | some length => (false, length - 1)
      | none => (true, 0)

theorem scannedPlain_cons (length : ℕ) (c : Char) (s : Text) :
  scannedPlain length (c :: s)
    = (scannerStep length (c :: s)).1 :: scannedPlain (scannerStep length (c :: s)).2 s
  := by
  cases length with
  | succ length => rfl
  | zero =>
      rw [scannedPlain, scannerStep]
      cases quotedOrCommentEnd (c :: s) with
      | none => rfl
      | some length => rfl

section Steps

variable {lexis : Lexis} {before s : Text} {c : Char}

/-- The scanner and a reading make the same step. -/
structure Meets (lexis : Lexis) (mode : Mode) (before : Text) (length : ℕ) (c : Char) (s : Text) :
    Prop where
  plain : (scannerStep length (c :: s)).1
    = decide (mode = .top ∧ (lexis.step mode before c s).1 = .top)
  scans : Scans lexis (lexis.step mode before c s).1 (lexis.step mode before c s).2.1 (c :: before)
    (scannerStep length (c :: s)).2 s

theorem Meets.of_eq {mode next : Mode} {length skip left : ℕ} {mark : Mark} {plain : Bool}
    (hstep : lexis.step mode before c s = (next, skip, mark))
    (hscan : scannerStep length (c :: s) = (plain, left))
    (hplain : plain = decide (mode = .top ∧ next = .top))
    (hscans : Scans lexis next skip (c :: before) left s) :
  Meets lexis mode before length c s
  := by
  constructor
  · rw [hstep, hscan, hplain]
  · rw [hstep, hscan]
    exact hscans

theorem meets_line (hsame : lexis.misscans .line before c s = false) :
  Meets lexis .line before (lengthThrough "\n".toList (c :: s)) c s
  := by
  by_cases hc : c = '\n'
  · subst hc
    have hlength : lengthThrough "\n".toList ('\n' :: s) = 1 :=
      lengthThrough_of_prefix (by decide) ⟨s, rfl⟩
    have hstep : lexis.step .line before '\n' s = (.top, 0, .blank) := by
      simp [Lexis.step, Lexis.endsLine]
    rw [hlength]
    exact .of_eq hstep rfl rfl (.top 0 _ s)
  · have hends : lexis.endsLine c s = false := by simpa [Lexis.misscans, hc] using hsame
    have hstep : lexis.step .line before c s = (.line, 0, .blank) := by
      rw [Lexis.step, hends]
      rfl
    have hbegins : "\n".toList.isPrefixOf (c :: s) = false :=
      isPrefixOf_cons_of_ne (Ne.symm hc) _ s
    rw [lengthThrough_cons hbegins]
    exact .of_eq hstep rfl rfl (.line _ s)

theorem meets_block (hsame : lexis.misscans (.block 0) before c s = false) :
  Meets lexis (.block 0) before (lengthThrough "*/".toList (c :: s)) c s
  := by
  by_cases hclose : c = '*' ∧ s.head? = some '/'
  · obtain ⟨rfl, hs⟩ := hclose
    cases s with
    | nil => cases hs
    | cons d s =>
        obtain rfl := Option.some.inj hs
        have hlength : lengthThrough "*/".toList ('*' :: '/' :: s) = 2 :=
          lengthThrough_of_prefix (by decide) ⟨s, rfl⟩
        have hstep : lexis.step (.block 0) before '*' ('/' :: s) = (.top, 1, .blank) := by
          simp [Lexis.step]
        rw [hlength]
        exact .of_eq hstep rfl rfl (.top 1 _ _)
  · have hnested : ¬ (lexis.nestedComments = true ∧ c = '/' ∧ s.head? = some '*') := by
      intro hopen
      simp [Lexis.misscans, hopen] at hsame
    have hstep : lexis.step (.block 0) before c s = (.block 0, 0, .blank) := by
      rw [Lexis.step, if_neg hclose, if_neg hnested]
    have hbegins : "*/".toList.isPrefixOf (c :: s) = false := by
      rw [← Bool.not_eq_true]
      exact isPrefixOf_pair_iff.not.mpr hclose
    rw [lengthThrough_cons hbegins]
    exact .of_eq hstep rfl rfl (.block _ s)

theorem meets_dollar (tag : Text) :
  Meets lexis (.dollar tag) before (lengthThrough ('$' :: tag ++ ['$']) (c :: s)) c s
  := by
  by_cases hclose : ('$' :: tag ++ ['$']).isPrefixOf (c :: s) = true
  · have hlength := lengthThrough_of_prefix (by simp) (List.isPrefixOf_iff_prefix.mp hclose)
    have hstep : lexis.step (.dollar tag) before c s = (.top, tag.length + 1, .token) := by
      rw [Lexis.step, if_pos hclose]
    have hsize : ('$' :: tag ++ ['$']).length = tag.length + 1 + 1 := by simp
    rw [hlength, hsize]
    exact .of_eq hstep rfl rfl (.top _ _ s)
  · have hstep : lexis.step (.dollar tag) before c s = (.dollar tag, 0, .token) := by
      rw [Lexis.step, if_neg hclose]
    rw [lengthThrough_cons (Bool.eq_false_iff.mpr hclose)]
    exact .of_eq hstep rfl rfl (.dollar tag 0 _ s)

theorem meets_escaped {close : Char} {escapes : Bool}
    (hclose : close = '\'' ∨ close = '"' ∨ close = '`')
    (hbackticks : close = '`' → lexis.backticks = true) (hescaped : isEscaped before = true)
    (hsame : lexis.misscans (.quoted close escapes) before c s = false) :
  Meets lexis (.quoted close escapes) before (quotedLength close s + 1) c s
  := by
  have hopen : ¬ (c = close ∧ (escapes && isEscaped before) = false) := by
    rintro ⟨hc, hfalse⟩
    rw [hescaped, Bool.and_true] at hfalse
    simp [Lexis.misscans, hc, hescaped, hfalse] at hsame
  have hstep : lexis.step (.quoted close escapes) before c s
      = (.quoted close escapes, 0, .token) := by
    rw [Lexis.step, if_neg hopen]
  have hnext : isEscaped (c :: before) = false := by
    by_cases hc : c = '\\'
    · rw [hc, isEscaped_backslash, hescaped]
      rfl
    · exact isEscaped_of_ne hc before
  exact .of_eq hstep rfl (by simp) (.quoted close escapes _ s hclose hbackticks hnext)

theorem meets_quoted {close : Char} {escapes : Bool}
    (hclose : close = '\'' ∨ close = '"' ∨ close = '`')
    (hbackticks : close = '`' → lexis.backticks = true) (hescaped : isEscaped before = false) :
  Meets lexis (.quoted close escapes) before (quotedLength close (c :: s)) c s
  := by
  have hbackslash : close ≠ '\\' := by
    rintro rfl
    revert hclose
    decide
  have hmode : ∀ mode : Mode, false = decide (Mode.quoted close escapes = .top ∧ mode = .top) := by
    simp
  by_cases hc : c = close
  · subst hc
    have hcloses : c = c ∧ (escapes && isEscaped before) = false := ⟨rfl, by simp [hescaped]⟩
    by_cases hdoubles : lexis.doubles c escapes s = true
    · have hstep : lexis.step (.quoted c escapes) before c s = (.quoted c escapes, 1, .token) := by
        rw [Lexis.step, if_pos hcloses, if_pos hdoubles]
      have hs : s.head? = some c := by
        simp only [Lexis.doubles, Bool.and_eq_true, beq_iff_eq] at hdoubles
        exact hdoubles.2
      cases s with
      | nil => cases hs
      | cons d s =>
          obtain rfl := Option.some.inj hs
          have hlength : quotedLength d (d :: d :: s) = quotedLength d s + 2 := by
            rw [quotedLength, if_neg hbackslash, if_neg (by simp), if_pos rfl]
          rw [hlength]
          exact .of_eq hstep rfl (hmode _) (.doubled d escapes _ s hclose hbackticks)
    · have hstep : lexis.step (.quoted c escapes) before c s = (.top, 0, .token) := by
        rw [Lexis.step, if_pos hcloses, if_neg hdoubles]
      cases s with
      | nil => exact .of_eq hstep rfl (hmode _) (.done _ _ _ _)
      | cons d s =>
          by_cases hd : d = c
          · subst hd
            have hlength : quotedLength d (d :: d :: s) = quotedLength d s + 2 := by
              rw [quotedLength, if_neg hbackslash, if_neg (by simp), if_pos rfl]
            rw [hlength]
            exact .of_eq hstep rfl (hmode _) (.reopened d _ s hclose hbackticks)
          · have hlength : quotedLength c (c :: d :: s) = 1 := by
              rw [quotedLength, if_neg hbackslash, if_neg (by simp), if_neg hd]
            rw [hlength]
            exact .of_eq hstep rfl (hmode _) (.top 0 _ _)
  · have hstep : lexis.step (.quoted close escapes) before c s
        = (.quoted close escapes, 0, .token) := by
      rw [Lexis.step, if_neg (fun h => hc h.1)]
    cases s with
    | nil => exact .of_eq hstep rfl (hmode _) (.done _ _ _ _)
    | cons d s =>
        by_cases hcBackslash : c = '\\'
        · subst hcBackslash
          have hlength : quotedLength close ('\\' :: d :: s) = quotedLength close s + 2 := by
            rw [quotedLength, if_pos rfl]
          have hnext : isEscaped ('\\' :: before) = true := by
            rw [isEscaped_backslash, hescaped]
            rfl
          rw [hlength]
          exact .of_eq hstep rfl (hmode _) (.escaped close escapes _ d s hclose hbackticks hnext)
        · have hlength : quotedLength close (c :: d :: s) = quotedLength close (d :: s) + 1 := by
            rw [quotedLength, if_neg hcBackslash, if_pos hc]
          rw [hlength]
          exact .of_eq hstep rfl (hmode _)
            (.quoted close escapes _ _ hclose hbackticks (isEscaped_of_ne hcBackslash before))

theorem ne_of_quote {c d : Char} (hc : c = '\'' ∨ c = '"' ∨ c = '`')
    (hd : d ∈ ['-', '#', '/', '$', '\\']) :
  c ≠ d
  := by
  rintro rfl
  rcases hc with rfl | rfl | rfl <;> revert hd <;> decide

theorem scannerStep_quote (hclose : c = '\'' ∨ c = '"' ∨ c = '`') :
  scannerStep 0 (c :: s) = (false, quotedLength c s)
  := by
  have hdollar : dollarQuote? (c :: s) = none := by
    cases hquote : dollarQuote? (c :: s) with
    | none => rfl
    | some delimiter =>
        obtain ⟨tag, rfl, rest, hrest⟩ := dollarQuote?_eq hquote
        exact (ne_of_quote hclose (by decide) (List.cons.inj hrest).1.symm).elim
  rw [scannerStep, quotedOrCommentEnd_of_not (fun h => ne_of_quote hclose (by decide) h.1)
    (ne_of_quote hclose (by decide)) (fun h => ne_of_quote hclose (by decide) h.1), hdollar]
  dsimp only
  rw [if_pos hclose]
  rfl

/-- A quote that the scanner passes over is opened by a database. -/
theorem meets_opening {length : ℕ} (hscan : scannerStep length (c :: s) = (false, quotedLength c s))
    (halternative : lexis.alternativeQuotes = false) (hclose : c = '\'' ∨ c = '"' ∨ c = '`')
    (hbackticks : c = '`' → lexis.backticks = true) :
  Meets lexis .top before length c s
  := by
  have hstep : ∃ escapes, lexis.step .top before c s = (.quoted c escapes, 0, .token) := by
    rcases hclose with rfl | rfl | rfl
    · refine ⟨lexis.backslashEscapes || (lexis.escapeLiterals && endsWithLetter 'e' before), ?_⟩
      simp [Lexis.step, Lexis.openQuote, halternative]
    · exact ⟨lexis.backslashEscapes, by simp [Lexis.step]⟩
    · exact ⟨false, by simp [Lexis.step, hbackticks rfl]⟩
  obtain ⟨escapes, hstep⟩ := hstep
  exact .of_eq hstep hscan (by simp) (.quoted c escapes _ s hclose hbackticks
    (isEscaped_of_ne (ne_of_quote hclose (by decide)) before))

/-- Outside of quoted texts and comments the scanner begins what a database begins. -/
theorem meets_top (halternative : lexis.alternativeQuotes = false)
    (hsame : lexis.misscans .top before c s = false) :
  Meets lexis .top before 0 c s
  := by
  simp only [Lexis.misscans, Bool.or_eq_false_iff, and_assoc] at hsame
  obtain ⟨hdashes, hhash, hbacktick, hdollar⟩ := hsame
  by_cases hquote : c = '\'' ∨ c = '"' ∨ c = '`'
  · apply meets_opening (scannerStep_quote hquote) halternative hquote
    intro hc
    simpa [hc] using hbacktick
  by_cases hline : c = '-' ∧ s.head? = some '-'
  · obtain ⟨rfl, hs⟩ := hline
    cases s with
    | nil => cases hs
    | cons d s =>
        obtain rfl := Option.some.inj hs
        have hbegin : lexis.dashesBegin s = true := by simpa using hdashes
        have hstep : lexis.step .top before '-' ('-' :: s) = (.line, 1, .blank) := by
          simp [Lexis.step, hbegin]
        have hscan : scannerStep 0 ('-' :: '-' :: s)
            = (false, lengthThrough "\n".toList s + 1) := by
          rw [scannerStep, quotedOrCommentEnd_dashes]
          rfl
        exact .of_eq hstep hscan (by simp) (.dash _ s)
  by_cases hhashes : c = '#'
  · subst hhashes
    have hcomments : lexis.hashComments = true := by simpa using hhash
    have hstep : lexis.step .top before '#' s = (.line, 0, .blank) := by
      simp [Lexis.step, hcomments]
    have hscan : scannerStep 0 ('#' :: s) = (false, lengthThrough "\n".toList s) := by
      rw [scannerStep, quotedOrCommentEnd_hash]
      rfl
    exact .of_eq hstep hscan (by simp) (.line _ s)
  by_cases hblock : c = '/' ∧ s.head? = some '*'
  · obtain ⟨rfl, hs⟩ := hblock
    cases s with
    | nil => cases hs
    | cons d s =>
        obtain rfl := Option.some.inj hs
        have hstep : lexis.step .top before '/' ('*' :: s) = (.block 0, 1, .blank) := by
          simp [Lexis.step]
        have hscan : scannerStep 0 ('/' :: '*' :: s)
            = (false, lengthThrough "*/".toList s + 1) := by
          rw [scannerStep, quotedOrCommentEnd_slash]
          rfl
        exact .of_eq hstep hscan (by simp) (.star _ s)
  have hend := quotedOrCommentEnd_of_not hline hhashes hblock
  have hnoLine : ¬ (c = '-' ∧ s.head? = some '-' ∧ lexis.dashesBegin (s.drop 1) = true) :=
    fun h => hline ⟨h.1, h.2.1⟩
  have hnoHash : ¬ (c = '#' ∧ lexis.hashComments = true) := fun h => hhashes h.1
  rw [bne_eq_false_iff_eq] at hdollar
  have hnoSingle : c ≠ '\'' := fun h => hquote (.inl h)
  have hnoDouble : c ≠ '"' := fun h => hquote (.inr (.inl h))
  have hnoBacktick : ¬ (c = '`' ∧ lexis.backticks = true) := fun h => hquote (.inr (.inr h.1))
  cases hdelimiter : dollarQuote? (c :: s) with
  | some delimiter =>
      obtain ⟨front, rfl, rest, hrest⟩ := dollarQuote?_eq hdelimiter
      obtain rfl : '$' = c := (List.cons.inj hrest).1
      obtain ⟨tag, htag, htags, after, rfl⟩ := dollarTag_of_dollarQuote? hdelimiter
      rw [hdelimiter, htags] at hend
      rw [hdelimiter, Option.isSome_some, Lexis.beginsDollar, htag] at hdollar
      simp only [beq_self_eq_true, Bool.true_and, Option.isSome_some, Bool.and_true,
        Bool.true_eq, Bool.and_eq_true] at hdollar
      have hstep : lexis.step .top before '$' (tag ++ '$' :: after)
          = (.dollar tag, tag.length + 1, .token) := by
        simp [Lexis.step, htag, hdollar.1, hdollar.2]
      have hscan : scannerStep 0 ('$' :: (tag ++ '$' :: after))
          = (false, lengthThrough ('$' :: tag ++ ['$']) after + (tag.length + 1)) := by
        have hdrop : ('$' :: (tag ++ '$' :: after)).drop ('$' :: tag ++ ['$']).length = after := by
          simp
        have hsize : ('$' :: tag ++ ['$']).length = tag.length + 1 + 1 := by simp
        rw [scannerStep, hend]
        dsimp only
        rw [hdrop, hsize]
        rfl
      have hscans : Scans lexis _ _ ('$' :: before) _ (tag ++ '$' :: after) :=
        .dollar tag (tag.length + 1) _ _
      have hdrop : (tag ++ '$' :: after).drop (tag.length + 1) = after := by simp
      rw [hdrop] at hscans
      exact .of_eq hstep hscan (by simp) hscans
  | none =>
      rw [hdelimiter, Option.isSome_none] at hdollar
      rw [hdelimiter] at hend
      dsimp only at hend
      rw [if_neg hquote] at hend
      have hnoDollar : ¬ (c = '$' ∧ lexis.dollarQuotes = true ∧ (!(insideName before)) = true
          ∧ (dollarTag s).isSome = true) := by
        rintro ⟨hc, hquotes, hinside, htag⟩
        rw [Lexis.beginsDollar, hquotes, hinside, htag, hc] at hdollar
        cases hdollar
      have hscan : scannerStep 0 (c :: s) = (true, 0) := by rw [scannerStep, hend]
      by_cases hsemicolon : c = ';'
      · have hstep : lexis.step .top before c s = (.top, 0, .separator) := by
          rw [hsemicolon]
          simp [Lexis.step]
        exact .of_eq hstep hscan (by simp) (.top 0 _ s)
      · have hstep : lexis.step .top before c s
            = (.top, 0, if isSpace c then .blank else .token) := by
          rw [Lexis.step, if_neg hnoLine, if_neg hnoHash, if_neg hblock, if_neg hsemicolon,
            if_neg hnoSingle, if_neg hnoDouble, if_neg hnoBacktick, if_neg hnoDollar]
        exact .of_eq hstep hscan (by simp) (.top 0 _ s)

end Steps

/-- Up to the first place where the rules of a database lead elsewhere, the scanner and the database
find the same characters plain. -/
theorem scannedPlain_eq_plainFrom {lexis : Lexis} (halternative : lexis.alternativeQuotes = false)
    {mode : Mode} {skip length : ℕ} {before s : Text} (h : Scans lexis mode skip before length s)
    {p : ℕ} (hsame : ∀ i ≤ p, (lexis.misscansFrom mode skip before s)[i]? ≠ some true) :
  (scannedPlain length s)[p]? = (lexis.plainFrom mode skip before s)[p]?
  := by
  induction s generalizing mode skip length before p with
  | nil => cases length <;> rfl
  | cons c s ih =>
      cases skip with
      | zero =>
          have hhere : lexis.misscans mode before c s = false := by
            have hne := hsame 0 (Nat.zero_le p)
            rw [Lexis.misscansFrom, List.getElem?_cons_zero] at hne
            simpa using hne
          have hmeets : Meets lexis mode before length c s := by
            cases h with
            | top => exact meets_top halternative hhere
            | reopened _ _ _ hclose hbackticks =>
                exact meets_opening rfl halternative hclose hbackticks
            | line => exact meets_line hhere
            | block => exact meets_block hhere
            | dollar tag => exact meets_dollar tag
            | quoted _ _ _ _ hclose hbackticks hescaped =>
                exact meets_quoted hclose hbackticks hescaped
            | escaped _ _ _ _ _ hclose hbackticks hescaped =>
                exact meets_escaped hclose hbackticks hescaped hhere
          rw [scannedPlain_cons, Lexis.plainFrom, hmeets.plain]
          cases p with
          | zero => rfl
          | succ p =>
              rw [List.getElem?_cons_succ, List.getElem?_cons_succ]
              apply ih hmeets.scans
              intro i hi
              exact hsame (i + 1) (Nat.succ_le_succ hi)
      | succ skip =>
          have hnext : ∃ left, length = left + 1 ∧ Scans lexis mode skip (c :: before) left s := by
            cases h with
            | top => exact ⟨skip, rfl, .top skip _ s⟩
            | dash => exact ⟨_, rfl, .line _ s⟩
            | star => exact ⟨_, rfl, .block _ s⟩
            | dollar tag => exact ⟨_, rfl, .dollar tag skip _ s⟩
            | doubled _ escapes _ _ hclose hbackticks =>
                exact ⟨_, rfl, .quoted _ escapes _ s hclose hbackticks
                  (isEscaped_of_ne (ne_of_quote hclose (by decide)) _)⟩
          obtain ⟨left, rfl, hscans⟩ := hnext
          rw [scannedPlain, Lexis.plainFrom]
          cases p with
          | zero => rfl
          | succ p =>
              rw [List.getElem?_cons_succ, List.getElem?_cons_succ]
              apply ih hscans
              intro i hi
              exact hsame (i + 1) (Nat.succ_le_succ hi)

end Sql

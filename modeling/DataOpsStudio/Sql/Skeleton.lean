import DataOpsStudio.Sql.Statements

/-!
# The condition of a statement

An update or a deletion without a condition changes every row of its table, and is flagged.  The
guard looks for the word `where` in the skeleton of the statement, which is the statement with its
quoted texts and comments blanked.  A database reads a skeleton of its own, by its own lexical
rules, and the condition of the statement is a keyword in it that is not inside parentheses.
-/

namespace Sql

open Text

/-! ### The skeleton that a database reads -/

namespace Lexis

/-- What a database sees of a character: the character itself in the statement, and where a comment
of one line ends, and a blank inside quoted texts and comments. -/
def shown (mode next : Mode) (c : Char) : Char :=
  match mode, next with
  | .top, .top => c
  | .line, .top => c
  | _, _ => ' '

variable (lexis : Lexis)

/-- The skeleton of the rest of a text, after the characters `before` in reverse.  Characters that
still belong to a step are blank. -/
def skeletonFrom (mode : Mode) (skip : ℕ) (before : Text) : Text → Text
  | [] => []
  | c :: s =>
      match skip with
      | skip + 1 => ' ' :: skeletonFrom mode skip (c :: before) s
      | 0 =>
          shown mode (lexis.step mode before c s).1 c
            :: skeletonFrom (lexis.step mode before c s).1 (lexis.step mode before c s).2.1
              (c :: before) s

end Lexis

/-- The skeleton of a text, as a database reads it. -/
def DbType.skeleton (db : DbType) (sql : Text) : Text := db.lexis.skeletonFrom .top 0 [] sql

/-! ### The conditions in a skeleton -/

/-- The characters of names, besides those of words. -/
def DbType.nameSigns : DbType → List Char
  | .mysql => ['$']
  | .oracle => ['$', '#']
  | .dm => ['$', '#']
  | .db2 => ['$', '#', '@']
  | .postgresql => ['$']
  | .oceanbaseOracle => ['$', '#']

/-- A word `where`, with the number of parentheses that are open there, and whether it is a keyword
or only a part of a name. -/
structure WhereWord where
  depth : ℤ
  keyword : Bool
deriving DecidableEq

/-- How a character changes the number of open parentheses. -/
def opens (c : Char) : ℤ := if c = '(' then 1 else if c = ')' then -1 else 0

section Words

variable (isWord : Char → Bool) (db : DbType)

/-- Whether a word after the text `before`, in reverse, belongs to a longer name, to a parameter or
a variable, or names a column after its table.  The dot of a number does not count. -/
def continuesName (before : Text) : Bool :=
  match before with
  | [] => false
  | c :: before =>
      db.nameSigns.contains c || c == ':' || c == '@'
        || (c == '.' && !(!(before.takeWhile isWord).isEmpty
          && (before.takeWhile isWord).all Char.isDigit))

/-- Whether a text starts with the word `where`. -/
def whereAt (s : Text) : Bool := startsWithWord "where".toList s && endsWord isWord (s.drop 5)

/-- The words `where` of the rest of a skeleton, after the characters `before` in reverse. -/
def wheresFrom (depth : ℤ) (inside : Bool) (before : Text) : Text → List WhereWord
  | [] => []
  | c :: s =>
      (if !inside && whereAt isWord (c :: s) then
        [⟨depth, !(continuesName isWord db before
          || ((c :: s).drop 5).head?.any (fun d => db.nameSigns.contains d))⟩]
      else [])
        ++ wheresFrom (depth + opens c) (isWord c) (c :: before) s

/-- The words `where` of a text that a database does not read as quoted or commented. -/
def wheres (sql : Text) : List WhereWord := wheresFrom isWord db 0 false [] (db.skeleton sql)

/-- A statement has a condition of its own. -/
def HasOwnWhere (sql : Text) : Prop :=
  ∃ word ∈ wheres isWord db sql, word.keyword = true ∧ word.depth = 0

instance (sql : Text) : Decidable (HasOwnWhere isWord db sql) :=
  inferInstanceAs (Decidable (∃ word ∈ wheres isWord db sql, word.keyword = true ∧ word.depth = 0))

/-- The guard sees a condition, but the database reads it as quoted or commented. -/
def OnlyQuotedWhere (sql : Text) : Prop :=
  hasWhere isWord (blankLiteralsAndComments sql) = true ∧ wheres isWord db sql = []

/-- The guard sees a condition, and every condition that the database reads is inside parentheses or
a part of a name. -/
def OnlyInnerWhere (sql : Text) : Prop :=
  hasWhere isWord (blankLiteralsAndComments sql) = true ∧ wheres isWord db sql ≠ []
    ∧ ∀ word ∈ wheres isWord db sql, word.keyword = true → word.depth ≠ 0

/-- A skeleton has the word `where` if one is found in it. -/
theorem wheresFrom_eq_nil_iff {depth : ℤ} {inside : Bool} {before s : Text} :
  wheresFrom isWord db depth inside before s = []
    ↔ anyAtWordStart isWord (whereAt isWord) inside s = false
  := by
  induction s generalizing depth inside before with
  | nil => simp [wheresFrom, anyAtWordStart]
  | cons c s ih =>
      rw [wheresFrom, anyAtWordStart, List.append_eq_nil_iff, Bool.or_eq_false_iff, ih]
      apply and_congr_left
      intro _
      cases hfound : !inside && whereAt isWord (c :: s) with
      | false => simp
      | true => simp

theorem wheres_ne_nil_iff {sql : Text} :
  wheres isWord db sql ≠ [] ↔ hasWhere isWord (db.skeleton sql) = true
  := by
  rw [Ne, wheres, wheresFrom_eq_nil_iff, Bool.not_eq_false]
  rfl

end Words

/-! ### Where the two skeletons agree -/

/-- How many characters of a text are before its next line. -/
def lineLength (s : Text) : ℕ := (s.takeWhile (fun d => d != '\n')).length

/-- How many characters of a text belong to the comment that is open in front of it. -/
def blockLength (s : Text) : ℕ :=
  match afterFirst "*/".toList s with
  | none => s.length
  | some rest => s.length - rest.length

/-- The guard is where the database is, at the rest of a text: in the statement, in the same quoted
text, or as many characters inside a comment as are left of it. -/
inductive Follows : Mode → ℕ → Option Char → ℕ → Text → Prop
  | top (skip : ℕ) (s : Text) : Follows .top skip none skip s
  | quoted (close : Char) (escapes : Bool) (s : Text) (h : close = '`' → escapes = false) :
      Follows (.quoted close escapes) 0 (some close) 0 s
  | line (s : Text) : Follows .line 0 none (lineLength s) s
  | dash (s : Text) : Follows .line 1 none (lineLength s + 1) ('-' :: s)
  | block (s : Text) : Follows (.block 0) 0 none (blockLength s) s
  | star (s : Text) : Follows (.block 0) 1 none (blockLength s + 1) ('*' :: s)

/-- The two characters that close a comment. -/
theorem closes_iff {c : Char} {after : Text} :
  "*/".toList.isPrefixOf (c :: after) = true ↔ c = '*' ∧ after.head? = some '/'
  := by
  change ['*', '/'].isPrefixOf (c :: after) = true ↔ _
  cases after with
  | nil => simp
  | cons d after =>
      rw [List.isPrefixOf_iff_prefix, List.cons_prefix_cons, List.cons_prefix_cons,
        List.head?_cons, Option.some_inj, eq_comm, eq_comm (a := '/')]
      simp

theorem blockLength_cons {c : Char} {s : Text} (h : ¬ (c = '*' ∧ s.head? = some '/')) :
  blockLength (c :: s) = blockLength s + 1
  := by
  rw [blockLength, blockLength, afterFirst, if_neg (closes_iff.not.mpr h)]
  cases hrest : afterFirst "*/".toList s with
  | none => simp
  | some rest =>
      have hlength := length_afterFirst hrest
      simp only [List.length_cons]
      omega

theorem lineLength_cons {c : Char} {s : Text} (h : c ≠ '\n') :
  lineLength (c :: s) = lineLength s + 1
  := by
  simp [lineLength, h]

theorem blockLength_close (s : Text) :
  blockLength ('*' :: '/' :: s) = 2
  := by
  have hrest : afterFirst "*/".toList ('*' :: '/' :: s) = some s := by
    rw [afterFirst, if_pos (closes_iff.mpr ⟨rfl, rfl⟩)]
    rfl
  rw [blockLength, hrest]
  simp only [List.length_cons]
  omega

/-- What a database is inside of, where the scanner of statements goes along. -/
def ScanMode.Reads : ScanMode → Mode → Prop
  | .plain, mode => mode = .top
  | .single, mode => ∃ escapes, mode = .quoted '\'' escapes
  | .double, mode => ∃ escapes, mode = .quoted '"' escapes
  | .backtick, mode => mode = .quoted '`' false
  | .lineComment, mode => mode = .line
  | .blockComment, mode => mode = .block 0

section Agreement

variable {lexis : Lexis} {before after : Text} {c : Char}

theorem step_line (hsame : lexis.differs .line before c after = false) :
  (lexis.step .line before c after).1 = (if c = '\n' then .top else .line)
    ∧ (lexis.step .line before c after).2.1 = 0
  := by
  have hends : lexis.endsLine c after = decide (c = '\n') := by
    by_cases hc : c = '\n'
    · simp [Lexis.endsLine, hc]
    · simpa [Lexis.differs, hc] using hsame
  simp [Lexis.step, hends]

theorem step_block (hsame : lexis.differs (.block 0) before c after = false) :
  lexis.step (.block 0) before c after
    = if c = '*' ∧ after.head? = some '/' then (.top, 1, .blank) else (.block 0, 0, .blank)
  := by
  have hopen : ¬ (lexis.nestedComments = true ∧ c = '/' ∧ after.head? = some '*') := by
    intro hopen
    simp [Lexis.differs, hopen] at hsame
  rw [Lexis.step, if_neg hopen]

theorem step_quoted {close : Char} {escapes : Bool} (hclose : close = '`' → escapes = false)
    (hsame : lexis.differs (.quoted close escapes) before c after = false) :
  lexis.step (.quoted close escapes) before c after
    = (if closesQuote close c before then .top else .quoted close escapes, 0, .token)
  := by
  have hcloses : (c = close ∧ (escapes && isEscaped before) = false)
      ↔ closesQuote close c before = true := by
    by_cases hc : c = close
    · subst hc
      by_cases hback : c = '`'
      · simp [closesQuote, hback, hclose hback]
      · cases escapes with
        | true => simp [closesQuote, hback]
        | false =>
            simp only [Lexis.differs, beq_self_eq_true, Bool.true_and, Bool.or_eq_false_iff,
              bne_iff_ne.mpr hback, Bool.not_false] at hsame
            simp [closesQuote, hsame.1]
    · simp [closesQuote, hc]
  rw [Lexis.step]
  by_cases hends : closesQuote close c before = true
  · rw [if_pos (hcloses.mpr hends), if_pos hends, doubles_of_closes hsame (hcloses.mpr hends)]
    rfl
  · rw [if_neg (hcloses.not.mpr hends), if_neg hends]

theorem reads_of_scanMode {mode : Mode} {scan : ScanMode} (h : mode.scanMode = some scan) :
  scan.Reads mode
  := by
  cases mode with
  | top =>
      obtain rfl := Option.some.inj h
      rfl
  | line =>
      obtain rfl := Option.some.inj h
      rfl
  | block depth =>
      cases depth with
      | zero =>
          obtain rfl := Option.some.inj h
          rfl
      | succ depth => cases h
  | alternative close => cases h
  | dollar tag => cases h
  | quoted close escapes =>
      rw [scanMode_quoted] at h
      split at h
      · rename_i hclose
        obtain rfl := Option.some.inj h
        exact ⟨escapes, by rw [hclose]⟩
      · split at h
        · rename_i hclose
          obtain rfl := Option.some.inj h
          exact ⟨escapes, by rw [hclose]⟩
        · split at h
          · rename_i hclose
            obtain rfl := Option.some.inj h
            change Mode.quoted close escapes = .quoted '`' false
            rw [hclose.1, hclose.2]
          · cases h

/-- A step of a reading outside of quotes and comments, and of the blanking of a text: a comment of
either kind, a quote, or another character. -/
inductive TopStep (c : Char) (after : Text) : Mode → ℕ → Prop
  | dashes (hc : c = '-') (hafter : after.head? = some '-') : TopStep c after .line 1
  | slash (hc : c = '/') (hafter : after.head? = some '*') : TopStep c after (.block 0) 1
  | quote (escapes : Bool) (hc : c = '\'' ∨ c = '"' ∨ c = '`') (h : c = '`' → escapes = false) :
      TopStep c after (.quoted c escapes) 0
  | other (hdashes : ¬ (c = '-' ∧ after.head? = some '-'))
      (hslash : ¬ (c = '/' ∧ after.head? = some '*'))
      (hc : ¬ (c = '\'' ∨ c = '"' ∨ c = '`')) : TopStep c after .top 0

theorem topStep (hsame : lexis.differs .top before c after = false) :
  TopStep c after (lexis.step .top before c after).1 (lexis.step .top before c after).2.1
  := by
  have hreads : ∀ (scan : ScanMode) (skip : ℕ) (ends : Bool),
      scanStep .plain before c after = (scan, skip, ends) →
        scan.Reads (lexis.step .top before c after).1
          ∧ (lexis.step .top before c after).2.1 = skip := by
    intro scan skip ends hscan
    have hmirrors := mirrors_top (rfl : isEscaped before = isEscaped before) hsame
    rw [hscan] at hmirrors
    exact ⟨reads_of_scanMode hmirrors.mode, hmirrors.skip⟩
  have hescaped : c = '\'' ∨ c = '"' → isEscaped before = false := by
    intro hc
    simp only [Lexis.differs, Bool.or_eq_false_iff, and_assoc] at hsame
    rcases hc with rfl | rfl
    · simpa using hsame.2.2.2.1
    · simpa using hsame.2.2.2.1
  by_cases hdashes : c = '-' ∧ after.head? = some '-'
  · obtain ⟨hmode, hskip⟩ := hreads .lineComment 1 false (by rw [scanStep, if_pos hdashes])
    rw [hskip, show _ = Mode.line from hmode]
    exact .dashes hdashes.1 hdashes.2
  by_cases hslash : c = '/' ∧ after.head? = some '*'
  · obtain ⟨hmode, hskip⟩ := hreads .blockComment 1 false
      (by rw [scanStep, if_neg hdashes, if_pos hslash])
    rw [hskip, show _ = Mode.block 0 from hmode]
    exact .slash hslash.1 hslash.2
  by_cases hsingle : c = '\''
  · obtain ⟨⟨escapes, hmode⟩, hskip⟩ := hreads .single 0 false
      (by simp [scanStep, hsingle, hescaped (.inl hsingle)])
    rw [hskip, hmode, ← hsingle]
    exact .quote escapes (.inl hsingle) (by simp [hsingle])
  by_cases hdouble : c = '"'
  · obtain ⟨⟨escapes, hmode⟩, hskip⟩ := hreads .double 0 false
      (by simp [scanStep, hdouble, hescaped (.inr hdouble)])
    rw [hskip, hmode, ← hdouble]
    exact .quote escapes (.inr (.inl hdouble)) (by simp [hdouble])
  by_cases hbacktick : c = '`'
  · obtain ⟨hmode, hskip⟩ := hreads .backtick 0 false (by simp [scanStep, hbacktick])
    rw [hskip, show _ = Mode.quoted '`' false from hmode, ← hbacktick]
    exact .quote false (.inr (.inr hbacktick)) (fun _ => rfl)
  · obtain ⟨hmode, hskip⟩ := hreads .plain 0 (c == ';') (by
      by_cases hc : c = ';'
      · simp [scanStep, hc]
      · simp [scanStep, hdashes, hslash, hsingle, hdouble, hbacktick, hc])
    rw [hskip, show _ = Mode.top from hmode]
    exact .other hdashes hslash (by simp [hsingle, hdouble, hbacktick])

/-- Outside of quotes and comments the guard stays where the database is. -/
theorem blankFrom_top {mode : Mode} {skip : ℕ} {blanked : Text} (hstep : TopStep c after mode skip)
    (hrest : ∀ quote skip', Follows mode skip quote skip' after →
      blankFrom quote skip' (c :: before) after = blanked) :
  blankFrom none 0 before (c :: after) = Lexis.shown .top mode c :: blanked
  := by
  rw [blankFrom]
  cases hstep with
  | dashes hc hafter =>
      rw [if_pos ⟨hc, hafter⟩]
      cases after with
      | nil => cases hafter
      | cons d after =>
          obtain rfl := Option.some.inj hafter
          congr 1
          apply hrest
          change Follows _ _ _ (lineLength ('-' :: after)) _
          rw [lineLength_cons (by decide)]
          apply Follows.dash
  | slash hc hafter =>
      rw [if_neg (by simp [hc]), if_pos ⟨hc, hafter⟩]
      cases after with
      | nil => cases hafter
      | cons d after =>
          obtain rfl := Option.some.inj hafter
          refine congrArg (List.cons ' ') (hrest _ _ ?_)
          have hstar : ∀ length, length = blockLength after + 1 →
              Follows (.block 0) 1 none length ('*' :: after) := by
            rintro _ rfl
            apply Follows.star
          apply hstar
          rw [blockLength, List.drop_one, List.tail_cons]
          cases hclose : afterFirst "*/".toList after with
          | none => rfl
          | some rest =>
              have hle := length_afterFirst hclose
              simp only [List.length_cons]
              omega
  | quote escapes hc h =>
      have hdash : c ≠ '-' := by rcases hc with rfl | rfl | rfl <;> decide
      have hslash : c ≠ '/' := by rcases hc with rfl | rfl | rfl <;> decide
      rw [if_neg (fun h => hdash h.1), if_neg (fun h => hslash h.1), if_pos hc]
      congr 1
      apply hrest
      exact .quoted c escapes after h
  | other hdashes hslash hc =>
      rw [if_neg hdashes, if_neg hslash, if_neg hc]
      congr 1
      apply hrest
      exact .top 0 after

/-- Where the rules of a database lead where the scanner of the guard goes, the guard blanks what
the database does not see. -/
theorem skeletonFrom_eq_blankFrom {mode : Mode} {skip skip' : ℕ} {mark : Mark} {quote : Option Char}
    {before s : Text} (hfollows : Follows mode skip quote skip' s)
    (hsame : ∀ place ∈ lexis.read mode skip mark before s, place.differs = false) :
  blankFrom quote skip' before s = lexis.skeletonFrom mode skip before s
  := by
  induction s generalizing mode skip skip' mark quote before with
  | nil => rfl
  | cons c s ih =>
      cases skip with
      | succ skip =>
          have hrest : ∀ place ∈ lexis.read mode skip mark (c :: before) s, place.differs = false :=
            fun place hmem => hsame place (List.mem_cons_of_mem _ hmem)
          rw [Lexis.skeletonFrom]
          cases hfollows with
          | top => rw [blankFrom, ih (.top skip s) hrest]
          | dash => rw [blankFrom, ih (.line s) hrest]
          | star => rw [blankFrom, ih (.block s) hrest]
      | zero =>
          have hhere : lexis.differs mode before c s = false := hsame _ List.mem_cons_self
          have hrest := fun place hmem => hsame place (List.mem_cons_of_mem _ hmem)
          rw [Lexis.skeletonFrom]
          cases hfollows with
          | top => exact blankFrom_top (topStep hhere) (fun _ _ h => ih h hrest)
          | quoted close escapes _ hclose =>
              rw [blankFrom]
              rw [step_quoted hclose hhere] at hrest ⊢
              by_cases hends : closesQuote close c before = true
              · rw [if_pos hends] at hrest ⊢
                rw [if_pos hends, ih (.top 0 s) hrest]
                rfl
              · rw [if_neg hends] at hrest ⊢
                rw [if_neg hends, ih (.quoted close escapes s hclose) hrest]
                rfl
          | line =>
              obtain ⟨hmode, hskip⟩ := step_line hhere
              rw [hmode, hskip] at hrest ⊢
              by_cases hc : c = '\n'
              · rw [if_pos hc] at hrest ⊢
                subst hc
                rw [show lineLength ('\n' :: s) = 0 from rfl, blankFrom]
                simp only [Char.reduceEq, false_and, false_or, if_false]
                rw [ih (.top 0 s) hrest]
                rfl
              · rw [if_neg hc] at hrest ⊢
                rw [lineLength_cons hc, blankFrom, ih (.line s) hrest]
                rfl
          | block =>
              rw [step_block hhere] at hrest ⊢
              by_cases hends : c = '*' ∧ s.head? = some '/'
              · rw [if_pos hends] at hrest ⊢
                cases s with
                | nil => cases hends.2
                | cons d s =>
                    obtain ⟨rfl, hd⟩ := hends
                    obtain rfl := Option.some.inj hd
                    rw [blockLength_close, blankFrom, ih (.top 1 _) hrest]
                    rfl
              · rw [if_neg hends] at hrest ⊢
                rw [blockLength_cons hends, blankFrom, ih (.block s) hrest]
                rfl

end Agreement

/-- Where no character of a text is read in another way, both skeletons of it are one. -/
theorem DbType.blank_eq_skeleton {db : DbType} {sql : Text}
    (hsame : ∀ place ∈ db.lexis.places sql, place.differs = false) :
  blankLiteralsAndComments sql = db.skeleton sql
  := skeletonFrom_eq_blankFrom (.top 0 sql) hsame

/-! ### Updates and deletions without a condition -/

/-- The verbs of the statements that change the rows of a condition. -/
def conditionVerbs : List String := ["update", "delete"]

theorem not_reads_of_conditionVerbs {verb : Text} (h : isOneOf conditionVerbs verb = true) :
  isOneOf ["select", "with"] verb = false
  := by
  rw [isOneOf, List.contains_iff_mem] at h
  simp only [conditionVerbs, List.map_cons, List.map_nil, List.mem_cons, List.not_mem_nil,
    or_false] at h
  rcases h with rfl | rfl <;> decide

theorem missingWhere_of_classify {isWord : Char → Bool} {sql : Text} {classified : ClassifiedSql}
    (h : classifyExecutableSql isWord sql = .ok classified)
    (hverb : isOneOf conditionVerbs classified.verb = true) :
  classified.missingWhere = !hasWhere isWord (blankLiteralsAndComments classified.sql)
  := by
  obtain ⟨rest, -, hok⟩ := Outcome.bind_eq_ok.mp h
  dsimp only at hok
  split at hok
  · cases hok
  · split at hok
    · rename_i hreads
      obtain ⟨stripped, -, rfl⟩ := Outcome.map_eq_ok.mp hok
      cases hreads.symm.trans (not_reads_of_conditionVerbs hverb)
    · split at hok
      · cases hok
      · split at hok
        · rename_i statement hone
          obtain rfl := Except.ok.inj hok
          dsimp only at hverb ⊢
          rw [show isOneOf ["update", "delete"] _ = true from hverb]
          rfl
        · cases hok

/-- A deletion with a condition. -/
def deletionSql : Text := "delete from t where id = 1".toList

/-- A comment of MySQL that the guard takes for a part of the statement. -/
example :
  OnlyQuotedWhere continuesWord .mysql "delete from t # where".toList
  := by
  rw [OnlyQuotedWhere]
  decide

/-- An update with a condition in a query inside it. -/
def subquerySql : Text := "update t set a = (select b from u where u.id = 1)".toList

end Sql

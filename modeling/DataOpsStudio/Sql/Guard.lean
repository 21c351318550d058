import DataOpsStudio.Library.Text

/-!
# The guard of statements

Before a text is sent to a database it is checked: read-only statements start with `SELECT` or
`WITH`, other statements with one of a list of verbs, and there is one statement only.  The texts
are cut at semicolons by a scanner that knows single quotes, double quotes and backticks, two kinds
of comments, and quotes that are escaped by a backslash.  The same scanner serves every database.
-/

namespace Sql

open Text

/-- The error of a text that is refused.  It never holds the text. -/
structure SqlGuardError where
  message : String
deriving DecidableEq

/-! ### Words -/

/-- Whether a word can start with a character. -/
def startsWord (c : Char) : Bool := c.isAlpha || c == '_'

/-- Whether a word can go on with a character. -/
def continuesWord (c : Char) : Bool := c.isAlphanum || c == '_'

/-- The word a text starts with. -/
def firstToken : Text → Option Text
  | [] => none
  | c :: s => if startsWord c then some (c :: s.takeWhile continuesWord) else none

/-- The words of a text, the number being that of the characters still to be passed over. -/
def tokensFrom : ℕ → Text → List Text
  | _, [] => []
  | skip + 1, _ :: s => tokensFrom skip s
  | 0, c :: s =>
      if startsWord c then
        (c :: s.takeWhile continuesWord) :: tokensFrom (s.takeWhile continuesWord).length s
      else tokensFrom 0 s

/-- A text in lower case; words have ASCII letters only. -/
def lowerWord (s : Text) : Text := s.map Char.toLower

/-- Whether a text starts with a word, in letters of either case. -/
def startsWithWord (word s : Text) : Bool := lowerWord (s.take word.length) == word

section Patterns

variable (isWord : Char → Bool)

/-- Whether a text does not go on with a character of a word. -/
def endsWord : Text → Bool
  | [] => true
  | c :: _ => !isWord c

/-- Whether some place of a text that is not inside a word satisfies a condition. -/
def anyAtWordStart (found : Text → Bool) : Bool → Text → Bool
  | _, [] => false
  | inside, c :: s => (!inside && found (c :: s)) || anyAtWordStart found (isWord c) s

/-- Whether a text has the words `for update`. -/
def hasForUpdate (s : Text) : Bool :=
  anyAtWordStart isWord
    (fun t =>
      startsWithWord "for".toList t
        && (t.drop 3).head?.any isSpace
        && startsWithWord "update".toList ((t.drop 3).dropWhile isSpace)
        && endsWord isWord (((t.drop 3).dropWhile isSpace).drop 6))
    false s

/-- Whether a text has the word `where`. -/
def hasWhere (s : Text) : Bool :=
  anyAtWordStart isWord
    (fun t => startsWithWord "where".toList t && endsWord isWord (t.drop 5)) false s

end Patterns

/-! ### The scanner -/

/-- What the scanner is inside of. -/
inductive ScanMode where
  | plain
  | single
  | double
  | backtick
  | lineComment
  | blockComment
deriving DecidableEq

/-- Whether a character is escaped by the backslashes before it, the nearest one first. -/
def isEscaped (before : Text) : Bool := (before.takeWhile (fun c => c == '\\')).length % 2 == 1

/-- One step of the scanner, at a character with the texts before and after it: what it is inside
of then, how many of the next characters belong to the step, and whether a statement ends here. -/
def scanStep (mode : ScanMode) (before : Text) (c : Char) (after : Text) : ScanMode × ℕ × Bool :=
  match mode with
  | .lineComment => (if c = '\n' then .plain else .lineComment, 0, false)
  | .blockComment =>
      if c = '*' ∧ after.head? = some '/' then (.plain, 1, false) else (.blockComment, 0, false)
  | .plain =>
      if c = '-' ∧ after.head? = some '-' then (.lineComment, 1, false)
      else if c = '/' ∧ after.head? = some '*' then (.blockComment, 1, false)
      else if c = ';' then (.plain, 0, true)
      else if c = '\'' then (if isEscaped before then .plain else .single, 0, false)
      else if c = '"' then (if isEscaped before then .plain else .double, 0, false)
      else if c = '`' then (.backtick, 0, false)
      else (.plain, 0, false)
  | .single => (if c = '\'' ∧ isEscaped before = false then .plain else .single, 0, false)
  | .double => (if c = '"' ∧ isEscaped before = false then .plain else .double, 0, false)
  | .backtick => (if c = '`' then .plain else .backtick, 0, false)

/-- A statement without the white space around it, unless nothing is left. -/
def statementOf (part : Text) : List Text := if strip part = [] then [] else [strip part]

/-- The statements of the rest of a text, after the characters `before` and the beginning `part` of
a statement, both in reverse. -/
def splitFrom (mode : ScanMode) (skip : ℕ) (before part : Text) : Text → List Text
  | [] => statementOf part.reverse
  | c :: s =>
      match skip with
      | skip + 1 => splitFrom mode skip (c :: before) (c :: part) s
      | 0 =>
          match scanStep mode before c s with
          | (next, _, true) => statementOf part.reverse ++ splitFrom next 0 (c :: before) [] s
          | (next, skip, false) => splitFrom next skip (c :: before) (c :: part) s

/-- The statements of a text. -/
def splitSemicolonStatements (sql : Text) : List Text := splitFrom .plain 0 [] [] sql

/-! ### Leading comments -/

/-- What is after the first occurrence of a text. -/
def afterFirst (part : Text) : Text → Option Text
  | [] => if part = [] then some [] else none
  | c :: s =>
      if part.isPrefixOf (c :: s) then some ((c :: s).drop part.length) else afterFirst part s

/-- A text without the white space in front of it. -/
def lstrip (s : Text) : Text := s.dropWhile isSpace

/-- A text without the comments in front of it, for as many comments as there is fuel. -/
def stripLeadingFrom : ℕ → Text → Except SqlGuardError Text
  | 0, remaining => .ok remaining
  | fuel + 1, remaining =>
      if "--".toList.isPrefixOf remaining then
        match afterFirst "\n".toList remaining with
        | none => .ok []
        | some rest => stripLeadingFrom fuel (lstrip rest)
      else if "/*".toList.isPrefixOf remaining then
        match afterFirst "*/".toList remaining with
        | none => .error ⟨"Unclosed SQL block comment"⟩
        | some rest => stripLeadingFrom fuel (lstrip rest)
      else .ok remaining

/-- A text without the comments and the white space in front of it. -/
def stripLeadingComments (sql : Text) : Except SqlGuardError Text :=
  stripLeadingFrom sql.length (lstrip sql)

/-! ### The guard -/

/-- The words that a read-only statement may not have. -/
def forbiddenTokens : List String :=
  ["alter", "call", "create", "delete", "drop", "execute", "grant", "insert", "lock", "merge",
    "replace", "revoke", "truncate", "update"]

/-- The kinds of statements. -/
inductive SqlStatementKind where
  | query
  | dml
  | ddl
deriving DecidableEq

/-- The verbs of statements that change rows. -/
def dmlVerbs : List String := ["insert", "update", "delete", "merge"]

/-- The verbs of statements that change tables. -/
def ddlVerbs : List String := ["create", "alter", "drop", "truncate"]

/-- A statement that may be executed. -/
structure ClassifiedSql where
  sql : Text
  kind : SqlStatementKind
  verb : Text
  missingWhere : Bool := false
deriving DecidableEq

/-- One of some words. -/
def isOneOf (words : List String) (word : Text) : Bool := (words.map String.toList).contains word

variable (isWord : Char → Bool)

/-- A read-only statement without the comments in front of it. -/
def validateReadonlySql (sql : Text) : Except SqlGuardError Text := do
  let stripped := strip (← stripLeadingComments sql)
  if stripped = [] then .error ⟨"SQL is empty"⟩
  else if ((firstToken stripped).map lowerWord).any (isOneOf ["select", "with"]) = false then
    .error ⟨"Only SELECT/WITH statements are allowed"⟩
  else if 1 < (splitSemicolonStatements stripped).length then
    .error ⟨"Multiple SQL statements are not allowed"⟩
  else if hasForUpdate isWord stripped then .error ⟨"SELECT ... FOR UPDATE is not allowed"⟩
  else if (tokensFrom 0 stripped).any (fun token => isOneOf forbiddenTokens (lowerWord token)) then
    .error ⟨"SQL contains forbidden write/control tokens"⟩
  else .ok stripped

/-- Whether a quote ends a quoted text. -/
def closesQuote (quote c : Char) (before : Text) : Bool :=
  c == quote && !(quote != '`' && isEscaped before)

/-- A text with its quoted texts and its comments replaced by blanks.  The quote is the one that is
open; `skip` characters still belong to a comment. -/
def blankFrom (quote : Option Char) (skip : ℕ) (before : Text) : Text → Text
  | [] => []
  | c :: s =>
      match skip with
      | skip + 1 => ' ' :: blankFrom quote skip (c :: before) s
      | 0 =>
          match quote with
          | some q => ' ' :: blankFrom (if closesQuote q c before then none else some q) 0
              (c :: before) s
          | none =>
              if c = '-' ∧ s.head? = some '-' then
                ' ' :: blankFrom none ((s.takeWhile (fun d => d != '\n')).length) (c :: before) s
              else if c = '/' ∧ s.head? = some '*' then
                let length :=
                  match afterFirst "*/".toList (s.drop 1) with
                  | none => s.length
                  | some rest => s.length - rest.length
                ' ' :: blankFrom none length (c :: before) s
              else if c = '\'' ∨ c = '"' ∨ c = '`' then
                ' ' :: blankFrom (some c) 0 (c :: before) s
              else c :: blankFrom none 0 (c :: before) s

/-- The skeleton of a statement. -/
def blankLiteralsAndComments (sql : Text) : Text := blankFrom none 0 [] sql

/-- The kind of the statements that start with a verb, unless they only read. -/
def writeKind (verb : Text) : Option SqlStatementKind :=
  if isOneOf dmlVerbs verb then some .dml else if isOneOf ddlVerbs verb then some .ddl else none

/-- A statement that may be executed, with what is known about it. -/
def classifyExecutableSql (sql : Text) : Except SqlGuardError ClassifiedSql := do
  let stripped := strip (← stripLeadingComments sql)
  let verb := lowerWord ((firstToken stripped).getD [])
  if stripped = [] then .error ⟨"SQL is empty"⟩
  else if isOneOf ["select", "with"] verb then
    (validateReadonlySql isWord sql).map (fun sql => { sql, kind := .query, verb })
  else
    match writeKind verb with
    | none =>
        .error ⟨"Only SELECT/WITH/INSERT/UPDATE/DELETE/MERGE/CREATE/ALTER/DROP/TRUNCATE "
          ++ "statements are allowed"⟩
    | some kind =>
        match splitSemicolonStatements stripped with
        | [statement] =>
            let missingWhere := isOneOf ["update", "delete"] verb
              && !hasWhere isWord (blankLiteralsAndComments statement)
            .ok { sql := statement, kind, verb, missingWhere }
        | _ => .error ⟨"Multiple SQL statements are not allowed"⟩

/-- The guard lets a text through, in one of its two forms. -/
def Accepted (sql : Text) : Prop :=
  (∃ stripped, validateReadonlySql isWord sql = .ok stripped)
    ∨ ∃ classified, classifyExecutableSql isWord sql = .ok classified

/-! ### What the guard has seen -/

theorem length_afterFirst {part s rest : Text} (h : afterFirst part s = some rest) :
  rest.length + part.length ≤ s.length
  := by
  induction s with
  | nil =>
      rw [afterFirst] at h
      split at h
      · rename_i hpart
        rw [← Option.some.inj h, hpart]
        rfl
      · cases h
  | cons c s ih =>
      rw [afterFirst] at h
      split at h
      · rename_i hprefix
        have hle := (List.isPrefixOf_iff_prefix.mp hprefix).length_le
        rw [← Option.some.inj h, List.length_drop]
        omega
      · apply (ih h).trans (Nat.le_succ _)

/-- There is always enough fuel for the comments of a text. -/
theorem stripLeadingFrom_succ {fuel : ℕ} {remaining : Text} (h : remaining.length ≤ fuel) :
  stripLeadingFrom (fuel + 1) remaining = stripLeadingFrom fuel remaining
  := by
  induction fuel generalizing remaining with
  | zero =>
      obtain rfl := List.length_eq_zero_iff.mp (Nat.le_zero.mp h)
      rfl
  | succ fuel ih =>
      have hshorter : ∀ (part rest : Text), part ≠ [] → afterFirst part remaining = some rest →
          stripLeadingFrom (fuel + 1) (lstrip rest) = stripLeadingFrom fuel (lstrip rest) := by
        intro part rest hpart hrest
        apply ih
        have hlength := length_afterFirst hrest
        have hpos := List.length_pos_of_ne_nil hpart
        have hstrip : (lstrip rest).length ≤ rest.length := List.length_dropWhile_le isSpace rest
        omega
      rw [stripLeadingFrom, stripLeadingFrom]
      split
      · split
        · rfl
        · rename_i rest hrest
          apply hshorter _ rest _ hrest
          decide
      · split
        · split
          · rfl
          · rename_i rest hrest
            apply hshorter _ rest _ hrest
            decide
        · rfl

/-- No white space is left in front. -/
theorem lstrip_of_stripLeadingFrom {fuel : ℕ} {s rest : Text}
    (h : stripLeadingFrom fuel (lstrip s) = .ok rest) :
  lstrip rest = rest
  := by
  have htwice : ∀ t, lstrip (lstrip t) = lstrip t := List.dropWhile_idempotent isSpace
  induction fuel generalizing s with
  | zero => rw [← Except.ok.inj h, htwice]
  | succ fuel ih =>
      rw [stripLeadingFrom] at h
      split at h
      · split at h
        · rw [← Except.ok.inj h]
          rfl
        · exact ih h
      · split at h
        · split at h
          · cases h
          · exact ih h
        · rw [← Except.ok.inj h, htwice]

/-- A text that is let through is not empty and has at most one statement for the scanner. -/
theorem Accepted.statements {sql : Text} (h : Accepted isWord sql) :
  ∃ rest, stripLeadingComments sql = .ok rest ∧ strip rest ≠ []
    ∧ (splitSemicolonStatements (strip rest)).length ≤ 1
  := by
  have hreadonly : ∀ stripped, validateReadonlySql isWord sql = .ok stripped →
      ∃ rest, stripLeadingComments sql = .ok rest ∧ strip rest ≠ []
        ∧ (splitSemicolonStatements (strip rest)).length ≤ 1 := by
    intro stripped hok
    obtain ⟨rest, hrest, hok⟩ := Outcome.bind_eq_ok.mp hok
    dsimp only at hok
    split at hok
    · cases hok
    · rename_i hne
      refine ⟨rest, hrest, hne, ?_⟩
      by_contra hmany
      simp only [if_pos (not_le.mp hmany)] at hok
      split at hok
      · cases hok
      · cases hok
  rcases h with ⟨stripped, hok⟩ | ⟨classified, hok⟩
  · exact hreadonly stripped hok
  · obtain ⟨rest, hrest, hok⟩ := Outcome.bind_eq_ok.mp hok
    dsimp only at hok
    split at hok
    · cases hok
    · rename_i hne
      split at hok
      · obtain ⟨stripped, hstripped, -⟩ := Outcome.map_eq_ok.mp hok
        exact hreadonly stripped hstripped
      · split at hok
        · cases hok
        · split at hok
          · rename_i statement hone
            refine ⟨rest, hrest, hne, ?_⟩
            rw [hone]
            rfl
          · cases hok

end Sql

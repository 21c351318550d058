import DataOpsStudio.Sql.Guard

/-!
# How databases read a text

Every database cuts a text into statements by lexical rules of its own: which quotes there are and
whether a backslash escapes them, how comments begin and end, and whether they are nested.  A
reading of a text says of every character whether it is blank, a part of a statement, or the
semicolon between two, and whether the scanner of the guard goes another way there.
-/

namespace Sql

open Text

/-- The kinds of databases. -/
inductive DbType where
  | mysql
  | oracle
  | dm
  | db2
  | postgresql
  | oceanbaseOracle
deriving DecidableEq

/-- The lexical rules of a database. -/
structure Lexis where
  /-- A backslash escapes the character after it in quoted texts. -/
  backslashEscapes : Bool := false
  /-- A backslash does so in literals that are prefixed by the letter `E`. -/
  escapeLiterals : Bool := false
  /-- Literals such as `q'[…]'`. -/
  alternativeQuotes : Bool := false
  /-- Literals such as `$tag$…$tag$`. -/
  dollarQuotes : Bool := false
  /-- Identifiers in backticks. -/
  backticks : Bool := false
  /-- Line comments that begin with a hash. -/
  hashComments : Bool := false
  /-- Two dashes begin a comment only in front of white space or a control character. -/
  dashesNeedBlank : Bool := false
  /-- A carriage return alone ends a line comment. -/
  returnEndsLine : Bool := false
  /-- Block comments are nested. -/
  nestedComments : Bool := false

/-- The lexical rules of the databases. -/
def DbType.lexis : DbType → Lexis
  | .mysql =>
      { backslashEscapes := true, backticks := true, hashComments := true, dashesNeedBlank := true }
  | .oracle => { alternativeQuotes := true }
  | .dm => {}
  | .db2 => { nestedComments := true }
  | .postgresql =>
      { escapeLiterals := true, dollarQuotes := true, returnEndsLine := true,
        nestedComments := true }
  | .oceanbaseOracle => { alternativeQuotes := true }

/-! ### One character -/

/-- What a character is inside of. -/
inductive Mode where
  | top
  | quoted (close : Char) (escapes : Bool)
  | alternative (close : Char)
  | dollar (tag : Text)
  | line
  | block (depth : ℕ)
deriving DecidableEq

/-- What a character is for. -/
inductive Mark where
  | blank
  | token
  | separator
deriving DecidableEq

/-- Whether the text before a quote ends with a word of the given letter. -/
def endsWithLetter (letter : Char) : Text → Bool
  | [] => false
  | c :: before => c.toLower == letter && !(before.head?.any continuesWord)

/-- The character that closes an alternative quote. -/
def closingOf (c : Char) : Char :=
  if c = '[' then ']' else if c = '(' then ')' else if c = '{' then '}' else if c = '<' then '>'
  else c

/-- Whether a character can be in the tag of a dollar quote. -/
def continuesTag (c : Char) : Bool := continuesWord c || 0x80 ≤ c.toNat

/-- The tag of a dollar quote, from the text after its first dollar. -/
def dollarTag (after : Text) : Option Text :=
  let tag := after.takeWhile continuesTag
  if (after.drop tag.length).head? = some '$' ∧ !(tag.head?.any Char.isDigit) then some tag
  else none

/-- Whether a dollar after a text is inside a name. -/
def insideName (before : Text) : Bool := before.head?.any (fun c => continuesTag c || c == '$')

namespace Lexis

variable (lexis : Lexis)

/-- Whether two dashes begin a comment in front of a text. -/
def dashesBegin (after : Text) : Bool :=
  !lexis.dashesNeedBlank || after.head?.all (fun c => isSpace c || c.toNat < 0x20)

/-- Whether a carriage return ends a line comment. -/
def endsLine (c : Char) (after : Text) : Bool :=
  c == '\n' || (lexis.returnEndsLine && c == '\r' && after.head? != some '\n')

/-- Where a literal in single quotes leads. -/
def openQuote (before after : Text) : Mode × ℕ :=
  if lexis.alternativeQuotes && endsWithLetter 'q' before then
    match after with
    | [] => (.quoted '\'' false, 0)
    | c :: _ => (.alternative (closingOf c), 1)
  else
    (.quoted '\'' (lexis.backslashEscapes || (lexis.escapeLiterals && endsWithLetter 'e' before)), 0)

/-- Whether a quote in front of a text stands twice, and so does not close its literal.  Where
a literal can be opened again by the second quote with the same rules, nothing is lost by closing
it. -/
def doubles (close : Char) (escapes : Bool) (after : Text) : Bool :=
  lexis.escapeLiterals && escapes && after.head? == some close

/-- One step of a reading, at a character with the texts before and after it: what the next
character is inside of, how many of the next characters belong to the step, and what the character
is for. -/
def step (mode : Mode) (before : Text) (c : Char) (after : Text) : Mode × ℕ × Mark :=
  match mode with
  | .line => (if lexis.endsLine c after then .top else .line, 0, .blank)
  | .block depth =>
      if c = '*' ∧ after.head? = some '/' then
        (match depth with | 0 => .top | depth + 1 => .block depth, 1, .blank)
      else if lexis.nestedComments ∧ c = '/' ∧ after.head? = some '*' then
        (.block (depth + 1), 1, .blank)
      else (.block depth, 0, .blank)
  | .quoted close escapes =>
      if c = close ∧ (escapes && isEscaped before) = false then
        (if lexis.doubles close escapes after then (.quoted close escapes, 1, .token)
        else (.top, 0, .token))
      else (.quoted close escapes, 0, .token)
  | .alternative close =>
      if c = close ∧ after.head? = some '\'' then (.top, 1, .token)
      else (.alternative close, 0, .token)
  | .dollar tag =>
      if ('$' :: tag ++ ['$']).isPrefixOf (c :: after) then (.top, tag.length + 1, .token)
      else (.dollar tag, 0, .token)
  | .top =>
      if c = '-' ∧ after.head? = some '-' ∧ lexis.dashesBegin (after.drop 1) then (.line, 1, .blank)
      else if c = '#' ∧ lexis.hashComments then (.line, 0, .blank)
      else if c = '/' ∧ after.head? = some '*' then (.block 0, 1, .blank)
      else if c = ';' then (.top, 0, .separator)
      else if c = '\'' then
        ((lexis.openQuote before after).1, (lexis.openQuote before after).2, .token)
      else if c = '"' then (.quoted '"' lexis.backslashEscapes, 0, .token)
      else if c = '`' ∧ lexis.backticks then (.quoted '`' false, 0, .token)
      else if c = '$' ∧ lexis.dollarQuotes ∧ !(insideName before)
          ∧ (dollarTag after).isSome then
        (.dollar ((dollarTag after).getD []), ((dollarTag after).getD []).length + 1, .token)
      else (.top, 0, if isSpace c then .blank else .token)

/-- The places at which the rules of a database lead elsewhere than the scanner of the guard: two
dashes that are no comment, a hash, a comment that opens with `/*/`, a quote that is opened after a
backslash, a literal the scanner does not know, a backtick that is no quote; a carriage return that
ends a line; a comment inside a comment; and a quote that is not escaped by the backslash before
it, or stands twice in a literal that has escapes of its own. -/
def differs (mode : Mode) (before : Text) (c : Char) (after : Text) : Bool :=
  match mode with
  | .top =>
      (c == '-' && after.head? == some '-' && !lexis.dashesBegin (after.drop 1))
        || (c == '#' && lexis.hashComments)
        || (c == '/' && "*/".toList.isPrefixOf after)
        || ((c == '\'' || c == '"') && isEscaped before)
        || (c == '\'' && lexis.alternativeQuotes && endsWithLetter 'q' before)
        || (c == '`' && !lexis.backticks)
        || (c == '$' && lexis.dollarQuotes && !(insideName before)
          && (dollarTag after).isSome)
  | .line => c != '\n' && lexis.endsLine c after
  | .block _ => lexis.nestedComments && c == '/' && after.head? == some '*'
  | .quoted close escapes =>
      c == close
        && ((close != '`' && !escapes && isEscaped before)
          || (!isEscaped before && lexis.doubles close escapes after))
  | .alternative _ => false
  | .dollar _ => false

/-! ### Texts -/

/-- A character of a text with what it is for, and whether the scanner goes another way there. -/
structure Place where
  char : Char
  mark : Mark
  differs : Bool

/-- The reading of the rest of a text, after the characters `before` in reverse.  Characters that
still belong to a step are for what its first character is for. -/
def read (mode : Mode) (skip : ℕ) (mark : Mark) (before : Text) : Text → List Place
  | [] => []
  | c :: s =>
      match skip with
      | skip + 1 => ⟨c, mark, false⟩ :: read mode skip mark (c :: before) s
      | 0 =>
          ⟨c, (lexis.step mode before c s).2.2, lexis.differs mode before c s⟩
            :: read (lexis.step mode before c s).1 (lexis.step mode before c s).2.1
              (lexis.step mode before c s).2.2 (c :: before) s

/-- The reading of a text. -/
def places (sql : Text) : List Place := lexis.read .top 0 .blank [] sql

end Lexis

/-- The statements of a reading that have a part, after the beginning `part` of one in reverse. -/
def cut (part : Text) (hasToken : Bool) : List Lexis.Place → List Text
  | [] => if hasToken then [part.reverse] else []
  | place :: rest =>
      match place.mark with
      | .separator => (if hasToken then [part.reverse] else []) ++ cut [] false rest
      | .token => cut (place.char :: part) true rest
      | .blank => cut (place.char :: part) hasToken rest

/-- The statements of a text that are not empty, as a database reads it. -/
def DbType.statements (db : DbType) (sql : Text) : List Text := cut [] false (db.lexis.places sql)

/-- A backslash ends a literal in one database and not in another. -/
example :
  (DbType.postgresql.statements "insert into t values ('\\'); drop table t; --')".toList).length = 2
    ∧ (DbType.mysql.statements "insert into t values ('\\'); drop table t; --')".toList).length = 1
  := by decide

/-! ### Semicolons between statements -/

open Lexis

/-- Some character of a reading is a part of a statement. -/
def HasToken (reading : List Place) : Prop := ∃ place ∈ reading, place.mark = .token

/-- A reading is cut by a semicolon between two statements into what is before and after it. -/
structure Separates (reading before : List Place) (semicolon : Place) (after : List Place) :
    Prop where
  eq : reading = before ++ semicolon :: after
  mark : semicolon.mark = .separator
  before : HasToken before
  after : HasToken after

theorem hasToken_cons {place : Place} {rest : List Place} :
  HasToken (place :: rest) ↔ place.mark = .token ∨ HasToken rest
  := by
  simp only [HasToken, List.mem_cons, exists_eq_or_imp]

theorem not_hasToken_nil :
  ¬ HasToken []
  := fun ⟨_, hmem, _⟩ => List.not_mem_nil hmem

theorem cut_ne_nil_iff {part : Text} {hasToken : Bool} {reading : List Place} :
  cut part hasToken reading ≠ [] ↔ hasToken = true ∨ HasToken reading
  := by
  induction reading generalizing part hasToken with
  | nil =>
      rw [cut]
      cases hasToken with
      | false => simp [not_hasToken_nil]
      | true => simp
  | cons place rest ih =>
      rw [cut, hasToken_cons]
      cases hmark : place.mark with
      | separator =>
          have hrest : cut [] false rest ≠ [] ↔ false = true ∨ HasToken rest := ih
          cases hasToken with
          | false => simpa using hrest
          | true => simp
      | token => simp [ih]
      | blank => simp [ih]

/-- A reading is cut by a semicolon after a part of a statement, of which some is known already,
and before another. -/
def SeparatesAfter (hasToken : Bool) (reading : List Place) : Prop :=
  ∃ before semicolon after, reading = before ++ semicolon :: after
    ∧ semicolon.mark = .separator ∧ (hasToken = true ∨ HasToken before) ∧ HasToken after

/-- A character that is no semicolon is passed over. -/
theorem separatesAfter_cons {place : Place} {rest : List Place} {hasToken known : Bool}
    (hplace : place.mark ≠ .separator)
    (hknown : known = true ↔ hasToken = true ∨ place.mark = .token) :
  SeparatesAfter hasToken (place :: rest) ↔ SeparatesAfter known rest
  := by
  constructor
  · rintro ⟨before, semicolon, after, heq, hmark, hbefore, hafter⟩
    cases before with
    | nil =>
        rw [(List.cons.inj heq).1] at hplace
        apply (hplace hmark).elim
    | cons first before =>
        obtain ⟨rfl, rfl⟩ := List.cons.inj heq
        refine ⟨before, semicolon, after, rfl, hmark, ?_, hafter⟩
        rw [hasToken_cons, ← or_assoc, ← hknown] at hbefore
        apply hbefore
  · rintro ⟨before, semicolon, after, rfl, hmark, hbefore, hafter⟩
    refine ⟨place :: before, semicolon, after, rfl, hmark, ?_, hafter⟩
    rw [hasToken_cons, ← or_assoc, ← hknown]
    apply hbefore

/-- At a semicolon a statement ends, and another may begin. -/
theorem separatesAfter_separator {place : Place} {rest : List Place} {hasToken : Bool}
    (hplace : place.mark = .separator) :
  SeparatesAfter hasToken (place :: rest)
    ↔ (hasToken = true ∧ HasToken rest) ∨ SeparatesAfter false rest
  := by
  constructor
  · rintro ⟨before, semicolon, after, heq, hmark, hbefore, hafter⟩
    cases before with
    | nil =>
        obtain ⟨rfl, rfl⟩ := List.cons.inj heq
        left
        exact ⟨hbefore.resolve_right not_hasToken_nil, hafter⟩
    | cons first before =>
        obtain ⟨rfl, rfl⟩ := List.cons.inj heq
        rw [hasToken_cons, hplace] at hbefore
        rcases hbefore with hknown | hfirst | hbefore
        · left
          use hknown
          obtain ⟨p, hp, htoken⟩ := hafter
          exact ⟨p, List.mem_append_right _ (List.mem_cons_of_mem _ hp), htoken⟩
        · cases hfirst
        · right
          exact ⟨before, semicolon, after, rfl, hmark, .inr hbefore, hafter⟩
  · rintro (⟨hknown, hrest⟩ | ⟨before, semicolon, after, rfl, hmark, hbefore, hafter⟩)
    · exact ⟨[], place, rest, rfl, hplace, .inl hknown, hrest⟩
    · refine ⟨place :: before, semicolon, after, rfl, hmark, .inr ?_, hafter⟩
      rw [hasToken_cons]
      exact .inr (hbefore.resolve_left Bool.false_ne_true)

theorem two_le_length_cut_iff {part : Text} {hasToken : Bool} {reading : List Place} :
  2 ≤ (cut part hasToken reading).length ↔ SeparatesAfter hasToken reading
  := by
  induction reading generalizing part hasToken with
  | nil =>
      have hnone : ¬ SeparatesAfter hasToken [] := by
        rintro ⟨before, semicolon, after, heq, -⟩
        cases before <;> cases heq
      rw [cut]
      cases hasToken with
      | false => simp [hnone]
      | true => simp [hnone]
  | cons place rest ih =>
      rw [cut]
      cases hmark : place.mark with
      | token =>
          exact ih.trans (separatesAfter_cons (by rw [hmark]; decide) (by simp [hmark])).symm
      | blank =>
          exact ih.trans (separatesAfter_cons (by rw [hmark]; decide) (by simp [hmark])).symm
      | separator =>
          have hrest : 2 ≤ (cut [] false rest).length ↔ SeparatesAfter false rest := ih
          have hnil : cut [] false rest ≠ [] ↔ HasToken rest := by
            rw [cut_ne_nil_iff]
            exact or_iff_right Bool.false_ne_true
          rw [separatesAfter_separator hmark, ← hrest, ← hnil, ← List.length_pos_iff_ne_nil]
          dsimp only
          rw [List.length_append]
          cases hasToken with
          | false => simp
          | true =>
              simp only [if_true, List.length_singleton, true_and]
              omega

/-- A text has two statements exactly when a semicolon separates them. -/
theorem DbType.two_le_length_statements_iff (db : DbType) (sql : Text) :
  2 ≤ (db.statements sql).length
    ↔ ∃ before semicolon after, Separates (db.lexis.places sql) before semicolon after
  := by
  rw [DbType.statements, two_le_length_cut_iff]
  constructor
  · rintro ⟨before, semicolon, after, heq, hmark, hbefore, hafter⟩
    exact ⟨before, semicolon, after, heq, hmark, hbefore.resolve_left Bool.false_ne_true, hafter⟩
  · rintro ⟨before, semicolon, after, heq, hmark, hbefore, hafter⟩
    exact ⟨before, semicolon, after, heq, hmark, .inr hbefore, hafter⟩

end Sql

import DataOpsStudio.Compare.Normalize

/-!
# Normalisation inside the database

For some databases the payload of a row is computed where the rows are.  The expressions below are
those that are built for DM: their texts, and what they denote.  The functions of the language are
the standard ones: a missing argument gives a missing result, rounding takes halves away from zero,
a cast to a timestamp of some precision rounds to it, and a number that does not fit its format is
shown as a row of marks.
-/

namespace Compare

open Text

/-! ### Values and expressions -/

/-- A value of the language. -/
inductive SqlValue where
  | null
  | number (q : ℚ)
  | text (s : Text)
  | date (d : PyDate)
  | time (t : PyTime)
  | timestamp (d : PyDate) (t : PyTime)
deriving DecidableEq

/-- The value of a column, as the database has it and the driver returns it. -/
def SqlValue.ofPyValue : PyValue → SqlValue
  | .none => .null
  | .bool b => .number (if b then 1 else 0)
  | .int n => .number n
  | .float q _ => .number q
  | .decimal d => .number d.value
  | .str s => .text s
  | .date d => .date d
  | .time t => .time t
  | .datetime d t => .timestamp d t

/-- The text of a value that is one. -/
def SqlValue.text? : SqlValue → Option Text
  | .text s => some s
  | _ => none

/-- A function of texts on values, missing on others. -/
def SqlValue.mapText (f : Text → Text) : SqlValue → SqlValue
  | .text s => .text (f s)
  | _ => .null

/-- The value of a text, or the missing value. -/
def SqlValue.ofText? : Option Text → SqlValue
  | some s => .text s
  | none => .null

/-- How dates and times are shown, with some digits of the fraction of a second. -/
inductive DateFormat where
  | date
  | time (digits : ℕ)
  | timestamp (digits : ℕ)

/-- The literals of a list of values. -/
inductive SqlLiteral where
  | number (n : ℤ)
  | text (s : Text)

/-- The expressions that are built. -/
inductive SqlExpr where
  | column (name : String)
  | literal (s : Text)
  | round (e : SqlExpr) (scale : ℕ)
  | toCharNumber (e : SqlExpr) (scale : ℕ)
  | toCharDate (e : SqlExpr) (format : DateFormat)
  | toChar (e : SqlExpr)
  | castTimestamp (e : SqlExpr) (precision : ℕ)
  | flag (e : SqlExpr) (literals : List SqlLiteral)
  | trim (e : SqlExpr)
  | lower (e : SqlExpr)
  | nullif (e : SqlExpr) (s : Text)
  | nullBit (e : SqlExpr)
  | coalesce (e : SqlExpr) (s : Text)
  | length (e : SqlExpr)
  | concat (separator : Text) (parts : List SqlExpr)

/-! ### The texts of expressions -/

/-- A text in single quotes. -/
def sqlString (s : Text) : Text := "'".toList ++ replace "'".toList "''".toList s ++ "'".toList

/-- Whether a character may stand in an identifier. -/
def isIdentifierChar (c : Char) : Bool :=
  c.isAlphanum || ['_', '.', '$', '-'].contains c

/-- A text cut at every dot. -/
def splitDots : Text → List Text
  | [] => [[]]
  | c :: s =>
      if c = '.' then [] :: splitDots s
      else
        match splitDots s with
        | [] => [[c]]
        | part :: rest => (c :: part) :: rest

/-- An identifier in upper case, every part of it in double quotes. -/
def quoteIdentifier (identifier : Text) : Except CompareError Text :=
  if identifier.isEmpty || !identifier.all isIdentifierChar then
    .error (.valueError "Invalid database identifier")
  else
    .ok (join ".".toList ((splitDots identifier).map fun part =>
      "\"".toList ++ part.map Char.toUpper ++ "\"".toList))

/-- The format of numbers with `scale` fraction digits. -/
def dmNumberFormat (scale : ℕ) : Text :=
  "FM99999999999999999999999999999999999990".toList
    ++ if scale = 0 then [] else 'D' :: List.replicate scale '0'

/-- The text of a format. -/
def DateFormat.value : DateFormat → Text
  | date => "YYYY-MM-DD".toList
  | time digits =>
      "HH24:MI:SS".toList ++ if digits = 0 then [] else ".FF".toList ++ natText digits
  | timestamp digits =>
      "YYYY-MM-DD HH24:MI:SS".toList ++ if digits = 0 then [] else ".FF".toList ++ natText digits

/-- The text of a literal. -/
def SqlLiteral.render : SqlLiteral → Text
  | number n => intText n
  | text s => sqlString s

/-- The text of an expression. -/
def SqlExpr.render : SqlExpr → Except CompareError Text
  | .column name => quoteIdentifier name.toList
  | .literal s => .ok (sqlString s)
  | .round e scale => do
      return "ROUND(".toList ++ (← e.render) ++ ", ".toList ++ natText scale ++ ")".toList
  | .toCharNumber e scale => do
      return "TO_CHAR(".toList ++ (← e.render) ++ ", ".toList ++ sqlString (dmNumberFormat scale)
        ++ ", 'NLS_NUMERIC_CHARACTERS=''.,''')".toList
  | .toCharDate e format => do
      return "TO_CHAR(".toList ++ (← e.render) ++ ", ".toList ++ sqlString format.value ++ ")".toList
  | .toChar e => do return "TO_CHAR(".toList ++ (← e.render) ++ ")".toList
  | .castTimestamp e precision => do
      return "CAST(".toList ++ (← e.render) ++ " AS TIMESTAMP(".toList ++ natText precision
        ++ "))".toList
  | .flag e literals => do
      let quoted ← e.render
      return "CASE WHEN ".toList ++ quoted ++ " IS NULL THEN NULL WHEN ".toList ++ quoted
        ++ " IN (".toList ++ join ", ".toList (literals.map SqlLiteral.render)
        ++ ") THEN '1' ELSE '0' END".toList
  | .trim e => do return "TRIM(".toList ++ (← e.render) ++ ")".toList
  | .lower e => do return "LOWER(".toList ++ (← e.render) ++ ")".toList
  | .nullif e s => do
      return "NULLIF(".toList ++ (← e.render) ++ ", ".toList ++ sqlString s ++ ")".toList
  | .nullBit e => do
      return "CASE WHEN (".toList ++ (← e.render) ++ ") IS NULL THEN '1' ELSE '0' END".toList
  | .coalesce e s => do
      return "COALESCE(".toList ++ (← e.render) ++ ", ".toList ++ sqlString s ++ ")".toList
  | .length e => do return "TO_CHAR(LENGTH(".toList ++ (← e.render) ++ "))".toList
  | .concat separator parts => do
      let texts ← renderAll parts
      return "(".toList ++ join (" || ".toList ++ sqlString separator ++ " || ".toList) texts
        ++ ")".toList
where
  /-- The texts of expressions. -/
  renderAll : List SqlExpr → Except CompareError (List Text)
    | [] => .ok []
    | e :: rest => do
        let text ← e.render
        let texts ← renderAll rest
        return text :: texts

/-! ### What expressions denote -/

/-- The nearest integer, halves away from zero. -/
def roundHalfAway (q : ℚ) : ℤ := if 0 ≤ q then ⌊q + 1 / 2⌋ else -⌊-q + 1 / 2⌋

/-- The digits before the point in the format of numbers. -/
def numberFormatDigits : ℕ := 38

/-- A number as its format shows it. -/
def showNumber (q : ℚ) (scale : ℕ) : Text :=
  let c := roundHalfAway (q * 10 ^ scale)
  if 10 ^ (numberFormatDigits + scale) ≤ c.natAbs then
    List.replicate (numberFormatDigits + scale + 1) '#'
  else fixedText (decide (c < 0)) c.natAbs scale

/-- The microseconds of a day. -/
def dayMicroseconds : ℕ := 86400 * 10 ^ 6

/-- The microseconds since midnight. -/
def PyTime.sinceMidnight (t : PyTime) : ℕ :=
  ((t.hour * 60 + t.minute) * 60 + t.second) * 10 ^ 6 + t.microsecond

/-- The time of day some microseconds after midnight. -/
def PyTime.ofSinceMidnight (n : ℕ) : PyTime where
  hour := n / (3600 * 10 ^ 6)
  minute := n / (60 * 10 ^ 6) % 60
  second := n / 10 ^ 6 % 60
  microsecond := n % 10 ^ 6

/-- The number of days of a month. -/
def daysInMonth (year month : ℕ) : ℕ :=
  if month = 2 then
    if year % 4 = 0 ∧ (year % 100 ≠ 0 ∨ year % 400 = 0) then 29 else 28
  else if month ∈ [4, 6, 9, 11] then 30 else 31

/-- The day after a date. -/
def PyDate.next (d : PyDate) : PyDate :=
  if d.day < daysInMonth d.year d.month then ⟨d.year, d.month, d.day + 1⟩
  else if d.month < 12 then ⟨d.year, d.month + 1, 1⟩
  else ⟨d.year + 1, 1, 1⟩

/-- The microseconds of the last digit that a precision keeps. -/
def precisionUnit (precision : ℕ) : ℕ := 10 ^ (6 - precision)

/-- Microseconds rounded to a precision. -/
def roundMicroseconds (n precision : ℕ) : ℕ :=
  (2 * n + precisionUnit precision) / (2 * precisionUnit precision) * precisionUnit precision

/-- A time of day rounded to a precision; past the end of the day it starts again. -/
def PyTime.rounded (t : PyTime) (precision : ℕ) : PyTime :=
  .ofSinceMidnight (roundMicroseconds t.sinceMidnight precision % dayMicroseconds)

/-- The date of a rounded time. -/
def PyDate.rounded (d : PyDate) (t : PyTime) (precision : ℕ) : PyDate :=
  if roundMicroseconds t.sinceMidnight precision < dayMicroseconds then d else d.next

/-- A date or a time under a format. -/
def DateFormat.shown : DateFormat → SqlValue → SqlValue
  | .date, .date d => .text d.isoformat
  | .date, .timestamp d _ => .text d.isoformat
  | .time digits, .time t => .text (appendFraction t.seconds t.microsecond digits)
  | .time digits, .timestamp _ t => .text (appendFraction t.seconds t.microsecond digits)
  | .timestamp digits, .timestamp d t =>
      .text (appendFraction (d.isoformat ++ ' ' :: t.seconds) t.microsecond digits)
  | _, _ => .null

/-- Whether a value is the literal; a number is compared with a text by its own text. -/
def SqlLiteral.isValue : SqlLiteral → SqlValue → Bool
  | .number n, .number q => decide (q = n)
  | .number n, .text t => decide (t = intText n)
  | .text s, .number q => decide (q.den = 1 ∧ intText q.num = s)
  | .text s, .text t => decide (t = s)
  | _, _ => false

/-- Texts joined, a missing one making the whole missing. -/
def joinValues (separator : Text) (values : List SqlValue) : SqlValue :=
  if values = [] then .null
  else
    match values.mapM SqlValue.text? with
    | some texts => .text (joinText separator texts)
    | none => .null

/-- The value of an expression in a row. -/
def SqlExpr.denote (lib : Builtins) (row : String → SqlValue) : SqlExpr → SqlValue
  | .column name => row name
  | .literal s => .text s
  | .round e scale =>
      match e.denote lib row with
      | .number q => .number (roundHalfAway (q * 10 ^ scale) / 10 ^ scale)
      | _ => .null
  | .toCharNumber e scale =>
      match e.denote lib row with
      | .number q => .text (showNumber q scale)
      | _ => .null
  | .toCharDate e format => format.shown (e.denote lib row)
  | .toChar e =>
      match e.denote lib row with
      -- only columns of texts are shown without a format
      | .text s => .text s
      | _ => .null
  | .castTimestamp e precision =>
      match e.denote lib row with
      | .time t => .time (t.rounded precision)
      | .timestamp d t => .timestamp (d.rounded t precision) (t.rounded precision)
      | .date d => .timestamp d ⟨0, 0, 0, 0⟩
      | _ => .null
  | .flag e literals =>
      match e.denote lib row with
      | .null => .null
      | v => .text (if literals.any (fun l => l.isValue v) then ['1'] else ['0'])
  | .trim e => (e.denote lib row).mapText (stripBy (fun c => c == ' '))
  | .lower e => (e.denote lib row).mapText lib.lower
  | .nullif e s =>
      match e.denote lib row with
      | .text t => if t = s then .null else .text t
      | v => v
  | .nullBit e =>
      match e.denote lib row with
      | .null => .text ['1']
      | _ => .text ['0']
  | .coalesce e s =>
      match e.denote lib row with
      | .null => .text s
      | v => v
  | .length e => (e.denote lib row).mapText (fun s => natText s.length)
  | .concat separator parts => joinValues separator (denoteAll parts)
where
  /-- The values of expressions. -/
  denoteAll : List SqlExpr → List SqlValue
    | [] => []
    | e :: rest => e.denote lib row :: denoteAll rest

/-! ### The expressions that are built -/

/-- A time of day at a precision. -/
def dmTimeExpr (e : SqlExpr) (precision : ℕ) : SqlExpr :=
  .toCharDate (.castTimestamp e precision) (.time precision)

/-- A date and time at a precision. -/
def dmTimestampExpr (e : SqlExpr) (precision : ℕ) : SqlExpr :=
  .toCharDate (.castTimestamp e precision) (.timestamp precision)

/-- The values of a flag column that are true. -/
def trueLiterals : List SqlLiteral :=
  [.number 1, .text "1".toList, .text "Y".toList, .text "y".toList, .text "TRUE".toList,
    .text "true".toList]

/-- The normalised value of a column. -/
def normalizedValueExpression (column : CompareColumn) (rules : CompareRules) : SqlExpr :=
  let quoted := SqlExpr.column column.name
  match column.type with
  | .integer | .decimal | .float =>
      .toCharNumber (.round quoted rules.numericScale) rules.numericScale
  | .boolean => .flag quoted trueLiterals
  | .date => .toCharDate quoted .date
  | .time => dmTimeExpr quoted rules.timestampPrecision
  | .datetime => dmTimestampExpr quoted rules.timestampPrecision
  | _ =>
      let expr := SqlExpr.toChar quoted
      let expr := if rules.trimStrings then expr.trim else expr
      let expr := if rules.caseInsensitive then expr.lower else expr
      if rules.emptyAsNull then expr.nullif [] else expr

/-- A normalised value, the sentinel when it is missing. -/
def coalescedValue (e : SqlExpr) (rules : CompareRules) : SqlExpr := .coalesce e rules.nullSentinel

/-- The payload of a row. -/
def rowPayloadExpression (columns : List CompareColumn) (rules : CompareRules) : SqlExpr :=
  let normalized := columns.map (fun column => normalizedValueExpression column rules)
  let values := normalized.map (fun e => coalescedValue e rules)
  .concat rules.fieldSeparator
    (normalized.map .nullBit ++ values.flatMap (fun e => [.length e, e]))

/-- The texts of the expressions are those that are sent. -/
example :
  (normalizedValueExpression ⟨"amount", .decimal⟩ { numericScale := 2 }).render.toOption
    = some ("TO_CHAR(ROUND(\"AMOUNT\", 2), 'FM99999999999999999999999999999999999990D00', "
      ++ "'NLS_NUMERIC_CHARACTERS=''.,''')").toList
  := by decide

end Compare

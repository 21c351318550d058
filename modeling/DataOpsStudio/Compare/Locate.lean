import DataOpsStudio.Compare.Normalize
import DataOpsStudio.Library.SqlTokens
import DataOpsStudio.Sql.Dialects

/-!
# Statements that locate rows

For the keys of differing rows a statement is written that selects these rows again: one column is
compared with a list of constants, several columns with a list of tuples.  The statement is read by
the database, which has rules of its own for what a character string says, and compares values in
three-valued logic.
-/

namespace Locate

open Text SqlLexer Compare Sql

/-! ### Constants -/

/-- The shortest decimal text of a finite float, which determines it. -/
structure FloatText where
  negative : Bool
  whole : ℕ
  fraction : Text
  exponent : Option ℤ
  digits : ∀ c ∈ fraction, c.isDigit = true

/-- A value of a key. -/
inductive KeyValue where
  | none
  | bool (b : Bool)
  | int (n : ℤ)
  | float (f : FloatText)
  | str (s : Text)

/-- The exponent of a float, of two digits at least. -/
def exponentSuffix : Option ℤ → Text
  | .none => []
  | some n => 'e' :: (if n < 0 then '-' else '+') :: zeroPad 2 n.natAbs

/-- The fraction of a float. -/
def fractionSuffix (fraction : Text) : Text := if fraction = [] then [] else '.' :: fraction

/-- The text of a float. -/
def FloatText.repr (f : FloatText) : Text :=
  (if f.negative then ['-'] else []) ++ natText f.whole ++ fractionSuffix f.fraction
    ++ exponentSuffix f.exponent

/-- `sql_literal`, the constant that a value is written as. -/
def sqlLiteral : KeyValue → Text
  | .none => "NULL".toList
  | .bool b => if b then "1".toList else "0".toList
  | .int n => intText n
  | .float f => f.repr
  | .str s => "'".toList ++ replace "'".toList "''".toList s ++ "'".toList

/-! ### Identifiers -/

/-- How the databases quote identifiers. -/
inductive IdentifierStyle where
  | backtick
  | doubleQuoteUpper

/-- The style of a database. -/
def identifierStyle : DbType → IdentifierStyle
  | .mysql => .backtick
  | _ => .doubleQuoteUpper

/-- Whether a character may stand in an identifier. -/
def isIdentifierChar (c : Char) : Bool := c.isAlphanum || "_.$-".toList.contains c

/-- `quote_identifier`, part by part; nothing for an identifier that is not valid. -/
def quoteIdentifier (dbType : DbType) (identifier : Text) : Option Text :=
  if identifier = [] ∨ identifier.all isIdentifierChar = false then none
  else
    match identifierStyle dbType with
    | .backtick =>
        some (join ".".toList ((identifier.splitOn '.').map (fun part =>
          '`' :: replace ['`'] ['`', '`'] part ++ ['`'])))
    | .doubleQuoteUpper =>
        some (join ".".toList ((identifier.splitOn '.').map (fun part =>
          '"' :: (replace ['"'] ['"', '"'] part).map Char.toUpper ++ ['"'])))

/-! ### Statements -/

/-- What is compared: a table, a query, or data that is in no database. -/
structure CompareDataRef where
  kind : Option Text
  sql : Option Text
  schemaName : Option Text
  tableName : Option Text

/-- `compare_side_expression`, what the rows are selected from. -/
def compareSideExpression (dbType : DbType) (ref : CompareDataRef) : Option Text :=
  let kind := if ref.kind.getD [] = [] then "table".toList else ref.kind.getD []
  if kind = "file".toList ∨ kind = "result_snapshot".toList then none
  else if kind = "sql".toList then
    let sql := strip (ref.sql.getD [])
    if sql = [] then none else some ("(".toList ++ sql ++ ") DATAOPS_DIFF".toList)
  else
    let table := ref.tableName.getD []
    if table = [] then none
    else
      let schema := ref.schemaName.getD []
      quoteIdentifier dbType (if schema = [] then table else schema ++ ".".toList ++ table)

/-- The keys of some rows: a value for every key column. -/
structure Keys where
  columns : List Text
  rows : List (List KeyValue)
  width : ∀ row ∈ rows, row.length = columns.length

/-- A statement: what it selects from, and its condition. -/
structure Select where
  expr : Text
  condition : Text

/-- The text of a statement. -/
def Select.text (select : Select) : Text :=
  "SELECT * FROM ".toList ++ select.expr ++ " WHERE ".toList ++ select.condition

/-- Constants in parentheses. -/
def tupleText (row : List KeyValue) : Text :=
  "(".toList ++ join ", ".toList (row.map sqlLiteral) ++ ")".toList

/-- The condition: one column and its values, or several and their tuples. -/
def whereIn (quotedCols : List Text) (pkRows : List (List KeyValue)) : Text :=
  match quotedCols with
  | [col] =>
      col ++ " IN (".toList
        ++ join ", ".toList (pkRows.map (fun row => sqlLiteral (row.headD .none))) ++ ")".toList
  | _ =>
      "(".toList ++ join ", ".toList quotedCols ++ ") IN (".toList
        ++ join ", ".toList (pkRows.map tupleText) ++ ")".toList

/-- `build_diff_row_select`. -/
def buildDiffRowSelect (dbType : DbType) (ref : CompareDataRef) (keys : Keys) : Option Select := do
  let expr ← compareSideExpression dbType ref
  if keys.columns = [] ∨ keys.rows = [] then none
  else
    let quotedCols ← keys.columns.mapM (quoteIdentifier dbType)
    some ⟨expr, whereIn quotedCols keys.rows⟩

/-- `render_upstream_sql`. -/
def renderUpstreamSql (dbType : DbType) (table : Text) (keys : Keys) : Option Select := do
  if keys.columns = [] ∨ keys.rows = [] then none
  else
    let quotedTable ← quoteIdentifier dbType table
    let quotedCols ← keys.columns.mapM (quoteIdentifier dbType)
    some ⟨quotedTable, whereIn quotedCols keys.rows⟩

/-! ### How a database reads constants -/

/-- A value of a database. -/
inductive SqlValue where
  | null
  | number (q : ℚ)
  | text (s : Text)
deriving DecidableEq

/-- Whether the empty character string is a missing value. -/
def emptyIsNull : DbType → Bool
  | .oracle => true
  | .oceanbaseOracle => true
  | _ => false

/-- What a character after a backslash stands for; a backslash in front of a wildcard stays. -/
def escaped (c : Char) : Text :=
  if c = '%' ∨ c = '_' then ['\\', c]
  else if c = '0' then ['\x00']
  else if c = 'b' then ['\x08']
  else if c = 'n' then ['\n']
  else if c = 'r' then ['\r']
  else if c = 't' then ['\t']
  else if c = 'Z' then ['\x1a']
  else [c]

/-- Reads a character string up to the quote that closes it: its value, and what is left. -/
def readBody (escapes : Bool) : Text → Option (Text × Text)
  | [] => none
  | [c] => if c = '\'' then some ([], []) else none
  | c :: d :: s =>
      if c = '\'' then
        if d = '\'' then (readBody escapes s).map (fun (value, rest) => ('\'' :: value, rest))
        else some ([], d :: s)
      else if escapes = true ∧ c = '\\' then
        (readBody escapes s).map (fun (value, rest) => (escaped d ++ value, rest))
      else (readBody escapes (d :: s)).map (fun (value, rest) => (c :: value, rest))

/-- Reads the exponent of a number. -/
def readExponent : Text → ℤ × Text
  | e :: sign :: s =>
      if (e = 'e' ∨ e = 'E') ∧ (sign = '+' ∨ sign = '-') ∧ s.takeWhile Char.isDigit ≠ [] then
        ((if sign = '-' then -1 else 1) * digitsValue (s.takeWhile Char.isDigit),
          s.dropWhile Char.isDigit)
      else (0, e :: sign :: s)
  | s => (0, s)

/-- Reads the fraction of a number. -/
def readFraction : Text → Text × Text
  | '.' :: s => (s.takeWhile Char.isDigit, s.dropWhile Char.isDigit)
  | s => ([], s)

/-- Reads a number without a sign. -/
def readNumber (s : Text) : Option (ℚ × Text) :=
  let whole := s.takeWhile Char.isDigit
  if whole = [] then none
  else
    let (fraction, rest) := readFraction (s.dropWhile Char.isDigit)
    let (exponent, rest) := readExponent rest
    some ((digitsValue whole + digitsValue fraction / 10 ^ fraction.length) * 10 ^ exponent, rest)

/-- Reads a constant: its value, and what is left. -/
def readLiteral (dbType : DbType) : Text → Option (SqlValue × Text)
  | '\'' :: s =>
      (readBody dbType.lexis.backslashEscapes s).map (fun (value, rest) =>
        (if value = [] ∧ emptyIsNull dbType = true then .null else .text value, rest))
  | '-' :: s => (readNumber s).map (fun (q, rest) => (.number (-q), rest))
  | 'N' :: 'U' :: 'L' :: 'L' :: s => some (.null, s)
  | s => (readNumber s).map (fun (q, rest) => (.number q, rest))

/-- Reads a list up to the parenthesis that closes it. -/
def readList {α : Type} (item : Text → Option (α × Text)) : ℕ → Text → Option (List α × Text)
  | 0, _ => none
  | fuel + 1, s =>
      match item s with
      | none => none
      | some (a, ')' :: rest) => some ([a], rest)
      | some (a, ',' :: ' ' :: rest) =>
          (readList item fuel rest).map (fun (items, rest) => (a :: items, rest))
      | some _ => none

/-- Reads constants in parentheses. -/
def readTuple (dbType : DbType) : Text → Option (List SqlValue × Text)
  | '(' :: s => readList (readLiteral dbType) s.length s
  | _ => none

/-- Reads the text of a column. -/
def readColumn (s : Text) : Option (Text × Text) :=
  some (s.span (fun c => !" ,()".toList.contains c))

/-- Takes a text off the front of another. -/
def dropFront? : Text → Text → Option Text
  | [], s => some s
  | _ :: _, [] => none
  | c :: front, d :: s => if c = d then dropFront? front s else none

/-- A condition: the columns, and the tuples that they are compared with. -/
structure Condition where
  columns : List Text
  tuples : List (List SqlValue)

/-- Reads a condition. -/
def readCondition (dbType : DbType) : Text → Option Condition
  | '(' :: s => do
      let (columns, rest) ← readList readColumn s.length s
      let rest ← dropFront? " IN (".toList rest
      let (tuples, rest) ← readList (readTuple dbType) rest.length rest
      if rest = [] then some ⟨columns, tuples⟩ else none
  | s => do
      let (column, rest) ← readColumn s
      let rest ← dropFront? " IN (".toList rest
      let (values, rest) ← readList (readLiteral dbType) rest.length rest
      if rest = [] then some ⟨[column], values.map (fun value => [value])⟩ else none

/-! ### Three-valued logic -/

/-- Whether values are the same; this is not known when one is missing. -/
def SqlValue.eq3 : SqlValue → SqlValue → Option Bool
  | .null, _ => none
  | _, .null => none
  | v, w => some (decide (v = w))

/-- Conjunction. -/
def and3 : Option Bool → Option Bool → Option Bool
  | some false, _ => some false
  | _, some false => some false
  | some true, some true => some true
  | _, _ => none

/-- Disjunction. -/
def or3 : Option Bool → Option Bool → Option Bool
  | some true, _ => some true
  | _, some true => some true
  | some false, some false => some false
  | _, _ => none

/-- Whether tuples are the same. -/
def tuplesEq3 : List SqlValue → List SqlValue → Option Bool
  | [], [] => some true
  | v :: row, w :: tuple => and3 (v.eq3 w) (tuplesEq3 row tuple)
  | _, _ => some false

/-- Whether a tuple is in a list. -/
def in3 (row : List SqlValue) (tuples : List (List SqlValue)) : Option Bool :=
  tuples.foldr (fun tuple found => or3 (tuplesEq3 row tuple) found) (some false)

/-- A condition on some columns selects a row that has these values there. -/
def Selects (dbType : DbType) (quotedCols : List Text) (condition : Text) (row : List SqlValue) :
    Prop :=
  ∃ tuples, readCondition dbType condition = some ⟨quotedCols, tuples⟩ ∧ in3 row tuples = some true

end Locate

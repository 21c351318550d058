import DataOpsStudio.Compare.Value

/-!
# Cells of exported results

A result is exported as rows of cells under the names of its columns.  Every row is brought to the
width of the first one, or of the columns when these are more.
-/

namespace Export

open Text Compare

/-- A cell of a result: a value, a float that is not finite, bytes, or any other object, of which
its text is known. -/
inductive Cell where
  | value (v : PyValue)
  | nan
  | infinite (negative : Bool)
  | bytes (data : List UInt8)
  | other (text : Text)
deriving DecidableEq

namespace Cell

/-- The cell that stands for a missing value. -/
abbrev none : Cell := .value .none

/-- A text cell. -/
abbrev str (s : Text) : Cell := .value (.str s)

/-- Values compare as they do in rows, and `nan` is not equal to itself. -/
def equal : Cell → Cell → Bool
  | .value v, .value w => v == w
  | .nan, .nan => false
  | a, b => decide (a = b)

instance : BEq Cell := ⟨equal⟩

end Cell

/-! ### Texts of cells -/

/-- The bytes in hexadecimal. -/
def hexBytes (data : List UInt8) : Text := data.flatMap (fun b => hexText 2 b.toNat)

/-- The text of a byte between quotes. -/
def reprByte (quote : Char) (b : UInt8) : Text :=
  let c := Char.ofNat b.toNat
  if c = '\\' ∨ c = quote then ['\\', c]
  else if c = '\t' then "\\t".toList
  else if c = '\n' then "\\n".toList
  else if c = '\r' then "\\r".toList
  else if b.toNat < 32 ∨ 127 ≤ b.toNat then '\\' :: 'x' :: hexText 2 b.toNat
  else [c]

/-- The text of bytes. -/
def reprBytes (data : List UInt8) : Text :=
  let single := data.any (fun b => b.toNat == 39)
  let double := data.any (fun b => b.toNat == 34)
  let quote := if single && !double then '"' else '\''
  'b' :: quote :: data.flatMap (reprByte quote) ++ [quote]

/-- The text of a float that is not finite. -/
def infiniteText (negative : Bool) : Text := if negative then "-inf".toList else "inf".toList

/-- The text of a cell as any object has one. -/
def Cell.text : Cell → Text
  | .value v => v.text
  | .nan => "nan".toList
  | .infinite negative => infiniteText negative
  | .bytes data => reprBytes data
  | .other text => text

/-- The text of a date or a time in the standard format. -/
def isoformat? : PyValue → Option Text
  | .date d => some d.isoformat
  | .time t => some t.isoformat
  | .datetime d t => some (d.isoformat ++ 'T' :: t.isoformat)
  | _ => none

/-- The text of a cell in a file. -/
def textValue : Cell → Text
  | .value v => (isoformat? v).getD v.text
  | .bytes data => hexBytes data
  | cell => cell.text

/-- The object that a cell is in JSON. -/
def jsonValue : Cell → Cell
  | .value v =>
      match v with
      | .none | .str _ | .int _ | .float _ _ | .bool _ => .value v
      | _ => .str ((isoformat? v).getD v.text)
  | .nan => .nan
  | .infinite negative => .infinite negative
  | .bytes data => .str (hexBytes data)
  | .other text => .str text

/-! ### Columns and rows -/

/-- The names of the columns, with as many more as the first row is wider. -/
def prepareColumns (columns : List Text) (rows : List (List Cell)) : List Text :=
  let width := max (max columns.length ((rows.head?.map List.length).getD 0)) 1
  columns ++ (List.range' columns.length (width - columns.length)).map
    (fun index => "column_".toList ++ natText (index + 1))

/-- A row, cut or filled up to a width. -/
def paddedValues (row : List Cell) (width : ℕ) : List Cell :=
  row.take width ++ List.replicate (width - row.length) Cell.none

@[simp] theorem length_paddedValues (row : List Cell) (width : ℕ) :
  (paddedValues row width).length = width
  := by
  rw [paddedValues, List.length_append, List.length_take, List.length_replicate]
  omega

/-- A row of the right width stays as it is. -/
theorem paddedValues_of_length {row : List Cell} {width : ℕ} (h : row.length = width) :
  paddedValues row width = row
  := by
  subst h
  rw [paddedValues, List.take_length, Nat.sub_self, List.replicate_zero, List.append_nil]

theorem length_le_length_prepareColumns (columns : List Text) (rows : List (List Cell)) :
  columns.length ≤ (prepareColumns columns rows).length
  := by
  rw [prepareColumns, List.length_append]
  omega

end Export

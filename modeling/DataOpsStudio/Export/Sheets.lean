import DataOpsStudio.Compare.Normalize
import DataOpsStudio.Export.Cells

/-!
# Texts that are no formulas

Spreadsheets take a text for a formula when it begins with one of four signs.  An apostrophe is put
in front of such texts: in a workbook in front of the text of any cell, in a CSV file only in front
of the texts among the values.  The names of the columns and the texts of other objects go to a CSV
file as they are.
-/

namespace Export

open Text Compare

/-! ### Formulas -/

/-- The signs that formulas begin with. -/
def formulaPrefixes : List Char := ['=', '+', '-', '@']

/-- Whether a spreadsheet takes a text for a formula. -/
def startsFormula (s : Text) : Bool := s.head?.any (fun c => formulaPrefixes.contains c)

/-- A text with an apostrophe in front, if it would be taken for a formula. -/
def sanitizeFormulaText (s : Text) : Text := if startsFormula s then '\'' :: s else s

@[simp] theorem startsFormula_sanitizeFormulaText (s : Text) :
  startsFormula (sanitizeFormulaText s) = false
  := by
  rw [sanitizeFormulaText]
  split
  · rfl
  · rename_i h
    exact Bool.eq_false_iff.mpr h

/-! ### CSV files -/

/-- The object that is handed to the writer of CSV files for a cell. -/
def csvValue : Cell → Cell
  | .value (.str s) => .str (sanitizeFormulaText s)
  | cell => cell

/-- The field that the writer of CSV files writes for an object. -/
def csvField : Cell → Text
  | .value .none => []
  | cell => cell.text

/-- The objects that are handed to the writer of CSV files, line by line. -/
def writeCsv (columns : List Text) (rows : List (List Cell)) : List (List Cell) :=
  columns.map Cell.str :: rows.map (fun row => (paddedValues row columns.length).map csvValue)

/-! ### Workbooks -/

/-- What a cell of a workbook holds. -/
inductive XlsxContent where
  | empty
  | boolean (b : Bool)
  | number (text : Text)
  | inlineStr (text : Text)
deriving DecidableEq

/-- What a cell holds in a workbook.  An integer that is out of the range of floats raises. -/
def xlsxContent : Cell → Option XlsxContent
  | .value .none => some .empty
  | .value (.bool b) => some (.boolean b)
  | .value (.int n) =>
      if overflowsDouble (roundDouble n) then none else some (.number (intText n))
  | .value (.float _ text) => some (.number text)
  | cell => some (.inlineStr (sanitizeFormulaText (textValue cell)))

/-- A cell of a workbook. -/
structure XlsxCell where
  style : Option ℕ
  content : XlsxContent
deriving DecidableEq

/-- What chooses the style of a cell, from the name of the sheet, the number of the row and the
column, and the values of the row. -/
abbrev CellStyleResolver := Text → ℕ → ℕ → List Cell → Option ℕ

/-- The styles of the cells of a row. -/
def rowStyles (resolver : Option CellStyleResolver) (sheetName : Text) (rowNumber : ℕ)
    (values : List Cell) : List (Option ℕ) :=
  (List.range' 1 values.length).map
    (fun index => resolver.bind (fun style => style sheetName rowNumber index values))

/-- The cells of a row of a workbook. -/
def writeXlsxRow (resolver : Option CellStyleResolver) (sheetName : Text) (rowNumber : ℕ)
    (values : List Cell) : Option (List XlsxCell) :=
  (values.mapM xlsxContent).map
    (fun contents => (rowStyles resolver sheetName rowNumber values).zipWith XlsxCell.mk contents)

/-- The rows of a sheet of a workbook, under the names of the columns. -/
def writeXlsxSheet (resolver : Option CellStyleResolver) (sheetName : Text) (columns : List Text)
    (rows : List (List Cell)) : Option (List (List XlsxCell)) :=
  (writeXlsxRow resolver sheetName 1 (columns.map Cell.str)).bind (fun header =>
    ((rows.zipIdx 2).mapM (fun p =>
      writeXlsxRow resolver sheetName p.2 (paddedValues p.1 columns.length))).map
        (fun body => header :: body))

/-! ### Which texts are sanitized -/

/-- Whether a cell is a text for a spreadsheet, and not empty, a boolean or a number. -/
def Cell.isText : Cell → Bool
  | .value .none | .value (.bool _) | .value (.int _) | .value (.float _ _)
  | .value (.decimal _) => false
  | _ => true

/-- Whether the text of an object, other than a text, would be taken for a formula. -/
def Cell.leaksFormula : Cell → Bool
  | .infinite negative => negative
  | .other text => startsFormula text
  | _ => false

theorem startsFormula_of_isDigit {c : Char} {s : Text} (h : c.isDigit = true) :
  startsFormula (c :: s) = false
  := by
  rw [startsFormula, List.head?_cons, Option.any_some, Bool.eq_false_iff]
  intro hmem
  simp only [formulaPrefixes, List.contains_eq_mem, List.mem_cons, List.not_mem_nil, or_false,
    decide_eq_true_eq] at hmem
  rcases hmem with rfl | rfl | rfl | rfl
  all_goals cases h

theorem startsFormula_zeroPad (width n : ℕ) (s : Text) :
  startsFormula (zeroPad width n ++ s) = false
  := by
  have hdigits : ∀ c ∈ zeroPad width n, c.isDigit = true := by
    intro c hc
    rw [zeroPad, List.mem_append, List.mem_replicate] at hc
    rcases hc with ⟨-, rfl⟩ | hc
    · rfl
    · exact isDigit_of_mem_natText hc
  cases hpad : zeroPad width n with
  | nil =>
      have hnil := List.append_eq_nil_iff.mp hpad
      exact absurd hnil.2 (natText_ne_nil n)
  | cons c t => exact startsFormula_of_isDigit (hdigits c (by rw [hpad]; exact List.mem_cons_self))

theorem startsFormula_date (d : PyDate) (s : Text) :
  startsFormula (d.isoformat ++ s) = false
  := by
  rw [PyDate.isoformat, List.append_assoc, List.append_assoc]
  exact startsFormula_zeroPad 4 d.year _

theorem startsFormula_time (t : PyTime) :
  startsFormula t.isoformat = false
  := by
  rw [PyTime.isoformat, PyTime.seconds]
  split
  · rw [List.append_assoc]
    exact startsFormula_zeroPad 2 t.hour _
  · rw [List.append_assoc, List.append_assoc]
    exact startsFormula_zeroPad 2 t.hour _

/-- The field of a text cell in a CSV file is a formula only when it is the text of an object that
is no text. -/
theorem startsFormula_csvField {cell : Cell} (h : cell.isText = true) :
  startsFormula (csvField (csvValue cell)) = cell.leaksFormula
  := by
  cases cell with
  | value v =>
      cases v with
      | none | bool | int | float | decimal => cases h
      | str s => exact startsFormula_sanitizeFormulaText s
      | date d =>
          have hdate := startsFormula_date d []
          rw [List.append_nil] at hdate
          exact hdate
      | time t => exact startsFormula_time t
      | datetime d t => exact startsFormula_date d _
  | nan => rfl
  | infinite negative =>
      cases negative with
      | true => rfl
      | false => rfl
  | bytes data => rfl
  | other text => rfl

theorem startsFormula_of_xlsxContent {cell : Cell} {text : Text}
    (h : xlsxContent cell = some (.inlineStr text)) :
  startsFormula text = false
  := by
  have hsanitized : ∀ s, some (XlsxContent.inlineStr (sanitizeFormulaText s))
      = some (.inlineStr text) → startsFormula text = false := by
    intro s heq
    rw [← XlsxContent.inlineStr.inj (Option.some.inj heq)]
    exact startsFormula_sanitizeFormulaText s
  cases cell with
  | value v =>
      cases v with
      | none | bool | float => cases h
      | int n =>
          rw [xlsxContent] at h
          split at h
          · cases h
          · cases h
      | decimal | str | date | time | datetime => exact hsanitized _ h
  | nan | infinite | bytes | other => exact hsanitized _ h

/-! ### Files without formulas -/

/-- What is computed of the elements of a list is computed of one of them. -/
theorem exists_of_mem_mapM {α β : Type} {f : α → Option β} {l : List α} {l' : List β}
    (h : l.mapM f = some l') {b : β} (hb : b ∈ l') :
  ∃ a ∈ l, f a = some b
  := by
  induction l generalizing l' with
  | nil =>
      cases h
      cases hb
  | cons a l ih =>
      rw [List.mapM_cons] at h
      obtain ⟨b', hfirst, h⟩ := Option.bind_eq_some_iff.mp h
      obtain ⟨rest, hrest, h⟩ := Option.bind_eq_some_iff.mp h
      cases h
      rcases List.mem_cons.mp hb with rfl | hb
      · exact ⟨a, List.mem_cons_self, hfirst⟩
      · obtain ⟨a', ha', hf⟩ := ih hrest hb
        exact ⟨a', List.mem_cons_of_mem a ha', hf⟩

/-- No text of a row of a workbook is a formula. -/
theorem startsFormula_of_writeXlsxRow {resolver : Option CellStyleResolver} {sheetName : Text}
    {rowNumber : ℕ} {values : List Cell} {cells : List XlsxCell}
    (h : writeXlsxRow resolver sheetName rowNumber values = some cells) {cell : XlsxCell}
    (hcell : cell ∈ cells) {text : Text} (htext : cell.content = .inlineStr text) :
  startsFormula text = false
  := by
  obtain ⟨contents, hcontents, rfl⟩ := Option.map_eq_some_iff.mp h
  rw [← List.map_uncurry_zip_eq_zipWith] at hcell
  obtain ⟨⟨style, content⟩, hpair, rfl⟩ := List.mem_map.mp hcell
  obtain ⟨value, -, hvalue⟩ := exists_of_mem_mapM hcontents (List.of_mem_zip hpair).2
  have hinline : xlsxContent value = some (.inlineStr text) := hvalue.trans (congrArg some htext)
  exact startsFormula_of_xlsxContent hinline

theorem startsFormula_of_writeXlsxSheet {resolver : Option CellStyleResolver} {sheetName : Text}
    {columns : List Text} {rows : List (List Cell)} {sheet : List (List XlsxCell)}
    (h : writeXlsxSheet resolver sheetName columns rows = some sheet) {line : List XlsxCell}
    (hline : line ∈ sheet) {cell : XlsxCell} (hcell : cell ∈ line) {text : Text}
    (htext : cell.content = .inlineStr text) :
  startsFormula text = false
  := by
  obtain ⟨header, hheader, h⟩ := Option.bind_eq_some_iff.mp h
  obtain ⟨body, hbody, rfl⟩ := Option.map_eq_some_iff.mp h
  rcases List.mem_cons.mp hline with rfl | hline
  · exact startsFormula_of_writeXlsxRow hheader hcell htext
  · obtain ⟨row, -, hrow⟩ := exists_of_mem_mapM hbody hline
    exact startsFormula_of_writeXlsxRow hrow hcell htext

/-- No text cell of the files that a result is exported to is a formula. -/
structure FormulaFree (columns : List Text) (rows : List (List Cell)) : Prop where
  csv : ∀ line ∈ writeCsv (prepareColumns columns rows) rows, ∀ cell ∈ line, cell.isText = true →
    startsFormula (csvField cell) = false
  xlsx : ∀ resolver sheetName sheet,
    writeXlsxSheet resolver sheetName (prepareColumns columns rows) rows = some sheet →
    ∀ line ∈ sheet, ∀ cell ∈ line, ∀ text, cell.content = .inlineStr text →
      startsFormula text = false

/-- No column has a name that is a formula, and no cell that is written holds an object, other than
a text, whose text is one. -/
def FormulasHidden (columns : List Text) (rows : List (List Cell)) : Prop :=
  (∀ name ∈ columns, startsFormula name = false)
    ∧ ∀ row ∈ rows, ∀ cell ∈ row.take (prepareColumns columns rows).length,
      cell.leaksFormula = false

theorem isText_csvValue (cell : Cell) :
  (csvValue cell).isText = cell.isText
  := by
  cases cell with
  | value v =>
      cases v with
      | none | bool | int | float | decimal | str | date | time | datetime => rfl
  | nan | infinite | bytes | other => rfl

theorem isText_of_leaksFormula {cell : Cell} (h : cell.leaksFormula = true) :
  cell.isText = true
  := by
  cases cell with
  | value v => cases h
  | nan | infinite | bytes | other => rfl

end Export

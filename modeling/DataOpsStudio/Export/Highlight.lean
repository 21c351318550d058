import DataOpsStudio.Export.Sheets
import DataOpsStudio.Library.Dict

/-!
# Cells that are highlighted

In the rows of a comparison that differ, each value column has two cells, the source and the target,
behind the cells of the keys.  A workbook highlights the pairs that differ.  How many cells are keys
is guessed from the number of cells: one or two, so that an even number is left.
-/

namespace Export

open Text

/-! ### Rows of a comparison -/

/-- A value that has been read from JSON: a cell, or an array or object of which the compact text is
known. -/
inductive JsonValue where
  | scalar (cell : Cell)
  | nested (text : Text)

/-- The cell that a value is exported as. -/
def exportScalar : JsonValue → Cell
  | .scalar cell => cell
  | .nested text => .str text

/-- The cell of a column on one side. -/
def sideCell (side : Dict Text JsonValue) (name : Text) : Cell :=
  ((side.get? name).map exportScalar).getD Cell.none

/-- A row of a comparison: its key, and the values of either side. -/
structure Decoded where
  pk : Dict Text JsonValue
  source : Dict Text JsonValue
  target : Dict Text JsonValue

/-- The kinds of rows. -/
inductive Bucket where
  | onlySource
  | onlyTarget
  | diff
  | same
deriving DecidableEq

/-- The names of the cells of rows of a kind. -/
def compareExportColumns (bucket : Bucket) (keyColumns valueColumns : List Text) : List Text :=
  keyColumns ++
    match bucket with
    | .diff => valueColumns.flatMap (fun name => [name ++ " (source)".toList,
        name ++ " (target)".toList])
    | _ => valueColumns

/-- The cells of a row. -/
def compareExportRow (bucket : Bucket) (decoded : Decoded) (keyColumns valueColumns : List Text) :
    List Cell :=
  keyColumns.map (sideCell decoded.pk) ++
    match bucket with
    | .diff => valueColumns.flatMap
        (fun name => [sideCell decoded.source name, sideCell decoded.target name])
    | .onlyTarget => valueColumns.map (sideCell decoded.target)
    | _ => valueColumns.map
        (sideCell (if decoded.source.items.isEmpty then decoded.target else decoded.source))

/-! ### Styles -/

/-- The number of cells of a row that are taken for keys. -/
def compareDiffKeyWidth (values : List Cell) : ℕ :=
  ((List.range' 1 values.length).find?
    (fun width => decide (0 < values.length - width ∧ (values.length - width) % 2 = 0))).getD 0

/-- The style of a cell in a sheet of a comparison. -/
def compareCellStyle : CellStyleResolver := fun sheetName rowNumber columnIndex values =>
  if rowNumber ≤ 1 then none
  else if sheetName = "only_source".toList then some 1
  else if sheetName = "only_target".toList then some 2
  else if sheetName ≠ "diff".toList then none
  else
    let keyWidth := compareDiffKeyWidth values
    if columnIndex ≤ keyWidth then none
    else
      let relative := columnIndex - keyWidth - 1
      let pairStart := keyWidth + relative / 2 * 2
      match values[pairStart]?, values[pairStart + 1]? with
      | some source, some target => if source != target then some 3 else none
      | _, _ => none

/-- The style of the two cells of a pair. -/
def pairStyle (source target : Cell) : Option ℕ := if source != target then some 3 else none

/-! ### The styles of a row -/

/-- The styles of cells of which the first two are a pair, the next two, and so on. -/
def pairStyles : List Cell → List (Option ℕ)
  | a :: b :: rest => pairStyle a b :: pairStyle a b :: pairStyles rest
  | [_] => [none]
  | [] => []

theorem getElem?_pairStyles (values : List Cell) (index : ℕ) (h : index < values.length) :
  (pairStyles values)[index]? = some
    (match values[index / 2 * 2]?, values[index / 2 * 2 + 1]? with
      | some source, some target => if source != target then some 3 else none
      | _, _ => none)
  := by
  induction values using pairStyles.induct generalizing index with
  | case1 a b rest ih =>
      match index with
      | 0 => rfl
      | 1 => rfl
      | index + 2 =>
          have hhalf : (index + 2) / 2 * 2 = index / 2 * 2 + 2 := by omega
          rw [pairStyles, List.getElem?_cons_succ, List.getElem?_cons_succ, hhalf]
          exact ih index (by simpa using h)
  | case2 a =>
      obtain rfl : index = 0 := by simpa using h
      rfl
  | case3 => exact absurd h (Nat.not_lt_zero index)

/-- The number of cells that are taken for keys. -/
def guessedWidth (count : ℕ) : ℕ := if count ≤ 2 then 0 else if count % 2 = 1 then 1 else 2

theorem compareDiffKeyWidth_eq (values : List Cell) :
  compareDiffKeyWidth values = guessedWidth values.length
  := by
  rw [compareDiffKeyWidth, guessedWidth]
  generalize values.length = count
  match count with
  | 0 => rfl
  | 1 => rfl
  | 2 => rfl
  | count + 3 =>
      rw [if_neg (by omega), List.range'_succ, List.range'_succ]
      by_cases hodd : (count + 3) % 2 = 1
      · rw [if_pos hodd, List.find?_cons_of_pos]
        · rfl
        · rw [decide_eq_true_eq]
          omega
      · rw [if_neg hodd, List.find?_cons_of_neg, List.find?_cons_of_pos]
        · rfl
        · rw [decide_eq_true_eq]
          omega
        · rw [decide_eq_true_eq]
          omega

@[simp] theorem length_pairStyles (values : List Cell) :
  (pairStyles values).length = values.length
  := by
  induction values using pairStyles.induct with
  | case1 a b rest ih => rw [pairStyles, List.length_cons, List.length_cons, ih]; rfl
  | case2 a => rfl
  | case3 => rfl

theorem guessedWidth_le (count : ℕ) :
  guessedWidth count ≤ count
  := by
  rw [guessedWidth]
  split
  · omega
  · split
    · omega
    · omega

/-- In a row of the sheet of differences the cells behind the keys are styled in pairs. -/
theorem rowStyles_diff (number : ℕ) (values : List Cell) :
  rowStyles (some compareCellStyle) "diff".toList (number + 2) values
    = List.replicate (guessedWidth values.length) none
      ++ pairStyles (values.drop (guessedWidth values.length))
  := by
  have hle := guessedWidth_le values.length
  apply List.ext_getElem?
  intro index
  by_cases hindex : index < values.length
  · have hstyle : (rowStyles (some compareCellStyle) "diff".toList (number + 2) values)[index]?
        = some (compareCellStyle "diff".toList (number + 2) (index + 1) values) := by
      rw [rowStyles, List.getElem?_map, List.getElem?_range' hindex, Nat.one_mul,
        Nat.add_comm 1 index]
      rfl
    have hsheet : compareCellStyle "diff".toList (number + 2) (index + 1) values
        = if index + 1 ≤ guessedWidth values.length then none
          else
            match values[guessedWidth values.length
                + (index + 1 - guessedWidth values.length - 1) / 2 * 2]?,
              values[guessedWidth values.length
                + (index + 1 - guessedWidth values.length - 1) / 2 * 2 + 1]? with
            | some source, some target => if source != target then some 3 else none
            | _, _ => none := by
      rw [← compareDiffKeyWidth_eq, compareCellStyle, if_neg (by omega), if_neg (by decide),
        if_neg (by decide), if_neg (by decide)]
    rw [hstyle, hsheet]
    by_cases hkey : index < guessedWidth values.length
    · rw [if_pos (by omega), List.getElem?_append_left (by simpa using hkey),
        List.getElem?_replicate_of_lt hkey]
    · rw [if_neg (by omega), List.getElem?_append_right (by simpa using hkey),
        List.length_replicate, getElem?_pairStyles _ _ (by rw [List.length_drop]; omega)]
      have hrelative : index + 1 - guessedWidth values.length - 1
          = index - guessedWidth values.length := by omega
      simp only [List.getElem?_drop, hrelative, Nat.add_assoc]
  · rw [List.getElem?_eq_none (by rw [rowStyles, List.length_map, List.length_range']; omega),
      List.getElem?_eq_none]
    rw [List.length_append, List.length_replicate, length_pairStyles, List.length_drop]
    omega

/-! ### Pairs of keys -/

/-- Of some cells the first two are equal, the next two, and so on. -/
def PairedEqual : List Cell → Prop
  | a :: b :: rest => (a != b) = false ∧ PairedEqual rest
  | _ => True

theorem pairStyle_eq_none_iff {a b : Cell} :
  pairStyle a b = none ↔ (a != b) = false
  := by
  rw [pairStyle]
  cases a != b with
  | true => simp
  | false => simp

theorem pairStyles_eq_replicate_iff (values : List Cell) :
  pairStyles values = List.replicate values.length none ↔ PairedEqual values
  := by
  induction values using pairStyles.induct with
  | case1 a b rest ih =>
      rw [pairStyles, PairedEqual, List.length_cons, List.length_cons, List.replicate_succ,
        List.replicate_succ, List.cons.injEq, List.cons.injEq, ih, pairStyle_eq_none_iff]
      exact ⟨fun h => h.2, fun h => ⟨h.1, h⟩⟩
  | case2 a => exact iff_of_true rfl trivial
  | case3 => exact iff_of_true rfl trivial

theorem pairStyles_append {u : List Cell} (v : List Cell) (h : u.length % 2 = 0) :
  pairStyles (u ++ v) = pairStyles u ++ pairStyles v
  := by
  induction u using pairStyles.induct with
  | case1 a b rest ih =>
      simp only [List.length_cons] at h
      rw [List.cons_append, List.cons_append, pairStyles, pairStyles, ih (by omega),
        List.cons_append, List.cons_append]
  | case2 a => cases h
  | case3 => rfl

theorem pairStyles_flatMap (names : List Text) (source target : Text → Cell) :
  pairStyles (names.flatMap (fun name => [source name, target name]))
    = names.flatMap (fun name =>
        [pairStyle (source name) (target name), pairStyle (source name) (target name)])
  := by
  induction names with
  | nil => rfl
  | cons name names ih =>
      rw [List.flatMap_cons, List.flatMap_cons, List.cons_append, List.cons_append,
        List.nil_append, pairStyles, ih]
      rfl

/-! ### Exactly the pairs that differ -/

section Row

variable (decoded : Decoded) (keyColumns valueColumns : List Text)

/-- The cells of the value columns in the sheet of differences. -/
def pairCells : List Cell :=
  valueColumns.flatMap (fun name => [sideCell decoded.source name, sideCell decoded.target name])

/-- In the sheet of differences the two cells of the value columns whose values differ are
highlighted, and no other cell. -/
def HighlightsPairs : Prop :=
  ∀ number, rowStyles (some compareCellStyle) "diff".toList (number + 2)
      (paddedValues (compareExportRow .diff decoded keyColumns valueColumns)
        (compareExportColumns .diff keyColumns valueColumns).length)
    = keyColumns.map (fun _ => none)
      ++ valueColumns.flatMap (fun name =>
        [pairStyle (sideCell decoded.source name) (sideCell decoded.target name),
          pairStyle (sideCell decoded.source name) (sideCell decoded.target name)])

/-- The cells of the keys that are not taken for keys are equal in pairs, and so are the cells of
the first value column if there are no keys and further value columns. -/
def KeysPaired : Prop :=
  let width := guessedWidth (keyColumns.length + 2 * valueColumns.length)
  PairedEqual ((keyColumns.map (sideCell decoded.pk)).drop width)
    ∧ PairedEqual ((pairCells decoded valueColumns).take (width - keyColumns.length))

theorem length_pairCells :
  (pairCells decoded valueColumns).length = 2 * valueColumns.length
  := by
  rw [pairCells, List.length_flatMap]
  simp [Nat.mul_comm]

theorem length_compareExportRow :
  (compareExportRow .diff decoded keyColumns valueColumns).length
    = keyColumns.length + 2 * valueColumns.length
  := by
  rw [compareExportRow, List.length_append, List.length_map, ← length_pairCells decoded]
  rfl

/-- A row has a cell for each name. -/
theorem length_compareExportColumns :
  (compareExportRow .diff decoded keyColumns valueColumns).length
    = (compareExportColumns .diff keyColumns valueColumns).length
  := by
  rw [length_compareExportRow, compareExportColumns, List.length_append, List.length_flatMap]
  simp [Nat.mul_comm]

/-- The pairs that differ are highlighted, and nothing else, exactly when the keys that are not
taken for keys are equal in pairs. -/
theorem highlightsPairs_iff :
  HighlightsPairs decoded keyColumns valueColumns ↔ KeysPaired decoded keyColumns valueColumns
  := by
  have hlength := length_compareExportRow decoded keyColumns valueColumns
  have hpadded := paddedValues_of_length
    (length_compareExportColumns decoded keyColumns valueColumns)
  have hcells := length_pairCells decoded valueColumns
  have hkeys : (keyColumns.map (sideCell decoded.pk)).length = keyColumns.length :=
    List.length_map _
  have hstyles := pairStyles_flatMap valueColumns (sideCell decoded.source)
    (sideCell decoded.target)
  have hnone : keyColumns.map (fun _ => (none : Option ℕ))
      = List.replicate keyColumns.length none := List.map_const' ..
  have hiff : HighlightsPairs decoded keyColumns valueColumns
      ↔ List.replicate (guessedWidth (keyColumns.length + 2 * valueColumns.length)) none
          ++ pairStyles ((keyColumns.map (sideCell decoded.pk) ++ pairCells decoded valueColumns).drop
            (guessedWidth (keyColumns.length + 2 * valueColumns.length)))
        = List.replicate keyColumns.length none ++ pairStyles (pairCells decoded valueColumns) := by
    rw [← hnone, pairCells, hstyles, ← hlength, HighlightsPairs, hpadded]
    constructor
    · intro h
      rw [← h 0, rowStyles_diff]
      rfl
    · intro h number
      rw [rowStyles_diff, ← h]
      rfl
  rw [hiff, KeysPaired]
  generalize hwidth : guessedWidth (keyColumns.length + 2 * valueColumns.length) = width
  have hparity : keyColumns.length < width ∧ keyColumns.length = 0 ∧ width = 2
        ∧ 2 ≤ valueColumns.length
      ∨ width ≤ keyColumns.length
        ∧ ((keyColumns.length - width) % 2 = 0 ∨ valueColumns.length = 0) := by
    rw [guessedWidth] at hwidth
    split at hwidth
    · omega
    · split at hwidth
      · omega
      · omega
  rcases hparity with ⟨hlt, hzero, rfl, hvalues⟩ | ⟨hle, hparity⟩
  · -- no keys: the cells of the first value column are taken for keys
    obtain rfl := List.length_eq_zero_iff.mp hzero
    have hsplit := pairStyles_append (u := (pairCells decoded valueColumns).take 2)
      ((pairCells decoded valueColumns).drop 2) (by rw [List.length_take]; omega)
    rw [List.take_append_drop] at hsplit
    simp only [List.map_nil, List.nil_append, List.length_nil, List.replicate_zero, List.drop_nil,
      Nat.sub_zero]
    have hpaired := pairStyles_eq_replicate_iff ((pairCells decoded valueColumns).take 2)
    rw [List.length_take, Nat.min_eq_left (by omega)] at hpaired
    rw [hsplit, List.append_left_inj, eq_comm, hpaired]
    exact ⟨fun h => ⟨trivial, h⟩, fun h => h.2⟩
  · have hdrop : (keyColumns.map (sideCell decoded.pk) ++ pairCells decoded valueColumns).drop width
        = (keyColumns.map (sideCell decoded.pk)).drop width ++ pairCells decoded valueColumns :=
      List.drop_append_of_le_length (by omega)
    have hsplit : pairStyles ((keyColumns.map (sideCell decoded.pk)).drop width
          ++ pairCells decoded valueColumns)
        = pairStyles ((keyColumns.map (sideCell decoded.pk)).drop width)
          ++ pairStyles (pairCells decoded valueColumns) := by
      rcases hparity with heven | hnil
      · exact pairStyles_append _ (by rw [List.length_drop, hkeys, heven])
      · have hcellsNil : pairCells decoded valueColumns = [] := by
          rw [← List.length_eq_zero_iff, hcells, hnil]
        rw [hcellsNil, List.append_nil, pairStyles, List.append_nil]
    have hkeyStyles : List.replicate keyColumns.length (none : Option ℕ)
        = List.replicate width none ++ List.replicate (keyColumns.length - width) none := by
      rw [List.replicate_append_replicate, Nat.add_sub_cancel' hle]
    rw [hdrop, hsplit, ← List.append_assoc, List.append_left_inj, hkeyStyles,
      List.append_right_inj, ← pairStyles_eq_replicate_iff, List.length_drop, hkeys,
      Nat.sub_eq_zero_of_le hle, List.take_zero]
    exact ⟨fun h => ⟨h, trivial⟩, fun h => h.1⟩

end Row

/-- A row with three keys, of which the second and the third differ, and a value that is the same on
either side. -/
def threeKeys : Decoded where
  pk := Dict.ofList
    [("a".toList, .scalar (.value (.int 1))), ("b".toList, .scalar (.value (.int 2))),
      ("c".toList, .scalar (.value (.int 3)))]
  source := Dict.ofList [("v".toList, .scalar (.str "x".toList))]
  target := Dict.ofList [("v".toList, .scalar (.str "x".toList))]

/-- The second and the third key are highlighted. -/
theorem not_highlightsPairs_threeKeys :
  ¬ HighlightsPairs threeKeys ["a".toList, "b".toList, "c".toList] ["v".toList]
  := by
  intro h
  have hrow := h 0
  revert hrow
  decide

end Export

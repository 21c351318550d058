import DataOpsStudio.Compare.Naturality

/-!
# Rows as records

Whatever a side is, a row of it gives every configured column a value, and the compared row is
computed from these values: columns that have the same name have the same value, wherever they
stand among the key columns, the shown columns and the hashed columns.
-/

namespace Compare

open Text

/-! ### The row of a record -/

namespace CompareConfig

variable (config : CompareConfig) (lib : Builtins)

/-- The identity of a record. -/
def recordIdentity (record : String → PyValue) : Except CompareError Identity :=
  normalizedCompareIdentity lib config.compareColumns
    (config.compareColumns.map (fun column => record column.name)) config.rules

/-- A record with the given identity, as it is compared. -/
def identifiedRow (record : String → PyValue) (identity : Identity) : CompareRow Cell where
  pk := config.key.map (fun column => record column.name)
  values := identity.map (fun p => Cell.normal p.1 p.2)
  rawValues := some (config.columns.map (fun column => Cell.raw (record column.name)))
  rowHash64 := some (lib.hash64 (payloadOf config.rules identity))

/-- A record as it is compared. -/
def recordRow (record : String → PyValue) : Except CompareError (CompareRow Cell) :=
  (config.recordIdentity lib record).map (config.identifiedRow lib record)

/-- The record of a row of a table, whose columns have the given names. -/
def tableRecord (name : String → String) (type : NumberType) (row : DbRow) : String → PyValue :=
  fun n => type.fetch (row (name n))

variable {config lib}

/-- A run has columns to show. -/
theorem columns_ne (config : CompareConfig) :
  config.columns ≠ []
  := by
  intro h
  apply config.compareColumns_ne
  rw [h]
  rfl

/-- Events show the values of the record. -/
theorem shown_identifiedRow (record : String → PyValue) (identity : Identity) :
  (config.identifiedRow lib record identity).shown
    = config.columns.map (fun column => Cell.raw (record column.name))
  := by
  obtain ⟨column, rest, hcolumns⟩ := List.exists_cons_of_ne_nil config.columns_ne
  rw [CompareRow.shown, identifiedRow, hcolumns]
  rfl

theorem recordRow_eq_ok {record : String → PyValue} {row : CompareRow Cell} :
  config.recordRow lib record = .ok row
    ↔ ∃ identity, config.recordIdentity lib record = .ok identity
      ∧ config.identifiedRow lib record identity = row
  := Outcome.map_eq_ok

/-! ### The rows of a side -/

/-- What is hashed of a record. -/
theorem hashed_record {indexes : List ℕ}
    (h : hashColumnSlice config.columns config.compareColumns
      = .ok (config.compareColumns, indexes))
    (record : String → PyValue) :
  indexes.map (fun index => (config.columns.map (fun column => record column.name)).getD index .none)
    = config.compareColumns.map (fun column => record column.name)
  := by
  apply hashValues_eq _ _ (hashColumnSlice_ok h)
  intro c c' hc
  rw [hc]

/-- A row a table returns is the row of its record. -/
theorem rowToCompare_eq_recordRow {name : String → String} {db : Database}
    {reader : DatabaseCompareReader} (h : config.reader lib name db = .ok reader) (row : DbRow) :
  reader.rowToCompare (reader.rowValues row)
    = config.recordRow lib (tableRecord name db.integersAs row)
  := by
  obtain ⟨indexes, hslice, rfl⟩ := DatabaseCompareReader.init_ok h
  have hvalues : ((config.key.map (fun column => name column.name)
        ++ config.columns.map (fun column => name column.name)).map
          (fun n => db.integersAs.fetch (row n)))
      = config.key.map (fun column => tableRecord name db.integersAs row column.name)
        ++ config.columns.map (fun column => tableRecord name db.integersAs row column.name) := by
    rw [List.map_append, List.map_map, List.map_map]
    rfl
  rw [DatabaseCompareReader.rowToCompare_eq ⟨by simp, by simp⟩, DatabaseCompareReader.rowIdentity,
    recordRow, recordIdentity]
  simp only [DatabaseCompareReader.rowValues, DatabaseCompareReader.hashValues, hvalues,
    List.drop_left' (List.length_map _), hashed_record hslice]
  congr 1
  funext identity
  simp only [DatabaseCompareReader.comparedRow, DatabaseCompareReader.rowValues, hvalues,
    List.drop_left' (List.length_map _), List.take_left' (List.length_map _), List.map_map]
  rfl

section Tables

variable {name : String → String} {db : Database} {reader : DatabaseCompareReader}

/-- Where a reader of a configuration finds the keys. -/
theorem reader_keys (h : config.reader lib name db = .ok reader) :
  reader.db = db ∧ reader.keyColumns = config.key
    ∧ reader.selectKeyNames = config.key.map (fun column => name column.name)
  := by
  obtain ⟨indexes, -, rfl⟩ := DatabaseCompareReader.init_ok h
  exact ⟨rfl, rfl, rfl⟩

theorem selected_none (h : config.reader lib name db = .ok reader) :
  reader.selected none = db.rows
  := by
  rw [← (reader_keys h).1]
  rfl

theorem selected_some (h : config.reader lib name db = .ok reader) {first : CompareColumn}
    {others : List CompareColumn} (hfirst : config.key = first :: others)
    (segment : CompareSegment) :
  reader.selected (some segment) = db.rowsIn (name first.name) segment
  := by
  obtain ⟨hdb, -, hnames⟩ := reader_keys h
  rw [hfirst, List.map_cons] at hnames
  simp only [DatabaseCompareReader.selected, hnames, hdb]

end Tables

/-- What is read from a side of rows: the rows, whose columns have the given names. -/
theorem sideReader_rows {name : String → String} {rows : List (String → PyValue)}
    {cancelRequested : ℕ → Bool} {reader : CompareReader}
    (h : config.sideReader lib name (.rows rows cancelRequested) = .ok reader) :
  ∃ file : FileCompareReader, reader = .file file ∧ file.rows = rows
    ∧ file.cancelRequested = cancelRequested
    ∧ ∀ row, file.compareRow row = config.recordRow lib (fun n => row (name n))
  := by
  obtain ⟨⟨hashColumns, indexes⟩, hslice, rfl⟩ := Outcome.map_eq_ok.mp h
  obtain ⟨_, -, hcolumns⟩ := Outcome.map_eq_ok.mp hslice
  obtain rfl := (Prod.mk.inj hcolumns).1
  refine ⟨_, rfl, rfl, rfl, ?_⟩
  intro row
  have hvalues : (config.columns.map (fun column => name column.name)).map row
      = config.columns.map (fun column => row (name column.name)) := by
    rw [List.map_map]
    rfl
  rw [FileCompareReader.compareRow, recordRow, recordIdentity]
  simp only [hvalues, hashed_record hslice (fun n => row (name n)), compareRowHash64,
    normalizedComparePayload]
  cases normalizedCompareIdentity lib config.compareColumns
      (config.compareColumns.map (fun column => row (name column.name))) config.rules with
  | error e => rfl
  | ok identity =>
      apply congrArg Except.ok
      rw [identifiedRow, List.map_map, List.map_map]
      rfl

/-- Every side can be read. -/
theorem exists_sideReader (config : CompareConfig) (lib : Builtins) (name : String → String)
    (side : CompareSide) :
  ∃ reader, config.sideReader lib name side = .ok reader
  := by
  cases side with
  | database db =>
      obtain ⟨reader, hreader⟩ := exists_reader config lib name db
      use .database reader
      rw [sideReader, hreader]
      rfl
  | rows rows cancelRequested =>
      obtain ⟨reader, hreader⟩ := exists_reader config lib name { rows := [] }
      obtain ⟨indexes, hslice, -⟩ := DatabaseCompareReader.init_ok hreader
      rw [sideReader, hslice]
      exact ⟨_, rfl⟩

end CompareConfig

end Compare

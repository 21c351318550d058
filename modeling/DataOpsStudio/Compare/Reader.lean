import DataOpsStudio.Compare.Hashdiff
import DataOpsStudio.Compare.Normalize

/-!
# Comparing two databases

A database holds the rows of a table by column name; its driver chooses the Python type in
which an integer arrives.  A reader selects the configured columns, in a segment of the key
column or in all, and represents every row by its primary key, its normalised identity and
its hash.  `runCompareHashdiff` takes the range of the keys from the smallest and the
largest key of either side and runs the recursive diff on it; when the key is not a single
integer column, it compares all rows at once.
-/

namespace Compare

open Text

/-! ### Databases and their drivers -/

/-- A value as the database stores it. -/
inductive DbValue where
  | null
  | integer (k : ℤ)
  | other (value : PyValue)

/-- The integer a value is. -/
def DbValue.integer? : DbValue → Option ℤ
  | integer k => some k
  | _ => none

/-- A row of a table, by column name. -/
abbrev DbRow := String → DbValue

/-- The Python type in which a driver returns an integer. -/
inductive NumberType where
  | int
  | decimal
  | str
deriving DecidableEq

/-- An integer as the driver returns it. -/
def NumberType.render : NumberType → ℤ → PyValue
  | int, k => .int k
  | decimal, k => .decimal ⟨decide (k < 0), k.natAbs, 0⟩
  | str, k => .str (intText k)

/-- A stored value as the driver returns it. -/
def NumberType.fetch (type : NumberType) : DbValue → PyValue
  | .null => .none
  | .integer k => type.render k
  | .other value => value

/-- A table behind a driver.  The rows are in the order in which the database returns them;
`pushdown` is the fingerprint the database computes itself, nothing where it does not, and an
error where the query is cancelled or runs out of time. -/
structure Database where
  rows : List DbRow
  integersAs : NumberType := .int
  boundsAs : NumberType := .int
  pushdown : CompareSegment → Except CompareError (Option SegmentFingerprint) := fun _ => .ok none

namespace Database

/-- The integers in a column; missing values are not among them. -/
def integers (db : Database) (name : String) : List ℤ :=
  db.rows.filterMap (fun row => (row name).integer?)

/-- The rows whose value in a column lies in a segment; a missing value lies in none. -/
def rowsIn (db : Database) (name : String) (segment : CompareSegment) : List DbRow :=
  db.rows.filter
    (fun row => ((row name).integer?.map (fun k => decide (segment.Holds k))).getD false)

/-- The smallest and the largest value of a column, as the driver returns them. -/
def minMax (db : Database) (name : String) : PyValue × PyValue :=
  ((((db.integers name).min?).map db.boundsAs.render).getD .none,
    (((db.integers name).max?).map db.boundsAs.render).getD .none)

/-- The column holds integers and missing values. -/
def IntegerColumn (db : Database) (name : String) : Prop :=
  ∀ row ∈ db.rows, row name = .null ∨ ∃ k, row name = .integer k

end Database

/-! ### Column configurations -/

/-- The key columns, with the type they are configured with. -/
def keyColumns (columns : List CompareColumn) (rules : CompareRules) : List CompareColumn :=
  let byName := Dict.ofList (columns.map (fun column => (column.name, column)))
  rules.keyColumns.map (fun name => (byName.get? name).getD { name := name })

/-- The columns that decide equality: those that are not ignored. -/
def effectiveCompareColumns (columns : List CompareColumn) (rules : CompareRules) :
    List CompareColumn :=
  columns.filter (fun column => decide (column.name ∉ rules.ignoreColumns))

/-- Where a column that is hashed stands among the value columns. -/
def hashIndex (valueColumns : List CompareColumn) (column : CompareColumn) :
    Except CompareError ℕ :=
  let indexByName := Dict.ofList (valueColumns.zipIdx.map (fun p => (p.1.name, p.2)))
  match indexByName.get? column.name with
  | none => .error (.valueError "hash column is not part of compare value columns")
  | some index => .ok index

/-- The columns that are hashed, and where they stand among the value columns. -/
def hashColumnSlice (valueColumns hashColumns : List CompareColumn) :
    Except CompareError (List CompareColumn × List ℕ) :=
  (hashColumns.mapM (hashIndex valueColumns)).map (fun indexes => (hashColumns, indexes))

/-- The columns and rules of a run; a run without key columns or without columns to compare
is refused. -/
structure CompareConfig where
  columns : List CompareColumn
  rules : CompareRules
  keyColumns_ne : keyColumns columns rules ≠ []
  compareColumns_ne : effectiveCompareColumns columns rules ≠ []

namespace CompareConfig

/-- The key columns of a run. -/
def key (config : CompareConfig) : List CompareColumn := keyColumns config.columns config.rules

/-- The columns of a run that decide equality. -/
def compareColumns (config : CompareConfig) : List CompareColumn :=
  effectiveCompareColumns config.columns config.rules

/-- The name of a column on the target side. -/
def targetName (config : CompareConfig) (name : String) : String :=
  (config.rules.columnMappings.get? name).getD name

end CompareConfig

/-! ### Readers -/

/-- A value of a compared row: as the driver returned it, or normalised. -/
inductive Cell where
  | raw (value : PyValue)
  | normal (isNull : Bool) (text : Text)
deriving DecidableEq

/-- Normalised values compare as they are, others as the interpreter compares them. -/
def Cell.equal : Cell → Cell → Bool
  | raw a, raw b => a == b
  | normal b s, normal c t => decide (b = c ∧ s = t)
  | _, _ => false

instance : BEq Cell := ⟨Cell.equal⟩

/-- A reader of one side. -/
structure DatabaseCompareReader where
  lib : Builtins
  db : Database
  keyColumns : List CompareColumn
  valueColumns : List CompareColumn
  hashColumns : List CompareColumn
  hashIndexes : List ℕ
  selectKeyNames : List String
  selectValueNames : List String
  rules : CompareRules

/-- Set up a reader. -/
def DatabaseCompareReader.init (lib : Builtins) (db : Database)
    (keyColumns valueColumns hashColumns : List CompareColumn)
    (selectKeyNames selectValueNames : List String) (rules : CompareRules) :
    Except CompareError DatabaseCompareReader :=
  (hashColumnSlice valueColumns hashColumns).map (fun slice =>
    { lib, db, keyColumns, valueColumns, hashColumns := slice.1, hashIndexes := slice.2,
      selectKeyNames, selectValueNames, rules })

/-- An integer read from a value, if it is one or a text of one. -/
def optionalInt : PyValue → Option ℤ
  | .bool b => some (if b then 1 else 0)
  | .int n => some n
  | .str s => intOfText? s
  | _ => none

namespace DatabaseCompareReader

variable (reader : DatabaseCompareReader)

/-- The smallest and the largest key, where they can be read as integers. -/
def bounds : Option ℤ × Option ℤ :=
  match reader.keyColumns, reader.selectKeyNames with
  | [_], name :: _ =>
      (optionalInt (reader.db.minMax name).1, optionalInt (reader.db.minMax name).2)
  | _, _ => (none, none)

/-- The rows a query selects: those of a segment of the first key column, or all. -/
def selected (segment? : Option CompareSegment) : List DbRow :=
  match segment?, reader.selectKeyNames with
  | some segment, name :: _ => reader.db.rowsIn name segment
  | _, _ => reader.db.rows

/-- The values of a row as the query returns them: the keys, then the values. -/
def rowValues (row : DbRow) : List PyValue :=
  (reader.selectKeyNames ++ reader.selectValueNames).map
    (fun name => reader.db.integersAs.fetch (row name))

/-- The values that are hashed, from the values of a row. -/
def hashValues (rawValues : List PyValue) : List PyValue :=
  reader.hashIndexes.map (fun index => rawValues.getD index .none)

/-- A row as it is compared. -/
def rowToCompare (values : List PyValue) : Except CompareError (CompareRow Cell) :=
  let keyLen := reader.keyColumns.length
  if values.length ≠ keyLen + reader.valueColumns.length then
    .error (.valueError "compare row shape does not match task columns")
  else do
    let hashValues := reader.hashValues (values.drop keyLen)
    let identity ← normalizedCompareIdentity reader.lib reader.hashColumns hashValues reader.rules
    let rowHash64 ← compareRowHash64 reader.lib reader.hashColumns hashValues reader.rules
    return {
      pk := values.take keyLen
      values := identity.map (fun p => Cell.normal p.1 p.2)
      rawValues := some ((values.drop keyLen).map Cell.raw)
      rowHash64 := some rowHash64 }

/-- The rows of a segment, or all rows. -/
def fetchRows (segment? : Option CompareSegment) : Except CompareError (List (CompareRow Cell)) :=
  (reader.selected segment?).mapM (fun row => reader.rowToCompare (reader.rowValues row))

/-- All rows, unless there are more than `maxRows`. -/
def fetchAll (maxRows : Option ℕ) : Except CompareError (List (CompareRow Cell)) :=
  match maxRows with
  | none => reader.fetchRows none
  | some n => do
      -- the row past the limit is still converted before it is refused
      let rows ← ((reader.selected none).take (n + 1)).mapM
        (fun row => reader.rowToCompare (reader.rowValues row))
      if n < (reader.selected none).length then .error (.maxRowsExceeded n) else return rows

/-- Refuse a table with more than `maxRows` rows. -/
def enforceMaxRows (maxRows : ℕ) : Except CompareError Unit :=
  if maxRows < reader.db.rows.length then .error (.maxRowsExceeded maxRows) else .ok ()

/-- The number of fetched rows and the sum of their hashes. -/
def clientFingerprint (segment : CompareSegment) : Except CompareError SegmentFingerprint := do
  let rows ← reader.fetchRows (some segment)
  return ⟨rows.length, (rows.map (fun row => row.rowHash64.getD 0)).sum⟩

/-- The fingerprint of a segment: the one of the database where it computes one, and the one
of the fetched rows elsewhere. -/
def segmentFingerprint (segment : CompareSegment) : Except CompareError SegmentFingerprint :=
  match reader.db.pushdown segment with
  | .error e => .error e
  | .ok (some fingerprint) => .ok fingerprint
  | .ok none => reader.clientFingerprint segment

/-- The reader as a side of a segmented comparison. -/
def segments : CompareSegmentReader Cell where
  segmentFingerprint := reader.segmentFingerprint
  fetchRows segment := reader.fetchRows (some segment)

end DatabaseCompareReader

/-! ### The run -/

/-- The events of all rows of both sides. -/
def diffAllRows (sourceRows targetRows : List (CompareRow Cell)) :
    Except CompareError (List (CompareDiffEvent Cell) × HashdiffProgress) := do
  let sourceByPk ← rowMap sourceRows .source
  let targetByPk ← rowMap targetRows .target
  let events := diffRowMaps sourceByPk targetByPk
  return (events, { rowModeSegments := if events = [] then 0 else 1 })

/-- The row limit of a comparison that holds all rows at once. -/
def defaultMaxRows : ℕ := 1000000

/-- Whether a comparison runs by segments: the key is a single integer column. -/
def singleIntegerKey (keyColumns : List CompareColumn) : Bool :=
  match keyColumns with
  | [column] => decide (column.type = .integer)
  | _ => false

/-- The range between the smallest and the largest bound. -/
def rootSegment (keyColumn : String) (bounds : List ℤ) : Option CompareSegment :=
  match bounds.min?, bounds.max? with
  | some low, some high =>
      if h : low ≤ high + 1 then some ⟨keyColumn, low, high + 1, h⟩ else none
  | _, _ => none

/-- Compare two databases. -/
def runCompareHashdiff (source target : DatabaseCompareReader) (keyColumns : List CompareColumn)
    (limits : RunLimits) :
    Except CompareError (List (CompareDiffEvent Cell) × HashdiffProgress) :=
  if !singleIntegerKey keyColumns then do
    let maxRows := limits.maxRows.getD defaultMaxRows
    let sourceRows ← source.fetchAll (some maxRows)
    let targetRows ← target.fetchAll (some maxRows)
    diffAllRows sourceRows targetRows
  else do
    if let some maxRows := limits.maxRows then
      source.enforceMaxRows maxRows
      target.enforceMaxRows maxRows
    let bounds := [source.bounds.1, source.bounds.2, target.bounds.1, target.bounds.2].reduceOption
    match rootSegment ((keyColumns.head?.map CompareColumn.name).getD "") bounds with
    | none => diffAllRows [] []
    | some root => recursiveHashdiffStream source.segments target.segments root limits

/-- With a single integer as the key, a run compares the range of the keys once the numbers of rows
are within the limit. -/
theorem runCompareHashdiff_of_key {source target : DatabaseCompareReader}
    {keyColumns : List CompareColumn} (limits : RunLimits)
    (hkey : singleIntegerKey keyColumns = true) :
  runCompareHashdiff source target keyColumns limits
    = (limits.maxRows.elim (.ok ())
        (fun maxRows => source.enforceMaxRows maxRows >>= fun _ => target.enforceMaxRows maxRows))
      >>= fun _ => (rootSegment ((keyColumns.head?.map CompareColumn.name).getD "")
          [source.bounds.1, source.bounds.2, target.bounds.1, target.bounds.2].reduceOption).elim
        (diffAllRows [] [])
        (fun root => recursiveHashdiffStream source.segments target.segments root limits)
  := by
  rw [runCompareHashdiff, hkey, if_neg (by decide)]
  dsimp only
  generalize rootSegment _ _ = root?
  cases root? with
  | none =>
      cases limits.maxRows with
      | none => rfl
      | some maxRows => exact (bind_assoc _ _ _).symm
  | some root =>
      cases limits.maxRows with
      | none => rfl
      | some maxRows => exact (bind_assoc _ _ _).symm

/-- The reader of the source side of a run. -/
def CompareConfig.sourceReader (config : CompareConfig) (lib : Builtins) (db : Database) :
    Except CompareError DatabaseCompareReader :=
  DatabaseCompareReader.init lib db config.key config.columns config.compareColumns
    (config.key.map CompareColumn.name) (config.columns.map CompareColumn.name) config.rules

/-- The reader of the target side of a run, whose columns may have other names. -/
def CompareConfig.targetReader (config : CompareConfig) (lib : Builtins) (db : Database) :
    Except CompareError DatabaseCompareReader :=
  DatabaseCompareReader.init lib db config.key config.columns config.compareColumns
    (config.key.map (fun column => config.targetName column.name))
    (config.columns.map (fun column => config.targetName column.name)) config.rules

/-- Set up both readers and compare the two databases. -/
def runCompare (config : CompareConfig) (lib : Builtins) (source target : Database)
    (limits : RunLimits) :
    Except CompareError (List (CompareDiffEvent Cell) × HashdiffProgress) := do
  let sourceReader ← config.sourceReader lib source
  let targetReader ← config.targetReader lib target
  runCompareHashdiff sourceReader targetReader config.key limits

/-! ### What is set up -/

/-- The fields of a reader are those it is set up with. -/
theorem DatabaseCompareReader.init_ok {lib : Builtins} {db : Database}
    {keyColumns valueColumns hashColumns : List CompareColumn}
    {selectKeyNames selectValueNames : List String} {rules : CompareRules}
    {reader : DatabaseCompareReader}
    (h : init lib db keyColumns valueColumns hashColumns selectKeyNames selectValueNames rules
      = .ok reader) :
  ∃ hashIndexes, hashColumnSlice valueColumns hashColumns = .ok (hashColumns, hashIndexes)
    ∧ reader = { lib, db, keyColumns, valueColumns, hashColumns, hashIndexes, selectKeyNames,
                 selectValueNames, rules }
  := by
  obtain ⟨⟨columns, indexes⟩, hslice, rfl⟩ := Outcome.map_eq_ok.mp h
  obtain ⟨indexes', -, heq⟩ := Outcome.map_eq_ok.mp hslice
  obtain ⟨rfl, rfl⟩ := Prod.mk.inj heq
  exact ⟨indexes', hslice, rfl⟩

/-- A single integer key is one of the configured columns. -/
theorem exists_key_of_singleIntegerKey {config : CompareConfig}
    (h : singleIntegerKey config.key = true) :
  ∃ column ∈ config.columns, config.key = [column] ∧ column.type = .integer
  := by
  obtain ⟨column, hkey, htype⟩ : ∃ column, config.key = [column] ∧ column.type = .integer := by
    unfold singleIntegerKey at h
    split at h
    · rename_i column hkey
      exact ⟨column, hkey, by simpa using h⟩
    · cases h
  refine ⟨column, ?_, hkey, htype⟩
  obtain ⟨name, -, hname⟩ : ∃ name ∈ config.rules.keyColumns,
      ((Dict.ofList (config.columns.map (fun column => (column.name, column)))).get? name).getD
        { name := name } = column := by
    apply List.mem_map.mp
    rw [show List.map _ config.rules.keyColumns = [column] from hkey]
    apply List.mem_singleton_self
  cases hget : (Dict.ofList (config.columns.map (fun column => (column.name, column)))).get? name with
  | none =>
      rw [hget, Option.getD_none] at hname
      rw [← hname] at htype
      cases htype
  | some found =>
      rw [hget, Option.getD_some] at hname
      obtain ⟨c, hc, heq⟩ := List.mem_map.mp (Dict.mem_of_get?_ofList hget)
      rw [← hname, ← (Prod.mk.inj heq).2]
      apply hc

end Compare

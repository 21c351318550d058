import DataOpsStudio.Compare.Fingerprint
import DataOpsStudio.Compare.Materialized

/-!
# The compare run

A run compares two sides, each a table or the rows of a file or of a result snapshot.  When one of
them is not a table all rows are compared in memory; otherwise the run may look at a sample of the
keys, or work by segments.  Every event is counted, and written to the bucket it belongs to as a row
with the key, the values of both sides and the cells that differ.  A profile of the events is built
beside it; what that raises is caught, and decides nothing here.
-/

namespace Compare

open Text

/-! ### Sides -/

/-- What a run compares: a table, or rows that have been materialised, whose reader looks for a
cancel request. -/
inductive CompareSide where
  | database (db : Database)
  | rows (rows : List (String → PyValue)) (cancelRequested : ℕ → Bool)

/-- A reader of materialised rows. -/
structure FileCompareReader where
  lib : Builtins
  rows : List (String → PyValue)
  valueColumns : List CompareColumn
  hashColumns : List CompareColumn
  hashIndexes : List ℕ
  selectKeyNames : List String
  selectValueNames : List String
  rules : CompareRules
  cancelRequested : ℕ → Bool

namespace FileCompareReader

variable (reader : FileCompareReader)

/-- A row as it is compared. -/
def compareRow (row : String → PyValue) : Except CompareError (CompareRow Cell) := do
  let keyRaw := reader.selectKeyNames.map row
  let valueRaw := reader.selectValueNames.map row
  let hashRaw := reader.hashIndexes.map (fun index => valueRaw.getD index .none)
  let identity ← normalizedCompareIdentity reader.lib reader.hashColumns hashRaw reader.rules
  let rowHash64 ← compareRowHash64 reader.lib reader.hashColumns hashRaw reader.rules
  return {
    pk := keyRaw
    values := identity.map (fun p => Cell.normal p.1 p.2)
    rawValues := some (valueRaw.map Cell.raw)
    rowHash64 := some rowHash64 }

/-- One turn of the loop over the rows. -/
def fetchRow (p : (String → PyValue) × ℕ) : Except CompareError (CompareRow Cell) :=
  if p.2 % 1000 = 0 ∧ reader.cancelRequested p.2 = true then .error (.adapter "cancel requested")
  else reader.compareRow p.1

/-- All rows, unless there are more than `maxRows`. -/
def fetchAll (maxRows : ℕ) : Except CompareError (List (CompareRow Cell)) :=
  if maxRows < reader.rows.length then .error (.maxRowsExceeded maxRows)
  else reader.rows.zipIdx.mapM reader.fetchRow

end FileCompareReader

/-- A reader of either kind. -/
inductive CompareReader where
  | database (reader : DatabaseCompareReader)
  | file (reader : FileCompareReader)

/-- Set up the reader of a side whose columns have the given names. -/
def CompareConfig.sideReader (config : CompareConfig) (lib : Builtins) (name : String → String) :
    CompareSide → Except CompareError CompareReader
  | .database db => (config.reader lib name db).map .database
  | .rows rows cancelRequested =>
      (hashColumnSlice config.columns config.compareColumns).map (fun slice =>
        .file {
          lib, rows, cancelRequested
          valueColumns := config.columns
          hashColumns := slice.1
          hashIndexes := slice.2
          selectKeyNames := config.key.map (fun column => name column.name)
          selectValueNames := config.columns.map (fun column => name column.name)
          rules := config.rules })

/-- All rows of a side. -/
def CompareReader.fetchAll (maxRows : ℕ) :
    CompareReader → Except CompareError (List (CompareRow Cell))
  | .database reader => reader.fetchAll (some maxRows)
  | .file reader => reader.fetchAll maxRows

/-! ### Samples -/

/-- How a sample is taken: how many keys are wanted, and the numbers that are drawn between two
bounds. -/
structure SampleCheck where
  requestedRows : ℕ := 300
  draw : ℤ → ℤ → ℕ → ℤ

theorem le_add_one_self (key : ℤ) :
  key ≤ key + 1
  := by omega

namespace DatabaseCompareReader

variable (reader : DatabaseCompareReader)

/-- The first row whose key is not below the anchor. -/
def fetchFirstAtOrAfter (anchor : ℤ) : Except CompareError (Option (CompareRow Cell)) :=
  match reader.keyColumns, reader.selectKeyNames with
  | [_], name :: _ =>
      let atOrAfter := reader.db.rows.filter
        (fun row => ((row name).integer?.map (fun k => decide (anchor ≤ k))).getD false)
      match atOrAfter with
      | [] => .ok none
      | row :: _ => (reader.rowToCompare (reader.rowValues row)).map some
  | _, _ => .ok none

/-- The rows with a key. -/
def fetchKey (key : ℤ) : Except CompareError (List (CompareRow Cell)) :=
  match reader.keyColumns with
  | [column] => reader.fetchRows (some ⟨column.name, key, key + 1, le_add_one_self key⟩)
  | _ => .ok []

end DatabaseCompareReader

/-- The integer a row has as its single key.  A text with more than one sign passes for a number
and is then refused. -/
def firstIntPk : Option (CompareRow Cell) → Except CompareError (Option ℤ)
  | none => .ok none
  | some row =>
      match row.pk with
      | [.int n] => .ok (some n)
      | [.decimal d] => .ok (if d.value = ⌊d.value⌋ then some ⌊d.value⌋ else none)
      | [.str s] =>
          let digits := (stripBy isSpace s).dropWhile (fun c => c == '-')
          if digits ≠ [] ∧ digits.all isDecimalDigit then
            match intOfText? s with
            | some n => .ok (some n)
            | none => .error (.valueError "invalid literal for int() with base 10")
          else .ok none
      | _ => .ok none

/-- The keys with the key of the first row at or after the anchor, if it lies in the range. -/
def addSampled (reader : DatabaseCompareReader) (start stop anchor : ℤ) (keys : List ℤ) :
    Except CompareError (List ℤ) := do
  let row ← reader.fetchFirstAtOrAfter anchor
  match ← firstIntPk row with
  | some key => return if start ≤ key ∧ key ≤ stop ∧ key ∉ keys then keys ++ [key] else keys
  | none => return keys

/-- The loop that draws anchors, with the number of attempts that are left. -/
def drawKeys (source target : DatabaseCompareReader) (sample : SampleCheck) (start stop : ℤ) :
    ℕ → ℕ → List ℤ → Except CompareError (List ℤ)
  | 0, _, keys => .ok keys
  | left + 1, attempt, keys =>
      if sample.requestedRows ≤ keys.length then .ok keys
      else do
        let anchor := sample.draw start stop attempt
        let found ← addSampled source start stop anchor keys
        -- a key of the source may be the last that was wanted
        let found ← if sample.requestedRows ≤ found.length then pure found
          else addSampled target start stop anchor found
        drawKeys source target sample start stop left (attempt + 1) found

/-- The keys of a sample. -/
def samplePrimaryKeys (source target : DatabaseCompareReader) (sample : SampleCheck)
    (start stop : ℤ) : Except CompareError (List ℤ) :=
  (drawKeys source target sample start stop
      (max (sample.requestedRows * 10) (sample.requestedRows + 100)) 0 []).map
    (fun keys => keys.mergeSort (fun a b => decide (a ≤ b)))

/-- Compare the rows with the keys of a sample. -/
def runCompareSampleQuickCheck (source target : DatabaseCompareReader)
    (keyColumns : List CompareColumn) (sample : SampleCheck) :
    Except CompareError (List (CompareDiffEvent Cell) × HashdiffProgress) :=
  if !singleIntegerKey keyColumns then .error (.valueError "single_integer_pk_required")
  else
    let bounds := [source.bounds.1, source.bounds.2, target.bounds.1, target.bounds.2].reduceOption
    match bounds.min?, bounds.max? with
    | some start, some stop => do
        let keys ← samplePrimaryKeys source target sample start stop
        let events ← keys.mapM (fun key => do
          let sourceRows ← source.fetchKey key
          let targetRows ← target.fetchKey key
          let result ← diffAllRows sourceRows targetRows
          return result.1)
        return (events.flatten, { rowModeSegments := if events.flatten = [] then 0 else 1 })
    | _, _ => .ok ([], {})

/-! ### The events of a run -/

/-- What a run is asked for besides its columns and rules. -/
structure CompareJob where
  limits : RunLimits := {}
  persistSameBucket : Bool := false
  sample : Option SampleCheck := none
  cancelRequested : MaterializedLoop → ℕ → Bool := fun _ _ => false

/-- A run that keeps the rows that are the same does not skip segments. -/
def CompareJob.effectiveLimits (job : CompareJob) : RunLimits :=
  if job.persistSameBucket then { job.limits with recursiveChecksum := false } else job.limits

/-- The events of a run. -/
def compareEvents (lib : Builtins) (config : CompareConfig) (job : CompareJob)
    (source target : CompareSide) :
    Except CompareError (List (CompareDiffEvent Cell) × HashdiffProgress) := do
  let sourceReader ← config.sideReader lib (fun n => n) source
  let targetReader ← config.sideReader lib config.targetName target
  match sourceReader, targetReader with
  | .database sourceReader, .database targetReader =>
      match job.sample with
      | some sample => runCompareSampleQuickCheck sourceReader targetReader config.key sample
      | none => runCompareHashdiff sourceReader targetReader config.key job.effectiveLimits
  | _, _ =>
      let maxRows := job.limits.maxRows.getD defaultMaxRows
      let sourceRows ← sourceReader.fetchAll maxRows
      let targetRows ← targetReader.fetchAll maxRows
      diffMaterializedRows lib config.key config.rules job.cancelRequested sourceRows targetRows

/-! ### The rows of a bucket -/

/-- A cell that differs. -/
structure DiffCell where
  column : String
  source : PyValue
  target : PyValue
deriving DecidableEq

/-- A row of a bucket. -/
structure SpoolRow where
  pk : Dict String PyValue
  source : Option (Dict String PyValue)
  target : Option (Dict String PyValue)
  cells : List DiffCell

/-- The value of a cell.  Events show the values as the drivers returned them: every reader has a
value column. -/
def Cell.value : Cell → PyValue
  | .raw value => value
  | .normal isNull text => if isNull then .none else .str text

/-- The values of a row by column name. -/
def valuesDict (columns : List CompareColumn) (values : List PyValue) : Dict String PyValue :=
  Dict.ofList ((columns.map CompareColumn.name).zip values)

/-- The cells of two rows that differ in the columns that decide equality.  The other columns are
normalised as well. -/
def cellDiffs (lib : Builtins) (columns : List CompareColumn)
    (sourceValues targetValues : List PyValue) (rules : CompareRules)
    (diffColumnNames : List String) : Except CompareError (List DiffCell) := do
  let sourceIdentity ← normalizedCompareIdentity lib columns sourceValues rules
  let targetIdentity ← normalizedCompareIdentity lib columns targetValues rules
  return ((columns.zip (sourceValues.zip targetValues)).zip
      (sourceIdentity.zip targetIdentity)).filterMap (fun p =>
    if p.1.1.name ∉ diffColumnNames ∨ p.2.1 = p.2.2 then none
    else some { column := p.1.1.name, source := p.1.2.1, target := p.1.2.2 })

/-- The row that is written for an event. -/
def compareEventToSpoolRow (lib : Builtins) (keyColumns valueColumns : List CompareColumn)
    (rules : CompareRules) (diffColumnNames : List String) (event : CompareDiffEvent Cell) :
    Except CompareError SpoolRow := do
  let source := event.sourceValues.map (fun values => values.map Cell.value)
  let target := event.targetValues.map (fun values => values.map Cell.value)
  let cells ←
    match event.bucket, source, target with
    | .diff, some sourceValues, some targetValues =>
        cellDiffs lib valueColumns sourceValues targetValues rules diffColumnNames
    | _, _, _ => .ok []
  return {
    pk := valuesDict keyColumns event.pk
    source := source.map (valuesDict valueColumns)
    target := target.map (valuesDict valueColumns)
    cells }

/-! ### The run -/

/-- What a run reports: how many rows are in each bucket, and the rows that were written, each with
its bucket. -/
structure CompareReport where
  bucketCounts : CompareDiffBucket → ℕ
  spooled : List (CompareDiffBucket × SpoolRow)

/-- The names of the columns that decide equality. -/
def CompareConfig.diffColumnNames (config : CompareConfig) : List String :=
  config.compareColumns.map CompareColumn.name

/-- The row that is written for an event of a run. -/
def CompareConfig.spoolRow (config : CompareConfig) (lib : Builtins)
    (event : CompareDiffEvent Cell) : Except CompareError SpoolRow :=
  compareEventToSpoolRow lib config.key config.columns config.rules config.diffColumnNames event

/-- Whether an event is written: rows that are the same are kept only on request. -/
def CompareJob.spools (job : CompareJob) (event : CompareDiffEvent Cell) : Bool :=
  job.persistSameBucket || decide (event.bucket ≠ .same)

/-- Compare two sides and write the buckets. -/
def executeCompareRun (lib : Builtins) (config : CompareConfig) (job : CompareJob)
    (source target : CompareSide) : Except CompareError CompareReport := do
  let result ← compareEvents lib config job source target
  let spooled ← (result.1.filter job.spools).mapM (fun event =>
    (config.spoolRow lib event).map (fun row => (event.bucket, row)))
  return {
    bucketCounts := fun bucket =>
      bucketCount bucket result.1 + if bucket = .same then result.2.skippedRows else 0
    spooled }

end Compare

import DataOpsStudio.Broker.State
import DataOpsStudio.Library.TransitionSystem
import DataOpsStudio.Results.Spool

/-!
# The result sets of a console

A statement that is submitted gets a result set at once: a row in the catalog, and a spool for its
rows.  To make room the submission closes the result sets of the console that were updated longest
ago and deletes their spools.  Meanwhile the lane takes statements from the mailbox one after the
other, reads the rows of a statement, appends them to its spool in batches, and updates its row in
the catalog with every batch.

The submission holds the lock of the broker, in parts between which the lane may go on; the lane
needs the lock to begin and to end a statement, but not to write rows.
-/

namespace Results

open Text Broker

/-! ### The catalog -/

inductive ResultSetState where
  | streaming
  | complete
  | closed
deriving DecidableEq

/-- A row of the catalog.  All rows are of one console. -/
structure ResultSetRow where
  executionId : Text
  loadedRows : ℕ := 0
  totalRows : Option ℕ := none
  state : ResultSetState := .streaming
  createdAt : ℤ
  updatedAt : ℤ
deriving DecidableEq

/-- The first row comes before the second when the latest rows come first. -/
def ResultSetRow.Precedes (row row' : ResultSetRow) : Prop :=
  row'.updatedAt < row.updatedAt
    ∨ row'.updatedAt = row.updatedAt ∧ row'.createdAt ≤ row.createdAt

instance (row row' : ResultSetRow) : Decidable (row.Precedes row') :=
  inferInstanceAs (Decidable (_ ∨ _))

/-! ### Statements and lanes -/

/-- The result set of a statement, as the lane holds it. -/
structure StatementSpool where
  resultSetId : Text
  pageSize : ℕ
  maxResultRows : ℕ
deriving DecidableEq

/-- A statement with its result set.  What its stream has yielded is noted when it ends. -/
structure SpooledStatement (Row : Type) where
  state : ConsoleStatementState := .accepted
  spool : Option StatementSpool := none
  streamed : List Row := []

/-- A statement whose rows are read: the batch that has not been flushed, what has been counted,
and all that the stream has yielded. -/
structure Drain (Row : Type) where
  statementId : Text
  spool : StatementSpool
  batch : List Row := []
  rowsRead : ℕ := 0
  rowsReturned : ℕ := 0
  outputLimitApplied : Bool := false
  streamed : List Row := []

/-- Where the thread of the lane stands. -/
inductive LanePoint (Row : Type) where
  /-- In `mailbox.get()`. -/
  | waiting
  /-- Has a command to execute a statement, not counted off yet. -/
  | dequeued (statementId : Text)
  /-- About to begin a statement. -/
  | starting (statementId : Text)
  /-- In `connection.execute`. -/
  | executing (statementId : Text) (spool : StatementSpool)
  /-- Reads rows. -/
  | draining (drain : Drain Row)
  /-- Appends a batch, in the loop, or in the `finally` clause after a loop that has ended well or
  not. -/
  | appending (drain : Drain Row) (final : Option Bool)
  /-- Has appended a batch, and updates the catalog. -/
  | publishing (drain : Drain Row) (final : Option Bool)
  /-- At the end of the `finally` clause. -/
  | marking (drain : Drain Row) (good : Bool)
  | finalizing (drain : Drain Row) (good : Bool)
  /-- About to end the statement. -/
  | ending (drain : Drain Row) (good : Bool)

/-- Where a submission stands that holds the lock. -/
inductive SubmitPoint where
  /-- Has recorded the statement. -/
  | begun (statementId : Text) (pageSize maxResultRows : ℕ)
  /-- Has inserted the row of the result set. -/
  | inserted (statementId : Text) (spool : StatementSpool)
  /-- Has closed result sets, of which some spools have still to be deleted. -/
  | evicted (statementId : Text) (spool : StatementSpool) (stale : List Text)
deriving DecidableEq

/-! ### The console -/

structure ResultsConfig (Row : Type) where
  mailboxSize : ℕ
  maxActiveResultsets : ℕ := 3
  spoolBatchSize : ℕ := 1000
  limits : SpoolLimits Row

/-- How many result sets of a console stay open. -/
def ResultsConfig.maxActive {Row : Type} (config : ResultsConfig Row) : ℕ :=
  max 1 config.maxActiveResultsets

/-- What has been observed: the result sets that were closed, and those whose spools were deleted,
while their statement was live or after it had come to its end. -/
structure EvictionHistory where
  closedLive : List Text := []
  closedLater : List Text := []
  deletedLive : List Text := []
  deletedLater : List Text := []

/-- A console with its statements, its result sets and the lane of its session. -/
structure ResultsConsole (Row : Type) where
  statements : Dict Text (SpooledStatement Row) := Dict.empty
  mailbox : List Text := []
  pendingCount : ℤ := 0
  lane : LanePoint Row := .waiting
  submitting : Option SubmitPoint := none
  catalog : Dict Text ResultSetRow := Dict.empty
  spools : Dict Text (SpoolDir Row) := Dict.empty
  history : EvictionHistory := {}

namespace ResultsConsole

variable {Row : Type}

/-- The directory of a spool. -/
def dir (x : ResultsConsole Row) (resultSetId : Text) : SpoolDir Row :=
  (x.spools.get? resultSetId).getD {}

def setDir (x : ResultsConsole Row) (resultSetId : Text) (dir : SpoolDir Row) :
    ResultsConsole Row :=
  { x with spools := x.spools.set resultSetId dir }

def setStatement (x : ResultsConsole Row) (statementId : Text)
    (statement : SpooledStatement Row) : ResultsConsole Row :=
  { x with statements := x.statements.set statementId statement }

/-- A statement that is accepted, executing or streaming. -/
def Live (x : ResultsConsole Row) (statementId : Text) : Prop :=
  ∃ statement ∈ x.statements.get? statementId, ¬ statement.state.IsTerminal

/-- A result set whose statement is live. -/
def LiveResultSet (x : ResultsConsole Row) (resultSetId : Text) : Prop :=
  ∃ row ∈ x.catalog.get? resultSetId, x.Live row.executionId

instance (x : ResultsConsole Row) (statementId : Text) : Decidable (x.Live statementId) :=
  inferInstanceAs (Decidable (∃ statement ∈ x.statements.get? statementId, _))

instance (x : ResultsConsole Row) (resultSetId : Text) :
    Decidable (x.LiveResultSet resultSetId) :=
  inferInstanceAs (Decidable (∃ row ∈ x.catalog.get? resultSetId, _))

/-- The result sets that are not closed. -/
def openResultSets (x : ResultsConsole Row) : List Text :=
  (x.catalog.items.filter (fun item => item.2.state ≠ .closed)).map Prod.fst

/-- The first result set comes before the second when the latest come first. -/
def Precedes (x : ResultsConsole Row) (resultSetId resultSetId' : Text) : Prop :=
  ∃ row ∈ x.catalog.get? resultSetId, ∃ row' ∈ x.catalog.get? resultSetId', row.Precedes row'

instance (x : ResultsConsole Row) (resultSetId resultSetId' : Text) :
    Decidable (x.Precedes resultSetId resultSetId') :=
  inferInstanceAs (Decidable (∃ row ∈ x.catalog.get? resultSetId, _))

/-- A list of the result sets that are not closed, the latest first. -/
def IsListing (x : ResultsConsole Row) (listing : List Text) : Prop :=
  listing.Perm x.openResultSets ∧ listing.Pairwise x.Precedes

instance (x : ResultsConsole Row) (listing : List Text) : Decidable (x.IsListing listing) :=
  inferInstanceAs (Decidable (_ ∧ _))

end ResultsConsole

/-! ### Submitting -/

section Steps

variable {Row : Type}

/-- A statement is recorded. -/
def submit (config : ResultsConfig Row) (x : ResultsConsole Row) (statementId : Text)
    (pageSize maxResultRows : ℕ) : Option (ResultsConsole Row) :=
  if x.submitting = none ∧ x.pendingCount < config.mailboxSize ∧ 0 < pageSize
      ∧ 0 < maxResultRows then
    some { x.setStatement statementId {} with
      submitting := some (.begun statementId pageSize maxResultRows) }
  else none

/-- The first part of `register`: the row of the result set is inserted. -/
def register (x : ResultsConsole Row) (resultSetId : Text) (now : ℤ) :
    Option (ResultsConsole Row) :=
  match x.submitting with
  | some (.begun statementId pageSize maxResultRows) =>
      some { x with
        catalog := x.catalog.set resultSetId
          { executionId := statementId, createdAt := now, updatedAt := now }
        submitting := some (.inserted statementId
          { resultSetId := resultSetId, pageSize := pageSize, maxResultRows := maxResultRows }) }
  | _ => none

/-- Closes a result set. -/
def closeResultSet (now : ℤ) (catalog : Dict Text ResultSetRow) (resultSetId : Text) :
    Dict Text ResultSetRow :=
  match catalog.get? resultSetId with
  | none => catalog
  | some row => catalog.set resultSetId { row with state := .closed, updatedAt := now }

/-- The result sets that are not among the latest. -/
def staleConsoleResultsets (config : ResultsConfig Row) (listing : List Text) : List Text :=
  listing.drop config.maxActive

/-- The second part of `register`: the result sets that are not among the latest are closed. -/
def evictConsoleResultsets (config : ResultsConfig Row) (x : ResultsConsole Row)
    (listing : List Text) (now : ℤ) : Option (ResultsConsole Row) :=
  match x.submitting with
  | some (.inserted statementId spool) =>
      if x.IsListing listing then
        let stale := staleConsoleResultsets config listing
        some { x with
          catalog := stale.foldl (closeResultSet now) x.catalog
          submitting := some (.evicted statementId spool stale)
          history := { x.history with
            closedLive := x.history.closedLive ++ stale.filter (fun r => x.LiveResultSet r)
            closedLater := x.history.closedLater
              ++ stale.filter (fun r => ¬ x.LiveResultSet r) } }
      else none
  | _ => none

/-- The third part of `register`: the spool of a result set that was closed is deleted.  If that
raises then something of the directory may be left, and the submission goes on. -/
def deleteSpool (x : ResultsConsole Row) (left : Option (SpoolDir Row)) :
    Option (ResultsConsole Row) :=
  match x.submitting with
  | some (.evicted statementId spool (resultSetId :: stale)) =>
      some { x.setDir resultSetId (left.getD {}) with
        submitting := some (.evicted statementId spool stale)
        history :=
          if x.LiveResultSet resultSetId then
            { x.history with deletedLive := x.history.deletedLive ++ [resultSetId] }
          else { x.history with deletedLater := x.history.deletedLater ++ [resultSetId] } }
  | _ => none

/-- The statement gets its result set and goes to the mailbox. -/
def accept (x : ResultsConsole Row) : Option (ResultsConsole Row) :=
  match x.submitting with
  | some (.evicted statementId spool []) =>
      (x.statements.get? statementId).map (fun statement =>
        { x.setStatement statementId { statement with spool := some spool } with
          mailbox := x.mailbox ++ [statementId]
          pendingCount := x.pendingCount + 1
          submitting := none })
  | _ => none

/-- The result set could not be made: the statement has failed. -/
def refuse (x : ResultsConsole Row) : Option (ResultsConsole Row) :=
  let fail (statementId : Text) : Option (ResultsConsole Row) :=
    (x.statements.get? statementId).map (fun statement =>
      { x.setStatement statementId { statement with state := .failed } with submitting := none })
  match x.submitting with
  | some (.begun statementId _ _) => fail statementId
  | some (.inserted statementId _) => fail statementId
  | _ => none

/-! ### Ending a statement from outside -/

/-- A statement that waits is cancelled. -/
def cancel (x : ResultsConsole Row) (statementId : Text) : Option (ResultsConsole Row) :=
  if x.submitting = none then
    (x.statements.get? statementId).bind (fun statement =>
      if statement.state = .accepted then
        some (x.setStatement statementId { statement with state := .cancelled })
      else none)
  else none

/-- The session is lost: a statement that is being executed comes to its end. -/
def lose (x : ResultsConsole Row) (statementId : Text) (state : ConsoleStatementState) :
    Option (ResultsConsole Row) :=
  if x.submitting = none ∧ (state = .failed ∨ state = .outcomeUnknown) then
    (x.statements.get? statementId).bind (fun statement =>
      if statement.state.IsInFlight then
        some (x.setStatement statementId { statement with state := state })
      else none)
  else none

/-! ### The lane -/

/-- Takes a statement from the mailbox. -/
def takeStatement (x : ResultsConsole Row) : Option (ResultsConsole Row) :=
  match x.lane, x.mailbox with
  | .waiting, statementId :: mailbox =>
      some { x with mailbox := mailbox, lane := .dequeued statementId }
  | _, _ => none

/-- Counts the statement off. -/
def countOff (x : ResultsConsole Row) : Option (ResultsConsole Row) :=
  match x.lane, x.submitting with
  | .dequeued statementId, none =>
      some { x with pendingCount := x.pendingCount - 1, lane := .starting statementId }
  | _, _ => none

/-- Begins the statement, unless it has come to its end or the session is over. -/
def startStatement (x : ResultsConsole Row) (refused : Bool) : Option (ResultsConsole Row) :=
  match x.lane, x.submitting with
  | .starting statementId, none =>
      (x.statements.get? statementId).bind (fun statement =>
        if statement.state ≠ .accepted ∨ refused then some { x with lane := .waiting }
        else statement.spool.map (fun spool =>
          { x.setStatement statementId { statement with state := .executing } with
            lane := .executing statementId spool }))
  | _, _ => none

/-- The columns of the rows are known. -/
def captureColumns (x : ResultsConsole Row) (columns : List Text) : Option (ResultsConsole Row) :=
  match x.lane with
  | .executing _ spool =>
      match setSpoolColumns columns (x.dir spool.resultSetId) with
      | .ok dir => some (x.setDir spool.resultSetId dir)
      | .error _ => none
  | _ => none

/-- The call of `connection.execute` returns, or raises. -/
def executed (x : ResultsConsole Row) (raises : Bool) : Option (ResultsConsole Row) :=
  match x.lane, x.submitting with
  | .executing statementId spool, none =>
      let drain : Drain Row := { statementId := statementId, spool := spool }
      if raises then some { x with lane := .finalizing drain false }
      else
        (x.statements.get? statementId).map (fun statement =>
          { x.setStatement statementId
              (if statement.state = .executing then { statement with state := .streaming }
              else statement) with
            lane := .draining drain })
  | _, _ => none

/-- The `finally` clause begins. -/
def enterFinally (drain : Drain Row) (good : Bool) : LanePoint Row :=
  if drain.batch.isEmpty then .marking drain good else .appending drain (some good)

/-- How many rows are flushed at once. -/
def batchSize (config : ResultsConfig Row) (spool : StatementSpool) : ℕ :=
  max 1 (min config.spoolBatchSize spool.pageSize)

/-- A row is read. -/
def readRow (config : ResultsConfig Row) (drain : Drain Row) (row : Row) : LanePoint Row :=
  let drain := { drain with rowsRead := drain.rowsRead + 1, streamed := drain.streamed ++ [row] }
  if drain.spool.maxResultRows ≤ drain.rowsReturned then
    enterFinally { drain with outputLimitApplied := true } true
  else
    let drain := { drain with
      rowsReturned := drain.rowsReturned + 1, batch := drain.batch ++ [row] }
    if batchSize config drain.spool ≤ drain.batch.length then .appending drain none
    else .draining drain

/-- What the stream does next: it yields a row, it is exhausted, or it raises. -/
inductive StreamEvent (Row : Type) where
  | row (row : Row)
  | exhausted
  | raises

def readStream (config : ResultsConfig Row) (x : ResultsConsole Row) (event : StreamEvent Row) :
    Option (ResultsConsole Row) :=
  match x.lane with
  | .draining drain =>
      some { x with
        lane :=
          match event with
          | .row row => readRow config drain row
          | .exhausted => enterFinally drain true
          | .raises => enterFinally drain false }
  | _ => none

/-- An exception while a batch is flushed.  In the loop it leads to the `finally` clause, which
flushes the batch once more. -/
def flushRaised (drain : Drain Row) (final : Option Bool) : LanePoint Row :=
  match final with
  | none => enterFinally drain false
  | some _ => .finalizing drain false

/-- The batch is appended to the spool. -/
def appendBatch (config : ResultsConfig Row) (x : ResultsConsole Row) (raises : Bool) :
    Option (ResultsConsole Row) :=
  match x.lane with
  | .appending drain final =>
      match appendSpool config.limits drain.batch (x.dir drain.spool.resultSetId), raises with
      | .ok dir, false =>
          some { x.setDir drain.spool.resultSetId dir with lane := .publishing drain final }
      | _, _ => some { x with lane := flushRaised drain final }
  | _ => none

/-- Writes the row of a result set in the catalog. -/
def writeCatalog (x : ResultsConsole Row) (drain : Drain Row) (state : ResultSetState)
    (totalRows : Option ℕ) (now : ℤ) : ResultsConsole Row :=
  match x.catalog.get? drain.spool.resultSetId with
  | none => x
  | some row =>
      { x with
        catalog := x.catalog.set drain.spool.resultSetId { row with
          executionId := drain.statementId
          loadedRows := (x.dir drain.spool.resultSetId).readManifest.loadedRows
          totalRows := totalRows
          state := state
          updatedAt := now } }

/-- The catalog is told of the batch. -/
def publishStreaming (x : ResultsConsole Row) (raises : Bool) (now : ℤ) :
    Option (ResultsConsole Row) :=
  match x.lane with
  | .publishing drain final =>
      if raises then some { x with lane := flushRaised drain final }
      else
        some { writeCatalog x drain .streaming none now with
          lane :=
            match final with
            | none => .draining { drain with batch := [] }
            | some good => .marking drain good }
  | _ => none

/-- A result that was cut off is marked. -/
def markTruncated (x : ResultsConsole Row) (raises : Bool) : Option (ResultsConsole Row) :=
  match x.lane with
  | .marking drain good =>
      if drain.outputLimitApplied then
        match markSpoolTruncated (x.dir drain.spool.resultSetId), raises with
        | .ok dir, false =>
            some { x.setDir drain.spool.resultSetId dir with lane := .finalizing drain good }
        | _, _ => some { x with lane := .finalizing drain false }
      else some { x with lane := .finalizing drain good }
  | _ => none

/-- The result set is sealed in the catalog; an exception is logged. -/
def finalize (x : ResultsConsole Row) (raises : Bool) (now : ℤ) : Option (ResultsConsole Row) :=
  match x.lane with
  | .finalizing drain good =>
      if raises then some { x with lane := .ending drain good }
      else
        let manifest := (x.dir drain.spool.resultSetId).readManifest
        let totalRows :=
          if manifest.truncated || drain.outputLimitApplied then none else some manifest.loadedRows
        some { writeCatalog x drain .complete totalRows now with lane := .ending drain good }
  | _ => none

/-- The states in which a statement ends whose execution has raised. -/
def raisedStates : List ConsoleStatementState :=
  [.failed, .cancelled, .timeout, .outcomeUnknown]

/-- The statement comes to its end, unless it has before. -/
def endStatement (x : ResultsConsole Row) (state : ConsoleStatementState) :
    Option (ResultsConsole Row) :=
  match x.lane, x.submitting with
  | .ending drain good, none =>
      if state ∈ raisedStates then
        (x.statements.get? drain.statementId).map (fun statement =>
          { x.setStatement drain.statementId { statement with
              state :=
                if statement.state.IsTerminal then statement.state
                else if good then .succeeded
                else state
              streamed := drain.streamed } with
            lane := .waiting })
      else none
  | _, _ => none

end Steps

/-! ### Runs -/

/-- What can happen at a console. -/
inductive Action (Row : Type) where
  | submit (statementId : Text) (pageSize maxResultRows : ℕ)
  | register (resultSetId : Text) (now : ℤ)
  | evict (listing : List Text) (now : ℤ)
  | deleteSpool (left : Option (SpoolDir Row))
  | accept
  | refuse
  | cancel (statementId : Text)
  | lose (statementId : Text) (state : ConsoleStatementState)
  | take
  | countOff
  | start (refused : Bool)
  | captureColumns (columns : List Text)
  | executed (raises : Bool)
  | stream (event : StreamEvent Row)
  | append (raises : Bool)
  | publish (raises : Bool) (now : ℤ)
  | mark (raises : Bool)
  | finalize (raises : Bool) (now : ℤ)
  | ends (state : ConsoleStatementState)

section Runs

variable {Row : Type}

/-- The console after an action, if it can happen. -/
def ResultsConsole.next (config : ResultsConfig Row) (x : ResultsConsole Row) :
    Action Row → Option (ResultsConsole Row)
  | .submit statementId pageSize maxResultRows => submit config x statementId pageSize maxResultRows
  | .register resultSetId now => register x resultSetId now
  | .evict listing now => evictConsoleResultsets config x listing now
  | .deleteSpool left => deleteSpool x left
  | .accept => accept x
  | .refuse => refuse x
  | .cancel statementId => cancel x statementId
  | .lose statementId state => lose x statementId state
  | .take => takeStatement x
  | .countOff => countOff x
  | .start refused => startStatement x refused
  | .captureColumns columns => captureColumns x columns
  | .executed raises => executed x raises
  | .stream event => readStream config x event
  | .append raises => appendBatch config x raises
  | .publish raises now => publishStreaming x raises now
  | .mark raises => markTruncated x raises
  | .finalize raises now => finalize x raises now
  | .ends state => endStatement x state

/-- The identifiers that are made are new. -/
def Action.Fresh (x : ResultsConsole Row) : Action Row → Prop
  | .submit statementId _ _ => x.statements.get? statementId = none
  | .register resultSetId _ => x.catalog.get? resultSetId = none
  | _ => True

/-- The runs of a console. -/
def resultsSystem (config : ResultsConfig Row) :
    TransitionSystem (ResultsConsole Row) (Action Row) where
  initial := fun x => x = {}
  step := fun x action x' => action.Fresh x ∧ x.next config action = some x'

end Runs

end Results

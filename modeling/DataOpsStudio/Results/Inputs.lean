import DataOpsStudio.Jobs.Table
import DataOpsStudio.Library.TransitionSystem
import DataOpsStudio.Results.Console
import DataOpsStudio.Results.HardLinks
import Mathlib.Order.WithBot

/-!
# Inputs of comparisons

A result is made an input of comparisons by capturing it: its spool is sealed as a snapshot, and a
row of the catalog says who may open it and until when it is kept.  To open an input extends the
time it is kept, so that there is time to hand in the job that reads it.  An input whose time has
come is deleted unless a comparison that waits or runs refers to it.

A capture is not one transaction: the origin is looked up, the snapshot is taken, and the row is
inserted.  Neither is the collection of garbage: inputs whose time has come are deleted, the inputs
that are left are listed, and then directories are removed that have not been changed for long and
are not on the list.  In between anything may happen.
-/

namespace Results

open Text Broker Workflow

/-! ### What is captured -/

structure ActorProject where
  actorId : Text
  projectId : Text
deriving DecidableEq

/-- What is raised when a result is captured or an input is opened. -/
inductive CompareResultInputError where
  | resultOriginNotFound
  | resultNotTerminal
  | resultNotComparable
  | resultPartialConfirmationRequired
  | resultColumnsNotUnique
  | resultGone
  | compareInputNotFound
  | compareInputExpired
  | compareInputDeleted
  | compareInputLost
  | snapshotCaptureFailed
  | valueError (message : Text)
deriving DecidableEq

/-- A statement of a console or a job, as it is looked up. -/
inductive OriginRow (Id : Type) where
  | statement (scope : ActorProject) (state : ConsoleStatementState) (resultSetId : Option Id)
  | job (scope : ActorProject) (status : JobStatus) (kind : Jobs.JobKind)
      (resultSetId : Option Id)

/-- The state of a result set in the catalog of results. -/
inductive SourceState where
  | streaming
  | complete
  | failed
  | closed
deriving DecidableEq

structure ResolvedOrigin (Id : Type) where
  resultSetId : Id
  allowFailedResultSet : Bool
  isPartial : Bool

section Resolve

variable {Id : Type}

def resolveStatement (scope owner : ActorProject) (state : ConsoleStatementState)
    (resultSetId : Option Id) : Except CompareResultInputError (ResolvedOrigin Id) :=
  if owner ≠ scope then .error .resultOriginNotFound
  else if state = .accepted ∨ state = .executing ∨ state = .streaming then
    .error .resultNotTerminal
  else
    match resultSetId with
    | none => .error .resultNotComparable
    | some id =>
        if state = .succeeded ∨ state = .cancelled ∨ state = .timeout then
          let isPartial : Bool := state = .cancelled ∨ state = .timeout
          .ok { resultSetId := id, allowFailedResultSet := isPartial, isPartial := isPartial }
        else .error .resultNotComparable

def resolveJob (scope owner : ActorProject) (status : JobStatus) (kind : Jobs.JobKind)
    (resultSetId : Option Id) : Except CompareResultInputError (ResolvedOrigin Id) :=
  if owner ≠ scope then .error .resultOriginNotFound
  else if status.isActive then .error .resultNotTerminal
  else if kind ≠ .sqlQuery ∨ status ≠ .success then .error .resultNotComparable
  else
    match resultSetId with
    | none => .error .resultNotComparable
    | some id => .ok { resultSetId := id, allowFailedResultSet := false, isPartial := false }

def resolveOrigin (scope : ActorProject) :
    Option (OriginRow Id) → Except CompareResultInputError (ResolvedOrigin Id)
  | none => .error .resultOriginNotFound
  | some (.statement owner state resultSetId) => resolveStatement scope owner state resultSetId
  | some (.job owner status kind resultSetId) => resolveJob scope owner status kind resultSetId

/-- The total of a result set that does not change any more. -/
def requireStableResultSet (allowFailed : Bool) :
    Option (SourceState × Option ℕ) → Except CompareResultInputError (Option ℕ)
  | none => .error .resultGone
  | some (.closed, _) => .error .resultGone
  | some (.streaming, _) => .error .resultNotTerminal
  | some (.failed, total) => if allowFailed then .ok total else .error .resultNotComparable
  | some (.complete, total) => .ok total

end Resolve

/-- The order of the times at which inputs expire, the last of which is never reached. -/
instance instPreorderExpiry : Preorder (WithTop ℤ) :=
  @WithTop.instPreorder ℤ
    (@PartialOrder.toPreorder ℤ (@LinearOrder.toPartialOrder ℤ Int.instLinearOrder))

/-- A row of the catalog of inputs. -/
structure CompareResultInput where
  scope : ActorProject
  columns : List Text
  loadedRows : ℕ
  totalRows : Option ℕ
  truncated : Bool
  hasMore : Bool
  ready : Bool := true
  expiresAt : WithTop ℤ
deriving DecidableEq

/-- The row for a snapshot, unless the snapshot cannot be compared. -/
def describeInput (ttl createdAt : ℤ) (scope : ActorProject) (allowPartial originPartial : Bool)
    (total : Option ℕ) (snapshot : SpoolManifest) :
    Except CompareResultInputError CompareResultInput :=
  if snapshot.columns.isEmpty then .error .resultNotComparable
  else if ¬snapshot.columns.Nodup then .error .resultColumnsNotUnique
  else if (originPartial || snapshot.truncated || snapshot.hasMore) && !allowPartial then
    .error .resultPartialConfirmationRequired
  else
    .ok {
      scope := scope
      columns := snapshot.columns
      loadedRows := snapshot.loadedRows
      totalRows := if originPartial then none else total
      truncated := snapshot.truncated || originPartial
      hasMore := snapshot.hasMore
      expiresAt := if ttl < 0 then ⊤ else ↑(createdAt + ttl) }

/-! ### The states -/

/-- A capture whose snapshot has been taken.  The row is still to be inserted, or the snapshot is
to be discarded. -/
structure Capture (Id : Type) where
  id : Id
  takenAt : ℤ
  input : Except CompareResultInputError CompareResultInput

/-- A list of spools to be kept, and when it was made. -/
structure GcRound (Id : Type) where
  keep : Id → Bool
  listedAt : ℤ

/-- A removal of directories that goes on. -/
structure GcScan (Id : Type) where
  keep : Id → Bool
  cutoff : ℤ

/-- An input that has been opened, and until when it is kept for that. -/
structure Lease (Id : Type) where
  id : Id
  scope : ActorProject
  retainUntil : ℤ

/-- A comparison that waits or runs, with the inputs it refers to. -/
structure CompareJob (Id : Type) where
  scope : ActorProject
  inputIds : List Id

/-- What is stored, and what goes on.  The rows that a result had when it was captured are noted. -/
structure InputState (Id Row : Type) where
  now : ℤ := 0
  store : CopyStore Id Row := {}
  mtime : Id → ℤ := fun _ => 0
  access : ActorProject → Bool := fun _ => false
  catalog : Id → Option CompareResultInput := fun _ => none
  captures : List (Capture Id) := []
  rounds : List (GcRound Id) := []
  scans : List (GcScan Id) := []
  leases : List (Lease Id) := []
  jobs : List (CompareJob Id) := []
  captured : Id → Option (List Row) := fun _ => none

/-- What happens to the files when an input is deleted: they are removed, or that fails, perhaps
when some of them have been removed. -/
inductive DeleteOutcome where
  | deleted
  | failed (isLost : Bool)

inductive InputAction (Id Row : Type) where
  | tick (now : ℤ)
  | setAccess (scope : ActorProject) (allowed : Bool)
  | write (op : StoreOp Id Row)
  | takeSnapshot (id : Id) (scope : ActorProject) (allowPartial : Bool)
      (origin : Option (OriginRow Id)) (resultSet : Option (SourceState × Option ℕ))
      (createdAt : ℤ) (linkable : ℕ → Bool)
  | insertInput (i : ℕ)
  | discardSnapshot (i : ℕ) (removed : Bool)
  | openInput (id : Id) (scope : ActorProject) (batchSize retainUntil : ℤ) (allowExpired : Bool)
  | enqueue (job : CompareJob Id)
  | finish (i : ℕ)
  | collectExpired (id : Id) (cutoff : ℤ) (outcome : DeleteOutcome)
  | listProtected (active : Id → Bool)
  | beginScan (i : ℕ)
  | removeDir (i : ℕ) (id : Id)

/-- The spool that an operation writes to. -/
def StoreOp.written {Id Row : Type} : StoreOp Id Row → Option Id
  | .read _ => none
  | .append id _ => some id
  | .appendInterrupted id _ _ => some id
  | .markTruncated id => some id
  | .setPagination id _ => some id
  | .setColumns id _ => some id
  | .snapshot _ target _ => some target
  | .delete id => some id

namespace InputState

variable {Id Row : Type}

/-- A comparison that waits or runs refers to the input. -/
def isReferenced [DecidableEq Id] (s : InputState Id Row) (id : Id) : Bool :=
  s.jobs.any fun job => decide (id ∈ job.inputIds)

/-- The input is ready. -/
def isReady (s : InputState Id Row) (id : Id) : Bool :=
  (s.catalog id).any (·.ready)

/-- Whether there is a manifest. -/
def spoolExists (s : InputState Id Row) (id : Id) : Bool :=
  (s.store.dir id).manifest.isSome

variable [DecidableEq Id]

def setRow (s : InputState Id Row) (id : Id) (row : CompareResultInput) : InputState Id Row :=
  { s with catalog := Function.update s.catalog id (some row) }

def removeSpool (s : InputState Id Row) (id : Id) : InputState Id Row :=
  { s with store := { dirs := Function.update s.store.dirs id none } }

/-- Opens an input: the row as it is then, and the state in which it is kept for longer. -/
def openInput (s : InputState Id Row) (id : Id) (scope : ActorProject)
    (batchSize retainUntil : ℤ) (allowExpired : Bool) :
    Except CompareResultInputError (CompareResultInput × InputState Id Row) :=
  if batchSize ≤ 0 then .error (.valueError "batch_size must be positive".toList)
  else if retainUntil ≤ s.now then
    .error (.valueError "retain_until must be in the future".toList)
  else if !s.access scope then .error .resultOriginNotFound
  else
    match s.catalog id with
    | none => .error .compareInputNotFound
    | some row =>
        if row.scope ≠ scope then .error .compareInputNotFound
        else if !row.ready then .error .compareInputDeleted
        else if row.expiresAt ≤ ↑s.now ∧ !allowExpired then .error .compareInputExpired
        else if !s.spoolExists id then .error .compareInputLost
        else
          let row := { row with expiresAt := max row.expiresAt ↑retainUntil }
          .ok (row, s.setRow id row)

/-- The next batch of an input that has been opened; nothing when as many rows have been read as
the row says there are. -/
def nextBatch (s : InputState Id Row) (id : Id) (loadedRows batchSize offset : ℕ) :
    Except CompareResultInputError (Option (List Row)) :=
  if offset < loadedRows then
    match fetchRange (s.store.dir id) offset batchSize with
    | [] => .error .compareInputLost
    | row :: rows => .ok (some (row :: rows))
  else .ok none

/-- Reads an input from `offset` on, each batch in the next of the states; also says whether all
its rows have been read. -/
def readBatches (id : Id) (loadedRows batchSize : ℕ) :
    List (InputState Id Row) → ℕ → Except CompareResultInputError (List Row × Bool)
  | [], _ => .ok ([], false)
  | s :: states, offset =>
      match s.nextBatch id loadedRows batchSize offset with
      | .error e => .error e
      | .ok none => .ok ([], true)
      | .ok (some batch) =>
          (readBatches id loadedRows batchSize states (offset + batch.length)).map fun read =>
            (batch ++ read.1, read.2)

variable (limits : SpoolLimits Row) (ttl : ℤ)

/-- Takes the snapshot of a result under an identifier that has not been used. -/
def takeSnapshot (s : InputState Id Row) (id : Id) (scope : ActorProject) (allowPartial : Bool)
    (origin : Option (OriginRow Id)) (resultSet : Option (SourceState × Option ℕ))
    (createdAt : ℤ) (linkable : ℕ → Bool) : Option (InputState Id Row) := do
  guard (s.access scope ∧ createdAt ≤ s.now ∧ s.captured id = none)
  let resolved ← (resolveOrigin scope origin).toOption
  let total ← (requireStableResultSet resolved.allowFailedResultSet resultSet).toOption
  let store ← (s.store.step limits (.snapshot resolved.resultSetId id linkable)).toOption
  some { s with
    store := store
    mtime := Function.update s.mtime id s.now
    captured := Function.update s.captured id (some (s.store.dir resolved.resultSetId).rows)
    captures := s.captures ++ [{
      id := id
      takenAt := s.now
      input := describeInput ttl createdAt scope allowPartial resolved.isPartial total
        (store.dir id).readManifest }] }

/-- The state after an action, if it can happen.  Spools that have been captured are not written
to by anything else. -/
def next (s : InputState Id Row) : InputAction Id Row → Option (InputState Id Row)
  | .tick now => if s.now ≤ now then some { s with now := now } else none
  | .setAccess scope allowed =>
      some { s with access := Function.update s.access scope allowed }
  | .write op => do
      guard (∀ id, op.written = some id → s.captured id = none)
      let store ← (s.store.step limits op).toOption
      some { s with
        store := store
        mtime := fun id =>
          if op.written = some id ∨ s.store.dirs id = none then s.now else s.mtime id }
  | .takeSnapshot id scope allowPartial origin resultSet createdAt linkable =>
      s.takeSnapshot limits ttl id scope allowPartial origin resultSet createdAt linkable
  | .insertInput i => do
      let capture ← s.captures[i]?
      let input ← capture.input.toOption
      some { s.setRow capture.id input with captures := s.captures.eraseIdx i }
  | .discardSnapshot i removed => do
      let capture ← s.captures[i]?
      some { (if removed then s.removeSpool capture.id else s) with
        captures := s.captures.eraseIdx i }
  | .openInput id scope batchSize retainUntil allowExpired => do
      let opened ← (s.openInput id scope batchSize retainUntil allowExpired).toOption
      some { opened.2 with
        leases := { id := id, scope := scope, retainUntil := retainUntil } :: s.leases }
  | .enqueue job =>
      if ∀ id ∈ job.inputIds,
          ∃ lease ∈ s.leases, lease.id = id ∧ lease.scope = job.scope ∧ s.now < lease.retainUntil
      then some { s with jobs := job :: s.jobs }
      else none
  | .finish i => some { s with jobs := s.jobs.eraseIdx i }
  | .collectExpired id cutoff outcome => do
      let row ← s.catalog id
      guard (cutoff ≤ s.now ∧ row.ready ∧ row.expiresAt ≤ ↑cutoff ∧ s.isReferenced id = false)
      match outcome with
      | .deleted => some ((s.removeSpool id).setRow id { row with ready := false })
      | .failed isLost => some (if isLost then s.removeSpool id else s)
  | .listProtected active =>
      some { s with
        rounds := { keep := fun id => active id || s.isReady id, listedAt := s.now } :: s.rounds }
  | .beginScan i => do
      let round ← s.rounds[i]?
      guard (0 ≤ ttl)
      some { s with
        rounds := s.rounds.eraseIdx i
        scans := { keep := round.keep, cutoff := s.now - ttl } :: s.scans }
  | .removeDir i id => do
      let scan ← s.scans[i]?
      guard (scan.keep id = false ∧ s.mtime id < scan.cutoff)
      some (s.removeSpool id)

end InputState

end Results

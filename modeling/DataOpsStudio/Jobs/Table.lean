import DataOpsStudio.Library.Dict
import DataOpsStudio.Workflow.Execution
import Mathlib.Data.List.Sort

/-!
# The table of jobs

Jobs wait in a table until a worker takes them up.  A worker writes its name into the row when it
claims a job, says from time to time that it is still there, and writes the outcome in the end.
Every operation is one transaction: an update of the rows that meet a condition, with an event for
each of them.

An update names the rows by identifier and guards them by status and worker; the row has no number
for the attempt that is being made.  A selection that locks rows passes over those another
transaction has locked.
-/

namespace Jobs

open Text Workflow

/-! ### Rows -/

/-- The kinds of jobs. -/
inductive JobKind where
  | sqlQuery
  | testConnection
  | sqlExplain
  | compareRun
  | resultExport
  | exportExcel
  | scenarioMaterialize
  | scenarioRunAll
  | workflowRun
  | notify
  | sleep
  | branch
  | workflowSensorCheck
  | aiAssistCall
  | aiCopilotRun
  | lineageAnalyze
  | lineageBatch
  | metadataSync
deriving DecidableEq

/-- A job as it is handed in. -/
structure Job where
  id : Text
  kind : JobKind
  priority : ℤ := 0
  availableAt : ℤ
  resultRef : Option ResultRef := none
  cancelRequested : Bool := false
  cancelReason : Option Text := none
  error : Option Text := none
  retryCount : ℕ := 0
  payload : Dict Text PyObject := Dict.empty
  parentWorkflowRunId : Option Text := none

/-- A row of the table `jobs`.  Times are in microseconds. -/
structure JobRow where
  kind : JobKind
  status : JobStatus := .pending
  priority : ℤ := 0
  createdAt : ℤ
  availableAt : ℤ
  resultRef : Option ResultRef := none
  workerId : Option Text := none
  lastHeartbeat : Option ℤ := none
  startedAt : Option ℤ := none
  finishedAt : Option ℤ := none
  cancelRequested : Bool := false
  cancelReason : Option Text := none
  error : Option Text := none
  errorCode : Option Text := none
  retryCount : ℕ := 0
  payload : Dict Text PyObject := Dict.empty
  parentWorkflowRunId : Option Text := none

/-- A row of the table `job_events`. -/
structure JobEvent where
  jobId : Text
  eventType : Text
  message : Option Text := none
deriving DecidableEq

/-- The row of a job that is handed in. -/
def Job.row (job : Job) (now : ℤ) : JobRow where
  kind := job.kind
  priority := job.priority
  createdAt := now
  availableAt := job.availableAt
  resultRef := job.resultRef
  cancelRequested := job.cancelRequested
  cancelReason := job.cancelReason
  error := job.error
  retryCount := job.retryCount
  payload := job.payload
  parentWorkflowRunId := job.parentWorkflowRunId

namespace JobRow

/-- The node of a workflow that the job is for: `payload->>'workflow_node_id'`. -/
def workflowNodeId (row : JobRow) : Option Text :=
  (row.payload.get? "workflow_node_id".toList).bind PyObject.str?

/-- Whether the job writes: `payload->>'sql_write' = 'true'`. -/
def sqlWrite (row : JobRow) : Bool :=
  match row.payload.get? "sql_write".toList with
  | some (.bool b) => b
  | some (.str s) => s = "true".toList
  | _ => false

/-- Whether the last sign of life lies further back than the timeout. -/
def stale (now heartbeatTimeoutSeconds : ℤ) (row : JobRow) : Bool :=
  match row.lastHeartbeat with
  | some heartbeat => heartbeat < now - heartbeatTimeoutSeconds * 1000000
  | none => false

/-- Whether the row is in the hands of a worker. -/
def ownedBy (workerId : Text) (row : JobRow) : Bool :=
  row.workerId = some workerId ∧ row.status = .running

/-! ### What the updates set -/

def claimed (workerId : Text) (now : ℤ) (row : JobRow) : JobRow :=
  { row with
    status := .running
    workerId := some workerId
    startedAt := some now
    lastHeartbeat := some now }

def completed (result : ResultRef) (now : ℤ) (row : JobRow) : JobRow :=
  { row with
    status := .success
    resultRef := some result
    finishedAt := some now
    error := none }

def failed (error : Text) (now : ℤ) (row : JobRow) : JobRow :=
  { row with status := .failed, error := some error, finishedAt := some now }

def cancelled (reason : Text) (now : ℤ) (row : JobRow) : JobRow :=
  { row with
    status := .cancelled
    cancelRequested := true
    cancelReason := some reason
    finishedAt := some now }

/-- The row waits for a worker again. -/
def yielded (row : JobRow) : JobRow :=
  { row with status := .pending, workerId := none, startedAt := none, lastHeartbeat := none }

def retried (now : ℤ) (row : JobRow) : JobRow :=
  { row.yielded with
    finishedAt := none
    error := none
    errorCode := none
    availableAt := now
    retryCount := row.retryCount + 1 }

def requeued (row : JobRow) : JobRow :=
  { row.yielded with retryCount := row.retryCount + 1, error := none }

/-! ### The orders of selections -/

/-- `ORDER BY priority DESC, created_at ASC`. -/
def queueOrder (row row' : JobRow) : Bool :=
  row'.priority < row.priority ∨ row.priority = row'.priority ∧ row.createdAt ≤ row'.createdAt

/-- `ORDER BY last_heartbeat ASC`. -/
def heartbeatOrder (row row' : JobRow) : Bool :=
  match row.lastHeartbeat, row'.lastHeartbeat with
  | some heartbeat, some heartbeat' => heartbeat ≤ heartbeat'
  | _, none => true
  | none, some _ => false

end JobRow

/-! ### Tables -/

/-- The tables `jobs` and `job_events`. -/
structure JobTables where
  jobs : Dict Text JobRow := Dict.empty
  events : List JobEvent := []

namespace JobTables

/-- The rows that meet a condition, among one identifier. -/
def whereId (tables : JobTables) (jobId : Text) (condition : JobRow → Bool) : List Text :=
  match tables.jobs.get? jobId with
  | some row => if condition row then [jobId] else []
  | none => []

/-- `SELECT id … WHERE … ORDER BY … FOR UPDATE SKIP LOCKED LIMIT …`.  The rows are read in some
order, which says how equal ones are sorted. -/
def selectForUpdate (tables : JobTables) (scan locked : List Text) (condition : JobRow → Bool)
    (order : JobRow → JobRow → Bool) (limit : ℕ) : List Text :=
  let rows := scan.filterMap fun jobId => (tables.jobs.get? jobId).map fun row => (jobId, row)
  let sorted := (rows.filter fun item => condition item.2).insertionSort
    fun item item' => order item.2 item'.2 = true
  ((sorted.filter fun item => !locked.contains item.1).take limit).map Prod.fst

/-- Sets values in rows, and writes events for each of them. -/
def update (tables : JobTables) (jobIds : List Text) (values : JobRow → JobRow)
    (events : Text → List JobEvent) : JobTables where
  jobs := tables.jobs.mapItems fun jobId row => if jobIds.contains jobId then values row else row
  events := tables.events ++ jobIds.flatMap events

/-- Whether the job of a node of a run is there already. -/
def hasNode (tables : JobTables) (parent nodeId : Option Text) : Bool :=
  parent.isSome && nodeId.isSome
    && tables.jobs.values.any fun row =>
      row.parentWorkflowRunId = parent ∧ row.workflowNodeId = nodeId

/-! ### Operations -/

section Operations

variable (tables : JobTables) (now : ℤ)

/-- A job is handed in.  Identifiers are unique, and so are the jobs of the nodes of a run. -/
def enqueue (job : Job) : Except Text JobTables :=
  let row := job.row now
  if tables.jobs.contains job.id ∨ tables.hasNode row.parentWorkflowRunId row.workflowNodeId then
    .error "IntegrityError".toList
  else
    .ok {
      jobs := tables.jobs.set job.id row
      events := tables.events ++ [{ jobId := job.id, eventType := "enqueued".toList }] }

/-- The job that is claimed next, if there is one. -/
def nextJob (scan locked : List Text) : Option Text :=
  (tables.selectForUpdate scan locked
    (fun row => row.status = .pending ∧ row.availableAt ≤ now) JobRow.queueOrder 1).head?

/-- A worker claims a job. -/
def claim (jobId workerId : Text) : JobTables :=
  tables.update [jobId] (JobRow.claimed workerId now) fun jobId =>
    [{ jobId := jobId
       eventType := "claimed".toList
       message := some ("worker=".toList ++ workerId) }]

def complete (jobId workerId : Text) (result : ResultRef) : JobTables :=
  tables.update (tables.whereId jobId (JobRow.ownedBy workerId)) (JobRow.completed result now)
    fun jobId => [{ jobId := jobId, eventType := "completed".toList }]

/-- Progress is published without an event. -/
def updateResultRef (jobId workerId : Text) (result : ResultRef) : JobTables :=
  tables.update (tables.whereId jobId (JobRow.ownedBy workerId))
    (fun row => { row with resultRef := some result }) fun _ => []

def fail (jobId workerId error : Text) : JobTables :=
  tables.update (tables.whereId jobId (JobRow.ownedBy workerId)) (JobRow.failed error now)
    fun jobId => [{ jobId := jobId, eventType := "failed".toList, message := some error }]

def heartbeat (jobId workerId : Text) : JobTables :=
  tables.update (tables.whereId jobId (JobRow.ownedBy workerId))
    (fun row => { row with lastHeartbeat := some now }) fun _ => []

def markCancelled (jobId workerId reason : Text) : JobTables :=
  tables.update (tables.whereId jobId (JobRow.ownedBy workerId)) (JobRow.cancelled reason now)
    fun jobId => [{ jobId := jobId, eventType := "cancelled".toList, message := some reason }]

/-- The executor of a run gives way after a step, without an event. -/
def requeueWorkflowRun (jobId workerId : Text) (availableAt : Option ℤ) : JobTables :=
  tables.update (tables.whereId jobId (JobRow.ownedBy workerId))
    (fun row => { row.yielded with availableAt := availableAt.getD now }) fun _ => []

/-- An event needs a job to refer to. -/
def requestCancel (jobId : Text) : Except Text JobTables :=
  if tables.jobs.contains jobId then
    .ok (tables.update [jobId]
      (fun row => { row with cancelRequested := true, cancelReason := some "requested".toList })
      fun jobId => [{ jobId := jobId, eventType := "cancel_requested".toList }])
  else .error "IntegrityError".toList

def retryWorkflowNode (jobId : Text) : JobTables :=
  tables.update (tables.whereId jobId fun row => row.status = .failed ∨ row.status = .timeout)
    (JobRow.retried now) fun jobId =>
      [{ jobId := jobId, eventType := "workflow_node_retry".toList }]

def cancelPendingJob (jobId reason : Text) : JobTables :=
  tables.update (tables.whereId jobId fun row => row.status = .pending)
    (JobRow.cancelled reason now) fun jobId =>
      [{ jobId := jobId, eventType := "cancelled".toList, message := some reason }]

/-! ### The reaper -/

/-- The runs whose worker has not been heard of. -/
def staleWorkflowRuns (scan locked : List Text) (heartbeatTimeoutSeconds : ℤ) (limit : ℕ) :
    List Text :=
  tables.selectForUpdate scan locked
    (fun row => row.status = .running ∧ row.kind = .workflowRun
      ∧ row.stale now heartbeatTimeoutSeconds)
    JobRow.heartbeatOrder limit

def requeueStaleWorkflowRuns (jobIds : List Text) : JobTables :=
  tables.update jobIds JobRow.yielded fun jobId =>
    [{ jobId := jobId, eventType := "workflow_run_resumed_after_stale_heartbeat".toList }]

/-- The other jobs whose worker has not been heard of, as far as they may be tried again. -/
def retryableStaleJobs (scan locked : List Text) (heartbeatTimeoutSeconds : ℤ)
    (jobDefaultMaxRetries limit : ℕ) : List Text :=
  tables.selectForUpdate scan locked
    (fun row => row.status = .running ∧ row.kind ≠ .workflowRun
      ∧ row.stale now heartbeatTimeoutSeconds ∧ row.retryCount < jobDefaultMaxRetries
      ∧ row.sqlWrite = false)
    JobRow.heartbeatOrder limit

def requeueStaleJobs (jobIds : List Text) : JobTables :=
  tables.update jobIds JobRow.requeued fun jobId =>
    [{ jobId := jobId, eventType := "requeued_after_stale_heartbeat".toList }]

/-- The other jobs whose worker has not been heard of. -/
def staleJobs (scan locked : List Text) (heartbeatTimeoutSeconds : ℤ) (limit : ℕ) : List Text :=
  tables.selectForUpdate scan locked
    (fun row => row.status = .running ∧ row.kind ≠ .workflowRun
      ∧ row.stale now heartbeatTimeoutSeconds)
    JobRow.heartbeatOrder limit

def failStaleJobs (jobIds : List Text) : JobTables :=
  tables.update jobIds (JobRow.failed "worker heartbeat timed out".toList now) fun jobId =>
    [{ jobId := jobId, eventType := "failed_after_stale_heartbeat".toList }]

end Operations

/-! ### What selections and updates do -/

section Lemmas

variable {tables : JobTables}

@[simp]
theorem get?_update (jobIds : List Text) (values : JobRow → JobRow)
    (events : Text → List JobEvent) (jobId : Text) :
  (tables.update jobIds values events).jobs.get? jobId
    = (tables.jobs.get? jobId).map fun row =>
        if jobIds.contains jobId then values row else row
  := by
  rw [update, Dict.get?_mapItems]

theorem update_nil (values : JobRow → JobRow) (events : Text → List JobEvent) :
  tables.update [] values events = tables
  := by
  have hjobs : (tables.update [] values events).jobs = tables.jobs := by
    rw [update, Dict.mapItems, Dict.mk.injEq]
    simp
  have hevents : (tables.update [] values events).events = tables.events :=
    List.append_nil _
  rw [JobTables.mk.injEq]
  exact ⟨hjobs, hevents⟩

theorem mem_whereId {jobId jobId' : Text} {condition : JobRow → Bool} :
  jobId' ∈ tables.whereId jobId condition
    ↔ jobId' = jobId ∧ ∃ row, tables.jobs.get? jobId = some row ∧ condition row = true
  := by
  rw [whereId]
  split
  · rename_i row hrow
    split
    · rename_i hcondition
      rw [List.mem_singleton]
      constructor
      · intro h
        exact ⟨h, row, hrow, hcondition⟩
      · rintro ⟨h, -⟩
        apply h
    · rename_i hcondition
      constructor
      · nofun
      · rintro ⟨-, row', hrow', h⟩
        obtain rfl := Option.some.inj (hrow.symm.trans hrow')
        exact (hcondition h).elim
  · rename_i hnone
    constructor
    · nofun
    · rintro ⟨-, row', hrow', -⟩
      cases hnone.symm.trans hrow'

/-- The rows that may be selected. -/
theorem mem_candidates {scan locked : List Text} {condition : JobRow → Bool}
    {order : JobRow → JobRow → Bool} {item : Text × JobRow} :
  item ∈ (((scan.filterMap fun jobId => (tables.jobs.get? jobId).map fun row =>
        (jobId, row)).filter fun item => condition item.2).insertionSort
      fun item item' => order item.2 item'.2 = true).filter (fun item => !locked.contains item.1)
    ↔ item.1 ∈ scan ∧ tables.jobs.get? item.1 = some item.2 ∧ condition item.2 = true
      ∧ item.1 ∉ locked
  := by
  rw [List.mem_filter, List.mem_insertionSort, List.mem_filter, List.mem_filterMap]
  constructor
  · rintro ⟨⟨⟨jobId, hscan, hget⟩, hcondition⟩, hlocked⟩
    obtain ⟨row, hrow, rfl⟩ := Option.map_eq_some_iff.mp hget
    exact ⟨hscan, hrow, hcondition, by simpa using hlocked⟩
  · rintro ⟨hscan, hget, hcondition, hlocked⟩
    refine ⟨⟨⟨item.1, hscan, ?_⟩, hcondition⟩, by simpa using hlocked⟩
    rw [hget]
    rfl

/-- A row that is selected meets the condition and is not locked. -/
theorem of_mem_selectForUpdate {scan locked : List Text} {condition : JobRow → Bool}
    {order : JobRow → JobRow → Bool} {limit : ℕ} {jobId : Text}
    (h : jobId ∈ tables.selectForUpdate scan locked condition order limit) :
  ∃ row, tables.jobs.get? jobId = some row ∧ condition row = true ∧ jobId ∉ locked
  := by
  obtain ⟨item, hitem, rfl⟩ := List.mem_map.mp h
  obtain ⟨-, hget, hcondition, hlocked⟩ := mem_candidates.mp (List.mem_of_mem_take hitem)
  exact ⟨item.2, hget, hcondition, hlocked⟩

/-- A selection that does not reach its limit has all rows that meet the condition and are not
locked. -/
theorem mem_selectForUpdate {scan locked : List Text} {condition : JobRow → Bool}
    {order : JobRow → JobRow → Bool} {limit : ℕ} {jobId : Text} {row : JobRow}
    (hshort : (tables.selectForUpdate scan locked condition order limit).length < limit)
    (hscan : jobId ∈ scan) (hget : tables.jobs.get? jobId = some row)
    (hcondition : condition row = true) (hlocked : jobId ∉ locked) :
  jobId ∈ tables.selectForUpdate scan locked condition order limit
  := by
  rw [selectForUpdate, List.length_map, List.length_take] at hshort
  replace hshort := (min_lt_iff.mp hshort).resolve_left (Nat.lt_irrefl limit)
  rw [selectForUpdate, List.take_of_length_le hshort.le]
  exact List.mem_map.mpr ⟨(jobId, row), mem_candidates.mpr ⟨hscan, hget, hcondition, hlocked⟩, rfl⟩

theorem enqueue_eq_ok {now : ℤ} {job : Job} {tables' : JobTables}
    (h : tables.enqueue now job = .ok tables') :
  tables.jobs.get? job.id = none
    ∧ tables.hasNode job.parentWorkflowRunId (job.row now).workflowNodeId = false
    ∧ tables'.jobs = tables.jobs.set job.id (job.row now)
  := by
  rw [enqueue] at h
  split at h
  · cases h
  · rename_i hfree
    obtain ⟨hid, hnode⟩ := not_or.mp hfree
    obtain rfl := Except.ok.inj h
    refine ⟨?_, Bool.eq_false_iff.mpr hnode, rfl⟩
    simpa [Dict.contains] using hid

end Lemmas

end JobTables

end Jobs

import DataOpsStudio.Library.TransitionSystem
import DataOpsStudio.Workflow.Locality

/-!
# Runs of a workflow

A run is a list of jobs, one per node that has been enqueued.  The executor plans a step and
carries it out: it creates jobs, tries failed ones again and cancels pending ones, and it
stops when the plan says how the run has ended.  In between jobs are taken up by workers and
come to an end.  Along every run a node has at most one job, and that only after its parents
are done; a node that is done stays as it is; and no job is tried again more often than its
node allows.
-/

namespace Workflow

open Text

/-! ### Jobs -/

/-- A job of a run. -/
structure JobRow where
  nodeId : Text
  jobId : Text
  kind : NodeKind
  payload : Dict Text PyObject := Dict.empty
  status : JobStatus := .pending
  retryCount : ℤ := 0
  finishedAt : Option ℤ := none
  error : Option Text := none
  errorCode : Option Text := none
  resultRef : Option ResultRef := none

/-- What the planner sees of a job. -/
def JobRow.snapshot (row : JobRow) : WorkflowChildJob where
  nodeId := row.nodeId
  jobId := row.jobId
  status := row.status
  retryCount := row.retryCount
  finishedAt := row.finishedAt
  error := row.error
  errorCode := row.errorCode
  outputs := extractWorkflowNodeOutputs row.kind row.resultRef

/-- The jobs of a run by node; a later job replaces an earlier one. -/
def workflowChildrenSnapshots (rows : List JobRow) : Dict Text WorkflowChildJob :=
  Dict.ofList (rows.map (fun row => (row.nodeId, row.snapshot)))

/-- What happens to a job outside the executor. -/
inductive ChildMove where
  | start
  | report (result : ResultRef)
  | finish (status : JobStatus) (result : Option ResultRef) (error errorCode : Option Text)
      (finishedAt : ℤ)
  | cancel (finishedAt : ℤ)

/-- A pending job is started or cancelled, a running one reports a result or ends. -/
def JobRow.move (row : JobRow) : ChildMove → JobRow
  | .start => if row.status = .pending then { row with status := .running } else row
  | .report result =>
      if row.status = .running then { row with resultRef := some result } else row
  | .finish status result error errorCode finishedAt =>
      if row.status = .running ∧ status.isActive = false then
        { row with
          status := status
          resultRef := result
          error := error
          errorCode := errorCode
          finishedAt := some finishedAt }
      else row
  | .cancel finishedAt =>
      if row.status = .pending then
        { row with status := .cancelled, finishedAt := some finishedAt }
      else row

/-- A failed job is pending again. -/
def JobRow.retry (row : JobRow) : JobRow :=
  if row.status = .failed ∨ row.status = .timeout then
    { row with
      status := .pending
      finishedAt := none
      error := none
      errorCode := none
      retryCount := row.retryCount + 1 }
  else row

/-- Changes the job of an identifier. -/
def updateJob (f : JobRow → JobRow) (rows : List JobRow) (jobId : Text) : List JobRow :=
  rows.map (fun row => if row.jobId = jobId then f row else row)

/-! ### The executor -/

/-- The payload of a branch names the target the plan selected. -/
def withSelectedTarget (node : WorkflowNode) (nodeOutputs : NodeOutputMap)
    (payload : Dict Text PyObject) : Except Text (Dict Text PyObject) :=
  if node.jobKind = .branch then
    match ((nodeOutputs.get? node.id).bind (fun fields =>
        fields.get? "selected_target".toList)).bind PyObject.str? with
    | some (c :: target) => .ok (payload.set "selected_target".toList (.str (c :: target)))
    | _ => .error "branch_selected_target_missing".toList
  else .ok payload

/-- The payload of a query names the result set it fills. -/
def withResultSetId (node : WorkflowNode) (jobId : Text) (payload : Dict Text PyObject) :
    Dict Text PyObject :=
  if node.jobKind = .sqlQuery ∨ node.jobKind = .sqlExplain then
    match (payload.get? "result_set_id".toList).bind PyObject.str? with
    | some (_ :: _) => payload
    | _ => payload.set "result_set_id".toList (.str jobId)
  else payload

/-- The job of a node that is enqueued. -/
def buildWorkflowChildJob (vars : Variables) (nodeOutputs : NodeOutputMap) (node : WorkflowNode)
    (jobId : Text) : Except Text JobRow := do
  let rendered ← interpolatePayload node.payload vars nodeOutputs
  let payload ← withSelectedTarget node nodeOutputs
    (rendered.set "workflow_node_id".toList (.str node.id))
  return {
    nodeId := node.id
    jobId := jobId
    kind := node.jobKind
    payload := withResultSetId node jobId payload }

section System

variable {rt : WhenRuntime} (spec : WorkflowSpec rt) (vars : Variables) (defaultMaxRetries : ℕ)

/-- Creates the jobs of nodes one after the other, and says whether all could be built. -/
def enqueueChildren (nodeOutputs : NodeOutputMap) (newJobId : Text → Text) :
    List Text → List JobRow → List JobRow × Bool
  | [], rows => (rows, true)
  | nodeId :: rest, rows =>
      match lookupNode spec.nodes nodeId with
      | .error _ => (rows, false)
      | .ok node =>
          match buildWorkflowChildJob vars nodeOutputs node (newJobId nodeId) with
          | .error _ => (rows, false)
          | .ok row => enqueueChildren nodeOutputs newJobId rest (rows ++ [row])

/-- A run: its jobs, and whether the executor has stopped. -/
structure RunState where
  rows : List JobRow := []
  stopped : Bool := false

/-- Carries out a plan. -/
def executePlan (plan : WorkflowStepPlan) (newJobId : Text → Text) (now : ℤ) (s : RunState) :
    RunState :=
  let enqueued := enqueueChildren spec vars (outputContext plan.nodeStates) newJobId
    plan.enqueueNodeIds s.rows
  if enqueued.2 then
    { rows := plan.cancelJobIds.foldl (updateJob (fun row => row.move (.cancel now)))
        (plan.retryJobIds.foldl (updateJob JobRow.retry) enqueued.1)
      stopped := plan.runStatus.isSome }
  else { rows := enqueued.1, stopped := true }

/-- What can happen in a run: the executor takes a step at some time with identifiers for the
jobs it creates, or a job moves. -/
inductive RunAction where
  | execute (now : ℤ) (newJobId : Text → Text)
  | child (jobId : Text) (move : ChildMove)

/-- The plan of the executor at some time. -/
def RunState.plan (s : RunState) (now : ℤ) : Except Text WorkflowStepPlan :=
  planWorkflowStep spec (workflowChildrenSnapshots s.rows) now defaultMaxRetries vars

/-- What an action does. -/
def RunState.perform (s : RunState) : RunAction → Except Text RunState
  | .execute now newJobId =>
      if s.stopped then .error "stopped".toList
      else do
        let plan ← s.plan spec vars defaultMaxRetries now
        return executePlan spec vars plan newJobId now s
  | .child jobId move =>
      .ok { s with rows := updateJob (fun row => row.move move) s.rows jobId }

/-- The identifiers of new jobs differ from each other and from those of the jobs there are. -/
def RunAction.Fresh (s : RunState) : RunAction → Prop
  | .execute _ newJobId =>
      Function.Injective newJobId ∧ ∀ row ∈ s.rows, ∀ nodeId, newJobId nodeId ≠ row.jobId
  | .child _ _ => True

/-- The runs of a workflow. -/
def runSystem : TransitionSystem RunState RunAction where
  initial := fun s => s = {}
  step := fun s a t => s.perform spec vars defaultMaxRetries a = .ok t ∧ a.Fresh s

end System

end Workflow

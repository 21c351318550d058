import DataOpsStudio.Jobs.System
import DataOpsStudio.Workflow.Run

/-!
# Executors of workflow runs

The run of a workflow is a job like any other.  The worker that claims it reads the jobs of its
nodes, plans a step, and carries it out: it hands in jobs for some nodes, has failed ones tried
again, and cancels others, each in a transaction of its own.  Nothing holds the executor to the
state of affairs it planned for.  Its claim may be taken away while it is still at work, and another
executor may have planned and carried out steps meanwhile.
-/

namespace Jobs

open Text Workflow

/-! ### The jobs of nodes -/

/-- The kind of the jobs of a node. -/
def JobKind.ofNode : NodeKind → JobKind
  | .sqlQuery => .sqlQuery
  | .sqlExplain => .sqlExplain
  | .compareRun => .compareRun
  | .lineageAnalyze => .lineageAnalyze
  | .exportExcel => .exportExcel
  | .notify => .notify
  | .sleep => .sleep
  | .branch => .branch

/-- The kind of node that a job may be for. -/
def JobKind.node : JobKind → Option NodeKind
  | .sqlQuery => some .sqlQuery
  | .sqlExplain => some .sqlExplain
  | .compareRun => some .compareRun
  | .lineageAnalyze => some .lineageAnalyze
  | .exportExcel => some .exportExcel
  | .notify => some .notify
  | .sleep => some .sleep
  | .branch => some .branch
  | _ => none

/-- What the planner sees of a row, under the node it is for. -/
def JobRow.snapshot (jobId : Text) (row : JobRow) : Option (Text × WorkflowChildJob) :=
  match row.workflowNodeId with
  | some (c :: rest) =>
      some (c :: rest, {
        nodeId := c :: rest
        jobId := jobId
        status := row.status
        retryCount := row.retryCount
        finishedAt := row.finishedAt
        error := row.error
        errorCode := row.errorCode
        outputs := match row.kind.node with
          | some kind => extractWorkflowNodeOutputs kind row.resultRef
          | none => Dict.empty })
  | _ => none

/-- The jobs of the nodes of a run, the oldest first.  The rows are read in some order. -/
def JobTables.listJobsByParent (tables : JobTables) (scan : List Text) (runId : Text) :
    List (Text × JobRow) :=
  let rows := scan.filterMap fun jobId => (tables.jobs.get? jobId).map fun row => (jobId, row)
  (rows.filter fun item => item.2.parentWorkflowRunId = some runId).insertionSort
    fun item item' => item.2.createdAt ≤ item'.2.createdAt

/-- What the planner sees of a run. -/
def workflowChildrenSnapshots (children : List (Text × JobRow)) : Dict Text WorkflowChildJob :=
  Dict.ofList (children.filterMap fun item => item.2.snapshot item.1)

/-- When the job of a node is available: a node that sleeps does so by waiting in the table. -/
def childAvailableAt (now : ℤ) (child : Workflow.JobRow) : Except Text ℤ :=
  if child.kind = .sleep then
    match child.payload.get? "duration_seconds".toList with
    | some (.int seconds) =>
        if 1 ≤ seconds ∧ seconds ≤ 86400 then .ok (now + seconds * 1000000)
        else .error "Job payload requires duration_seconds in range 1..86400".toList
    | _ => .error "Job payload requires duration_seconds in range 1..86400".toList
  else .ok now

/-- The job of a node, as the executor of a run hands it in. -/
def childJob (runId : Text) (priority availableAt : ℤ) (child : Workflow.JobRow) : Job where
  id := child.jobId
  kind := .ofNode child.kind
  priority := priority + 1
  availableAt := availableAt
  payload := child.payload
  parentWorkflowRunId := some runId

/-! ### The executor -/

/-- A transaction that an executor has still to make. -/
inductive ExecutorOp where
  | enqueue (runId : Text) (priority availableAt : ℤ) (child : Workflow.JobRow)
  | retryWorkflowNode (jobId : Text)
  | requestCancel (jobId : Text)
  | cancelPendingJob (jobId : Text)

section Plan

variable {rt : WhenRuntime} (spec : WorkflowSpec rt) (vars : Variables)

/-- The transactions that hand in the jobs of nodes, and whether all jobs can be built. -/
def enqueueOps (runId : Text) (priority now : ℤ) (nodeOutputs : NodeOutputMap)
    (newJobId : Text → Text) : List Text → List ExecutorOp × Bool
  | [] => ([], true)
  | nodeId :: rest =>
      let built := do
        let node ← lookupNode spec.nodes nodeId
        let child ← buildWorkflowChildJob vars nodeOutputs node (newJobId nodeId)
        let availableAt ← childAvailableAt now child
        return ExecutorOp.enqueue runId priority availableAt child
      match built with
      | .error _ => ([], false)
      | .ok op =>
          let (ops, complete) := enqueueOps runId priority now nodeOutputs newJobId rest
          (op :: ops, complete)

/-- The transactions of a plan.  When a job cannot be built the executor stops there. -/
def planOps (runId : Text) (priority now : ℤ) (newJobId : Text → Text)
    (plan : WorkflowStepPlan) : List ExecutorOp :=
  let (ops, complete) := enqueueOps spec vars runId priority now (outputContext plan.nodeStates)
    newJobId plan.enqueueNodeIds
  if complete then
    ops ++ plan.retryJobIds.map .retryWorkflowNode
      ++ plan.cancelJobIds.flatMap fun jobId => [.requestCancel jobId, .cancelPendingJob jobId]
  else ops

end Plan

/-! ### Runs of workflows -/

/-- The table with the executors at work: for a worker that has planned a step, the transactions it
has still to make. -/
structure RunsState where
  backend : State := {}
  planned : Text → Option (List ExecutorOp) := fun _ => none

/-- What can happen: an executor plans a step, for which it reads the clock and the variables and
comes up with identifiers for jobs; it makes its next transaction; or something else happens to the
table. -/
inductive RunsAction where
  | plan (workerId : Text) (scan : List Text) (now : ℤ) (vars : Variables)
      (newJobId : Text → Text)
  | carryOut (workerId : Text)
  | backend (action : Action)

/-- What only executors do is left to them: they hand in the jobs of nodes and have them tried
again.  And only the job of a run is given back without an outcome. -/
def Action.Outside (s : State) : Action → Bool
  | .enqueue job => job.parentWorkflowRunId = none
  | .retryWorkflowNode _ => false
  | .act workerId (.requeueWorkflowRun _) =>
      ((s.holding workerId).bind fun claim => s.tables.jobs.get? claim.jobId).any fun row =>
        row.kind = .workflowRun
  | _ => true

/-- A worker that lets go of its job forgets what it has planned. -/
def RunsState.forget (s : RunsState) : Action → Text → Option (List ExecutorOp)
  | .release workerId => Function.update s.planned workerId none
  | _ => s.planned

/-- The transaction. -/
def ExecutorOp.action : ExecutorOp → Action
  | enqueue runId priority availableAt child =>
      .enqueue (childJob runId priority availableAt child)
  | retryWorkflowNode jobId => .retryWorkflowNode jobId
  | requestCancel jobId => .requestCancel jobId
  | cancelPendingJob jobId => .cancelPendingJob jobId "workflow aborted".toList

/-- Whether the executor goes on when the transaction raises: the job of a node that is there already
is passed over. -/
def ExecutorOp.passesOver : ExecutorOp → Bool
  | enqueue _ _ _ _ => true
  | _ => false

section System

variable {rt : WhenRuntime} (specOf : Text → WorkflowSpec rt) (defaultMaxRetries : ℕ)

/-- What an action does, where each run has its specification. -/
def RunsState.perform (s : RunsState) : RunsAction → Option RunsState
  | .plan workerId scan now vars newJobId => do
      let claim ← s.backend.holding workerId
      let run ← s.backend.tables.jobs.get? claim.jobId
      if run.kind = .workflowRun ∧ s.planned workerId = none
          ∧ scan.Perm s.backend.tables.jobs.keys then
        let children := workflowChildrenSnapshots
          (s.backend.tables.listJobsByParent scan claim.jobId)
        let ops := match planWorkflowStep (specOf claim.jobId) children now defaultMaxRetries vars with
          | .ok plan => planOps (specOf claim.jobId) vars claim.jobId run.priority now newJobId plan
          | .error _ => []
        some { s with planned := Function.update s.planned workerId (some ops) }
      else none
  | .carryOut workerId =>
      match s.planned workerId with
      | some (op :: rest) =>
          match s.backend.perform op.action with
          | some backend =>
              some {
                backend := backend
                planned := Function.update s.planned workerId (some rest) }
          | none =>
              some { s with
                planned := Function.update s.planned workerId
                  (some (if op.passesOver then rest else [])) }
      | _ => none
  | .backend action =>
      if action.Outside s.backend then
        (s.backend.perform action).map fun backend =>
          { backend := backend, planned := s.forget action }
      else none

/-- The runs of workflows, from an empty table. -/
def runsSystem : TransitionSystem RunsState RunsAction where
  initial := fun s => s = {}
  step := fun s a t => s.perform specOf defaultMaxRetries a = some t

end System

end Jobs

import DataOpsStudio.Workflow.Order

/-!
# One step of a run

`planWorkflowStep` reads the children of a run, one per node that has been enqueued, and
says what to do next: which nodes to enqueue, which children to try again or to cancel, and
whether the run is over.  It goes through the nodes, parents first, and gives each a state:
from its child when it has one, and from the states of its parents otherwise.
-/

namespace Workflow

open Text

/-! ### Statuses -/

/-- The status of a job. -/
inductive JobStatus where
  | pending
  | running
  | success
  | failed
  | cancelled
  | timeout
deriving DecidableEq

/-- The text of a status. -/
def JobStatus.value : JobStatus → Text
  | pending => "pending".toList
  | running => "running".toList
  | success => "success".toList
  | failed => "failed".toList
  | cancelled => "cancelled".toList
  | timeout => "timeout".toList

/-- Whether the job has not come to an end. -/
def JobStatus.isActive (status : JobStatus) : Bool := status = .pending ∨ status = .running

/-- What an edge says about its target. -/
inductive EdgeDecision where
  | waiting
  | inactive
  | satisfied
  | blocked
deriving DecidableEq

/-- The status of a node: of its child, or as the planner sees it. -/
inductive WorkflowNodeExecStatus where
  | waiting
  | running
  | retryWait
  | success
  | failed
  | skipped
  | cancelled
deriving DecidableEq

/-- The text of the status of a node. -/
def WorkflowNodeExecStatus.value : WorkflowNodeExecStatus → Text
  | waiting => "waiting".toList
  | running => "running".toList
  | retryWait => "retry_wait".toList
  | success => "success".toList
  | failed => "failed".toList
  | skipped => "skipped".toList
  | cancelled => "cancelled".toList

/-- Whether a node is done. -/
def WorkflowNodeExecStatus.isTerminal : WorkflowNodeExecStatus → Bool
  | success | failed | skipped | cancelled => true
  | waiting | running | retryWait => false

/-- The snapshot of the child of a node.  Times are in microseconds. -/
structure WorkflowChildJob where
  nodeId : Text
  jobId : Text
  status : JobStatus
  retryCount : ℤ := 0
  finishedAt : Option ℤ := none
  error : Option Text := none
  errorCode : Option Text := none
  outputs : NodeOutputs := Dict.empty

/-- The state of a node. -/
structure WorkflowNodeState where
  nodeId : Text
  status : WorkflowNodeExecStatus
  jobId : Option Text := none
  attempts : ℤ := 0
  error : Option Text := none
  outputs : NodeOutputs := Dict.empty

/-- What is to be done next.  The time to wait is in microseconds. -/
structure WorkflowStepPlan where
  nodeStates : Dict Text WorkflowNodeState
  enqueueNodeIds : List Text
  retryJobIds : List Text
  cancelJobIds : List Text
  runStatus : Option JobStatus
  runError : Option Text := none
  waitMicroseconds : Option ℤ := none

/-! ### States from children -/

/-- Seconds to wait before a node without a policy of its own is tried again. -/
def inheritedRetryBackoffSeconds : ℕ := 0

/-- How often a node is tried again. -/
def retryBudget (node : WorkflowNode) (defaultMaxRetries : ℤ) : ℤ :=
  match node.retryPolicy with
  | some policy => policy.maxRetries
  | none => defaultMaxRetries

/-- Seconds to wait before a node is tried again. -/
def retryBackoffSeconds (node : WorkflowNode) : ℕ :=
  match node.retryPolicy with
  | some policy => policy.backoffSeconds
  | none => inheritedRetryBackoffSeconds

/-- Whether a value may be an output. -/
def isSafeNodeOutputValue : PyObject → Bool
  | .float _ finite => finite
  | .list _ => false
  | .dict _ => false
  | _ => true

/-- A text that may be missing, as an object. -/
def optionalText : Option Text → PyObject
  | none => .none
  | some s => .str s

/-- The outputs of a child, unless one of them is not safe. -/
def childOutputs (node : WorkflowNode) (child : WorkflowChildJob) : Option NodeOutputs :=
  let own := child.outputs.items.filter fun item =>
    (nodeOutputFieldsByKind node.jobKind).contains item.1
      && !commonNodeOutputFields.contains item.1
  if own.all (fun item => isSafeNodeOutputValue item.2) then
    some ((((Dict.ofList own).set "status".toList (.str child.status.value)).set
      "job_id".toList (.str child.jobId)).set "error_code".toList (optionalText child.errorCode))
  else none

/-- The outputs of a node that has failed. -/
def failedNodeOutputs (jobId : Option Text) (errorCode : Text) : NodeOutputs :=
  ((Dict.empty.set "status".toList (.str WorkflowNodeExecStatus.failed.value)).set
    "job_id".toList (optionalText jobId)).set "error_code".toList (.str errorCode)

/-- What a child says about its node: the state, and whether the child is to be tried again
now or after some time. -/
structure ChildReport where
  state : WorkflowNodeState
  retry : List Text := []
  waits : List ℤ := []

/-- The time that is left until a failed child is tried again. -/
def remainingBackoff (node : WorkflowNode) (child : WorkflowChildJob) (now : ℤ) : ℤ :=
  retryBackoffSeconds node * 1000000 - (now - child.finishedAt.getD now)

/-- The report of a child that has failed: it is tried again while the budget of its node
lasts. -/
def reportFailure (node : WorkflowNode) (child : WorkflowChildJob) (now : ℤ)
    (defaultMaxRetries : ℤ) (state : WorkflowNodeState) : ChildReport :=
  if child.retryCount < retryBudget node defaultMaxRetries then
    if remainingBackoff node child now ≤ 0 then
      { state := { state with status := .retryWait }, retry := [child.jobId] }
    else
      { state := { state with status := .retryWait }
        waits := [remainingBackoff node child now] }
  else { state := { state with status := .failed } }

/-- The report of a child whose outputs are safe. -/
def reportFromChild (node : WorkflowNode) (child : WorkflowChildJob) (now : ℤ)
    (defaultMaxRetries : ℤ) (outputs : NodeOutputs) : ChildReport :=
  let state : WorkflowNodeState :=
    { nodeId := node.id
      status := .running
      jobId := some child.jobId
      attempts := child.retryCount
      outputs := outputs }
  match child.status with
  | .success => { state := { state with status := .success } }
  | .cancelled => { state := { state with status := .cancelled, error := child.error } }
  | .failed | .timeout =>
      reportFailure node child now defaultMaxRetries { state with error := child.error }
  | .pending | .running => { state := state }

/-- What a child says about its node. -/
def stateFromChild (node : WorkflowNode) (child : WorkflowChildJob) (now : ℤ)
    (defaultMaxRetries : ℤ) : ChildReport :=
  match childOutputs node child with
  | none =>
      { state :=
          { nodeId := node.id
            status := .failed
            jobId := some child.jobId
            attempts := child.retryCount
            error := some "unsafe_node_output_value".toList
            outputs :=
              failedNodeOutputs (some child.jobId) "unsafe_node_output_value".toList } }
  | some outputs => reportFromChild node child now defaultMaxRetries outputs

/-! ### Routes -/

/-- The target of the edge that is followed, or why none could be found. -/
abbrev Route := Except Text Text

/-- The routes found so far, by node and outcome. -/
abbrev RouteCache := Dict (Text × Trigger) Route

/-- The outputs of all nodes with a state. -/
def outputContext (states : Dict Text WorkflowNodeState) : NodeOutputMap :=
  states.mapValues WorkflowNodeState.outputs

/-- The outputs a branch is taken to have while its route is being chosen. -/
def presumedOutputs : NodeOutputs :=
  (((Dict.empty.set "status".toList (.str WorkflowNodeExecStatus.success.value)).set
    "job_id".toList PyObject.none).set "error_code".toList PyObject.none).set
      "selected_target".toList PyObject.none

section Planner

variable (rt : WhenRuntime) (vars : Variables)

/-- The target of the first edge whose condition holds, or of the default edge. -/
def firstMatch (outputs : NodeOutputMap) (default : Text) : List WorkflowEdge → Route
  | [] => .ok default
  | edge :: rest =>
      if edge.isDefault then firstMatch outputs default rest
      else
        match evaluateWhen rt edge.when vars outputs with
        | .error message => .error message
        | .ok true => .ok edge.target
        | .ok false => firstMatch outputs default rest

/-- The outputs the conditions of a route see. -/
def routeContext (nodeId : Text) (trigger : Trigger) (states : Dict Text WorkflowNodeState) :
    NodeOutputMap :=
  let context := outputContext states
  if trigger = .success ∧ context.contains nodeId = false then context.set nodeId presumedOutputs
  else context

/-- The route of a node on an outcome, found anew. -/
def findRoute (nodeId : Text) (trigger : Trigger) (edges : List WorkflowEdge)
    (states : Dict Text WorkflowNodeState) : Except Text Route :=
  let matching := edges.filter (fun edge => edge.trigger = trigger)
  match matching.find? WorkflowEdge.isDefault with
  | none => .error "StopIteration".toList
  | some default =>
      .ok (firstMatch rt vars (routeContext nodeId trigger states) default.target matching)

/-- The route of a node on an outcome, found once. -/
def selectedRoute (nodeId : Text) (trigger : Trigger) (edges : List WorkflowEdge)
    (states : Dict Text WorkflowNodeState) (cache : RouteCache) :
    Except Text (Route × RouteCache) :=
  match cache.get? (nodeId, trigger) with
  | some route => .ok (route, cache)
  | none => do
      let route ← findRoute rt vars nodeId trigger edges states
      return (route, cache.set (nodeId, trigger) route)

/-- The error of a failed node whose route could not be found. -/
def routeErrorText (error : Option Text) (message : Text) : Text :=
  let detail := "failure branch evaluation failed: ".toList ++ message
  match error with
  | none => detail
  | some [] => detail
  | some text => text ++ "; ".toList ++ detail

/-- The state of a node that branches on failure, with the error of its route if there is
one. -/
def withFailureRouteError (node : WorkflowNode) (state : WorkflowNodeState)
    (edges : List WorkflowEdge) (states : Dict Text WorkflowNodeState) (cache : RouteCache) :
    Except Text (WorkflowNodeState × RouteCache) :=
  if state.status ≠ .failed ∨ node.onFailure ≠ .branch then .ok (state, cache)
  else do
    let (route, cache) ← selectedRoute rt vars node.id .failure edges states cache
    match route with
    | .ok _ => return (state, cache)
    | .error message =>
        return ({ state with error := some (routeErrorText state.error message) }, cache)

/-! ### The pass over the nodes -/

/-- What the pass over the nodes has found so far. -/
structure PlanAcc where
  states : Dict Text WorkflowNodeState := Dict.empty
  routes : RouteCache := Dict.empty
  inactive : List Text := []
  enqueue : List Text := []
  retry : List Text := []
  waits : List ℤ := []

/-- The state of a node is recorded. -/
def PlanAcc.record (acc : PlanAcc) (state : WorkflowNodeState) : PlanAcc :=
  { acc with states := acc.states.set state.nodeId state }

variable (nodes : List WorkflowNode) (edges : List WorkflowEdge)

/-- The state of a node is recorded, with the error of its failure route if it has one. -/
def settle (acc : PlanAcc) (node : WorkflowNode) (state : WorkflowNodeState) :
    Except Text PlanAcc := do
  let states := acc.states.set node.id state
  let (settled, routes) ←
    withFailureRouteError rt vars node state (outgoingEdges edges node.id) states acc.routes
  return { acc with states := states.set node.id settled, routes := routes }

/-- A node that cannot be enqueued has failed. -/
def settleFailed (acc : PlanAcc) (node : WorkflowNode) (errorCode message : Text) :
    Except Text PlanAcc :=
  settle rt vars edges acc node
    { nodeId := node.id
      status := .failed
      error := some message
      outputs := failedNodeOutputs none errorCode }

/-- What an edge says about its target. -/
def edgeDecision (acc : PlanAcc) (edge : WorkflowEdge) :
    Except Text (EdgeDecision × RouteCache) :=
  match acc.states.get? edge.source with
  | none => .error "KeyError".toList
  | some source =>
      if source.status.isTerminal = false then .ok (.waiting, acc.routes)
      else if acc.inactive.contains edge.source then .ok (.inactive, acc.routes)
      else do
        let sourceNode ← lookupNode nodes edge.source
        match edge.trigger with
        | .success =>
            if sourceNode.jobKind = .branch then
              if source.status ≠ .success then return (.inactive, acc.routes)
              else
                match (source.outputs.get? "selected_target".toList).bind PyObject.str? with
                | some target =>
                    return (if target = edge.target then .satisfied else .inactive, acc.routes)
                | none => return (.inactive, acc.routes)
            else if source.status = .success then return (.satisfied, acc.routes)
            else if source.status = .failed ∧ sourceNode.onFailure = .branch then
              return (.inactive, acc.routes)
            else return (.blocked, acc.routes)
        | .failure =>
            if source.status ≠ .failed then return (.inactive, acc.routes)
            else do
              let (route, routes) ← selectedRoute rt vars edge.source .failure
                (outgoingEdges edges edge.source) acc.states acc.routes
              match route with
              | .ok target =>
                  return (if target = edge.target then .satisfied else .inactive, routes)
              | .error _ => return (.inactive, routes)

/-- What the edges that enter a node say about it, one after the other. -/
def edgeDecisions (acc : PlanAcc) : List WorkflowEdge → Except Text (List EdgeDecision × PlanAcc)
  | [] => .ok ([], acc)
  | edge :: rest => do
      let (decision, routes) ← edgeDecision rt vars nodes edges acc edge
      let (decisions, acc) ← edgeDecisions { acc with routes := routes } rest
      return (decision :: decisions, acc)

/-- A node is to be enqueued. -/
def PlanAcc.ready (acc : PlanAcc) (node : WorkflowNode) (outputs : NodeOutputs) : PlanAcc :=
  { acc.record { nodeId := node.id, status := .waiting, outputs := outputs } with
    enqueue := acc.enqueue ++ [node.id] }

/-- A branch is enqueued with the target it selects. -/
def planBranch (acc : PlanAcc) (node : WorkflowNode) : Except Text PlanAcc := do
  let (route, routes) ← selectedRoute rt vars node.id .success (outgoingEdges edges node.id)
    acc.states acc.routes
  match route with
  | .error message =>
      settleFailed rt vars edges { acc with routes := routes } node
        "branch_evaluation_failed".toList ("branch evaluation failed: ".toList ++ message)
  | .ok target =>
      return PlanAcc.ready { acc with routes := routes } node
        (Dict.empty.set "selected_target".toList (.str target))

/-- A node that no parent holds back. -/
def planReady (acc : PlanAcc) (node : WorkflowNode) : Except Text PlanAcc :=
  match evaluateWhen rt node.when vars (outputContext acc.states) with
  | .error message =>
      settleFailed rt vars edges acc node "when_evaluation_failed".toList
        ("when evaluation failed: ".toList ++ message)
  | .ok false => .ok (acc.record { nodeId := node.id, status := .skipped })
  | .ok true =>
      match interpolatePayload node.payload vars (outputContext acc.states) with
      | .error message =>
          settleFailed rt vars edges acc node "param_interpolation_failed".toList
            ("param interpolation failed: ".toList ++ message)
      | .ok _ =>
          if node.jobKind = .branch then planBranch rt vars edges acc node
          else .ok (acc.ready node Dict.empty)

/-- A node without a child, from what the edges that enter it say. -/
def planDecided (acc : PlanAcc) (node : WorkflowNode) (decisions : List EdgeDecision) :
    Except Text PlanAcc :=
  if .waiting ∈ decisions then .ok (acc.record { nodeId := node.id, status := .waiting })
  else if ∀ decision ∈ decisions, decision = .inactive then
    .ok { acc.record { nodeId := node.id, status := .skipped } with
      inactive := node.id :: acc.inactive }
  else if .blocked ∈ decisions then
    .ok (acc.record { nodeId := node.id, status := .skipped })
  else planReady rt vars edges acc node

/-- A node without a child. -/
def planChildless (acc : PlanAcc) (node : WorkflowNode) : Except Text PlanAcc :=
  if (incomingEdges edges node.id).isEmpty then planReady rt vars edges acc node
  else do
    let (decisions, acc) ← edgeDecisions rt vars nodes edges acc (incomingEdges edges node.id)
    planDecided rt vars edges acc node decisions

variable (defaultMaxRetries : ℤ) (children : Dict Text WorkflowChildJob) (now : ℤ)

/-- One node of the pass. -/
def planNode (acc : PlanAcc) (node : WorkflowNode) : Except Text PlanAcc :=
  match children.get? node.id with
  | some child =>
      let report := stateFromChild node child now defaultMaxRetries
      settle rt vars edges
        { acc with retry := acc.retry ++ report.retry, waits := acc.waits ++ report.waits }
        node report.state
  | none => planChildless rt vars nodes edges acc node

/-- The pass over the nodes. -/
def planNodes (order : List WorkflowNode) (acc : PlanAcc) : Except Text PlanAcc :=
  order.foldlM (planNode rt vars nodes edges defaultMaxRetries children now) acc

end Planner

/-! ### The plan -/

/-- What is said of a node that has failed. -/
def nodeFailureMessage (state : WorkflowNodeState) : Text :=
  let detail := match state.error with
    | none => state.status.value
    | some [] => state.status.value
    | some text => text
  "workflow node ".toList ++ state.nodeId ++ " ".toList ++ state.status.value ++ ": ".toList
    ++ detail

/-- Why the run is aborted, if a failed node asks for it. -/
def abortError (nodes : List WorkflowNode) (states : Dict Text WorkflowNodeState) :
    Option Text :=
  (states.items.find? fun item =>
      item.2.status = .failed ∧ (nodeById? nodes item.1).map WorkflowNode.onFailure = some .abort).map
    (fun item => nodeFailureMessage item.2)

/-- A node that is not done is cancelled with the run. -/
def cancelledState (nodeId : Text) (state : WorkflowNodeState) : WorkflowNodeState :=
  if state.status.isTerminal then state
  else
    { nodeId := nodeId
      status := .cancelled
      jobId := state.jobId
      attempts := state.attempts
      error := state.error }

/-- The states when the run is aborted. -/
def cancelRemaining (states : Dict Text WorkflowNodeState) : Dict Text WorkflowNodeState :=
  ⟨states.items.map (fun item => (item.1, cancelledState item.1 item.2)),
    List.pairwise_map.mpr states.distinct⟩

/-- The least of some times. -/
def shortestWait : List ℤ → Option ℤ
  | [] => none
  | wait :: rest => some (rest.foldl min wait)

/-- What is to be done next, from what the pass over the nodes has found. -/
def finishPlan (nodes : List WorkflowNode) (children : Dict Text WorkflowChildJob)
    (acc : PlanAcc) : WorkflowStepPlan :=
  match abortError nodes acc.states with
  | some message =>
      { nodeStates := cancelRemaining acc.states
        enqueueNodeIds := []
        retryJobIds := []
        cancelJobIds :=
          (children.values.filter (fun child => child.status.isActive)).map
            WorkflowChildJob.jobId
        runStatus := some .failed
        runError := some message }
  | none =>
      if acc.states.values.all (fun state => state.status.isTerminal) then
        match acc.states.values.find?
            (fun state => state.status = .failed ∨ state.status = .cancelled) with
        | some first =>
            { nodeStates := acc.states
              enqueueNodeIds := []
              retryJobIds := []
              cancelJobIds := []
              runStatus := some .failed
              runError := some (nodeFailureMessage first) }
        | none =>
            { nodeStates := acc.states
              enqueueNodeIds := []
              retryJobIds := []
              cancelJobIds := []
              runStatus := some .success }
      else
        { nodeStates := acc.states
          enqueueNodeIds := acc.enqueue
          retryJobIds := acc.retry
          cancelJobIds := []
          runStatus := none
          waitMicroseconds := shortestWait acc.waits }

/-- What is to be done next in a run. -/
def planWorkflowStep {rt : WhenRuntime} (spec : WorkflowSpec rt)
    (children : Dict Text WorkflowChildJob) (now : ℤ) (defaultMaxRetries : ℤ)
    (vars : Variables) : Except Text WorkflowStepPlan := do
  let order ← topologicalNodes spec.nodes spec.edges
  let acc ← planNodes rt vars spec.nodes spec.edges defaultMaxRetries children now order {}
  return finishPlan spec.nodes children acc

end Workflow

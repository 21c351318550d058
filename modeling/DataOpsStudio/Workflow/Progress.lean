import DataOpsStudio.Workflow.Pass

/-!
# A run never stalls

A node that is not done is held back by a parent that is not done, or the plan has something
to do for it.  Since nodes are planned parents first, a run that goes on always has a node
to enqueue, a child to try again now or later, or a child at work.
-/

namespace Workflow

open Text

/-- The pass has found something that moves the run on. -/
def PlanAcc.Moves (acc : PlanAcc) (children : Dict Text WorkflowChildJob) : Prop :=
  acc.enqueue ≠ [] ∨ acc.retry ≠ [] ∨ acc.waits ≠ []
    ∨ ∃ child ∈ children.values, child.status.isActive = true

/-- Some node is not done. -/
def PlanAcc.Unfinished (acc : PlanAcc) : Prop :=
  ∃ nodeId state, acc.states.get? nodeId = some state ∧ state.status.isTerminal = false

/-- A child that is not done is at work, or it is tried again now or later. -/
theorem Reported.moves {node : WorkflowNode} {child : WorkflowChildJob} {defaultMaxRetries : ℤ}
    {status : WorkflowNodeExecStatus} {retry : List Text} {waits : List ℤ}
    (h : Reported node child defaultMaxRetries status retry waits)
    (hstatus : status.isTerminal = false) :
  retry ≠ [] ∨ waits ≠ [] ∨ child.status.isActive = true
  := by
  cases h with
  | unsafeOutputs => cases hstatus
  | success => cases hstatus
  | cancelled => cases hstatus
  | failed => cases hstatus
  | retryNow =>
      left
      simp
  | retryLater =>
      right
      left
      simp
  | running hactive =>
      right
      right
      apply hactive

section Pass

variable {rt : WhenRuntime} {vars : Variables} {nodes : List WorkflowNode}
  {edges : List WorkflowEdge} {defaultMaxRetries now : ℤ}
  {children : Dict Text WorkflowChildJob} {acc acc' : PlanAcc} {nodeId : Text}
  {state : WorkflowNodeState} {enqueue retry : List Text} {waits : List ℤ}

/-- What has been found is not lost when a node is recorded. -/
theorem Recorded.moves (h : Recorded acc acc' nodeId state enqueue retry waits)
    (hmoves : acc.Moves children) :
  acc'.Moves children
  := by
  obtain henqueue | hretry | hwaits | hchild := hmoves
  · left
    rw [h.enqueue]
    apply List.append_ne_nil_of_left_ne_nil henqueue
  · right
    left
    rw [h.retry]
    apply List.append_ne_nil_of_left_ne_nil hretry
  · right
    right
    left
    rw [h.waits]
    apply List.append_ne_nil_of_left_ne_nil hwaits
  · right
    right
    right
    apply hchild

/-- A node that is recorded as done leaves the other nodes that are not done. -/
theorem Recorded.unfinished (h : Recorded acc acc' nodeId state enqueue retry waits)
    (hstate : state.status.isTerminal = true) (hunfinished : acc'.Unfinished) :
  acc.Unfinished
  := by
  obtain ⟨other, found, hfound, hterminal⟩ := hunfinished
  rw [h.states] at hfound
  split at hfound
  · obtain rfl := Option.some.inj hfound
    rw [hstate] at hterminal
    cases hterminal
  · exact ⟨other, found, hfound, hterminal⟩

/-- If a node that is not done means that something moves the run on, this stays so when one
more node is planned. -/
theorem planNode_moves {node : WorkflowNode}
    (h : planNode rt vars nodes edges defaultMaxRetries children now acc node = .ok acc')
    (hacc : acc.Unfinished → acc.Moves children) :
  acc'.Unfinished → acc'.Moves children
  := by
  intro hunfinished
  rw [planNode] at h
  split at h
  · rename_i child hchild
    obtain ⟨settled, hstatus, -, hrecorded⟩ := settle_recorded h
    obtain ⟨hstates, henqueue, hretry, hwaits⟩ := hrecorded
    have hreport : Recorded acc acc' node.id settled []
        (stateFromChild node child now defaultMaxRetries).retry
        (stateFromChild node child now defaultMaxRetries).waits := by
      refine ⟨hstates, henqueue, ?_, ?_⟩
      · rw [hretry, List.append_nil]
      · rw [hwaits, List.append_nil]
    cases hterminal : settled.status.isTerminal with
    | true =>
        apply hreport.moves
        apply hacc (hreport.unfinished hterminal hunfinished)
    | false =>
        rw [hstatus] at hterminal
        obtain hsome | hsome | hactive :=
          (stateFromChild_reported node child now defaultMaxRetries).moves hterminal
        · right
          left
          rw [hreport.retry]
          apply List.append_ne_nil_of_right_ne_nil _ hsome
        · right
          right
          left
          rw [hreport.waits]
          apply List.append_ne_nil_of_right_ne_nil _ hsome
        · right
          right
          right
          exact ⟨child, Dict.mem_values_iff.mpr ⟨node.id, hchild⟩, hactive⟩
  · obtain ⟨edge, -, source, hsource, hterminal, hrecorded⟩ | ⟨-, state, enqueue, hdecided⟩ :=
      planChildless_recorded h
    · apply hrecorded.moves
      apply hacc
      exact ⟨edge.source, source, hsource, hterminal⟩
    · obtain ⟨hterminal, -⟩ | ⟨-, rfl⟩ := hdecided.outcome
      · apply hdecided.recorded.moves
        apply hacc (hdecided.recorded.unfinished hterminal hunfinished)
      · left
        rw [hdecided.recorded.enqueue]
        simp

theorem planNodes_moves {order : List WorkflowNode}
    (h : planNodes rt vars nodes edges defaultMaxRetries children now order {} = .ok acc) :
  acc.Unfinished → acc.Moves children
  := by
  apply Outcome.foldlM_invariant (fun acc => acc.Unfinished → acc.Moves children) _ _ h
  · rintro ⟨nodeId, state, hstate, -⟩
    cases hstate
  · intro acc node acc' _ hacc hnode
    apply planNode_moves hnode hacc

end Pass

/-- A run that goes on has a node to enqueue, a child to try again now or after some time,
or a child that is pending or running. -/
theorem planWorkflowStep_progress {rt : WhenRuntime} (spec : WorkflowSpec rt)
    (children : Dict Text WorkflowChildJob) (now defaultMaxRetries : ℤ) (vars : Variables)
    (plan : WorkflowStepPlan)
    (h : planWorkflowStep spec children now defaultMaxRetries vars = .ok plan)
    (hrun : plan.runStatus = none) :
  plan.enqueueNodeIds ≠ [] ∨ plan.retryJobIds ≠ [] ∨ plan.waitMicroseconds ≠ none
    ∨ ∃ child ∈ children.values, child.status = .pending ∨ child.status = .running
  := by
  obtain ⟨order, -, h⟩ := Outcome.bind_eq_ok.mp h
  obtain ⟨acc, hacc, h⟩ := Outcome.bind_eq_ok.mp h
  obtain rfl := Outcome.pure_eq_ok.mp h
  obtain ⟨hplan, hunfinished⟩ := finishPlan_of_runStatus_none hrun
  rw [hplan]
  obtain henqueue | hretry | hwaits | ⟨child, hchild, hactive⟩ := planNodes_moves hacc hunfinished
  · left
    apply henqueue
  · right
    left
    apply hretry
  · right
    right
    left
    obtain ⟨wait, rest, hwait⟩ := List.exists_cons_of_ne_nil hwaits
    simp [hwait, shortestWait]
  · right
    right
    right
    exact ⟨child, hchild, by simpa [JobStatus.isActive] using hactive⟩

/-- An interpreter whose conditions are the two truth values. -/
def bareRuntime : WhenRuntime where
  Const := Bool
  ofBool := id
  truthy := id
  signed := fun _ _ => none
  compare := fun op left right => .ok (decide (op = .eq) == decide (left = right))
  parse := fun s =>
    if s = "True".toList then .ok (.constant true)
    else if s = "False".toList then .ok (.constant false)
    else .error "invalid syntax".toList
  isWord := fun c => c.isAlphanum || c == '_'
  isPrintable := fun c => decide (32 ≤ c.toNat) && decide (c.toNat < 127)

/-- A query that is followed by an export. -/
def chainSpec : WorkflowSpec bareRuntime where
  nodes :=
    [{ id := "query".toList
       jobKind := .sqlQuery
       retryPolicy := some { maxRetries := 1, backoffSeconds := 10 }
       when := some "true".toList },
      { id := "export".toList, jobKind := .exportExcel }]
  edges := [{ source := "query".toList, target := "export".toList }]
  accepted := rfl

/-- The query has failed once. -/
def failedQuery : Dict Text WorkflowChildJob :=
  Dict.ofList [("query".toList,
    { nodeId := "query".toList, jobId := "job".toList, status := .failed, finishedAt := some 0 })]

/-- One second after its failure the query is still to be tried again. -/
theorem planWorkflowStep_progress_failedQuery :
  ∃ plan,
    planWorkflowStep chainSpec failedQuery 1000000 0 Dict.empty = .ok plan
      ∧ plan.runStatus = none
      ∧ (plan.enqueueNodeIds ≠ [] ∨ plan.retryJobIds ≠ [] ∨ plan.waitMicroseconds ≠ none
        ∨ ∃ child ∈ failedQuery.values, child.status = .pending ∨ child.status = .running)
  := ⟨_, rfl, rfl, planWorkflowStep_progress chainSpec failedQuery 1000000 0 Dict.empty _ rfl rfl⟩

end Workflow

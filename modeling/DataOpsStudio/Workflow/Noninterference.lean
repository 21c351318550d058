import DataOpsStudio.Workflow.References
import DataOpsStudio.Workflow.Safety

/-!
# What a node is planned from

If conditions read upstream, what a plan says about a node depends on the children of the node and
of its ancestors only: its state, whether it is enqueued, and the payload of its job.  The rewriting
of conditions can make them read elsewhere; then a node that is not upstream decides whether the
node runs.
-/

namespace Workflow

open Text

/-! ### Plans that do not abort the run -/

/-- The plan aborts the run: a node has failed whose failure is to abort it. -/
def WorkflowStepPlan.abortsRun (plan : WorkflowStepPlan) (nodes : List WorkflowNode) : Bool :=
  (abortError nodes plan.nodeStates).isSome

theorem abortError_eq_none {nodes : List WorkflowNode} {states : Dict Text WorkflowNodeState} :
  abortError nodes states = none ↔ ∀ item ∈ states.items, ¬ (item.2.status = .failed ∧
    (nodeById? nodes item.1).map WorkflowNode.onFailure = some .abort)
  := by
  rw [abortError, Option.map_eq_none_iff, List.find?_eq_none]
  simp only [decide_eq_true_eq]

section Plans

variable {rt : WhenRuntime} {spec : WorkflowSpec rt} {vars : Variables} {defaultMaxRetries : ℕ}
  {children children' : Dict Text WorkflowChildJob} {now now' : ℤ} {acc acc' : PlanAcc}
  {plan plan' : WorkflowStepPlan}

/-- A plan that does not abort the run has the states of the pass, and enqueues what the pass has
found ready. -/
theorem finishPlan_of_not_abortsRun
    (hinv : PassInvariant spec.nodes spec.edges defaultMaxRetries children acc)
    (h : (finishPlan spec.nodes children acc).abortsRun spec.nodes = false) :
  (finishPlan spec.nodes children acc).nodeStates = acc.states ∧
    ∀ nodeId, nodeId ∈ (finishPlan spec.nodes children acc).enqueueNodeIds ↔ nodeId ∈ acc.enqueue
  := by
  have hnone : abortError spec.nodes acc.states = none := by
    apply abortError_eq_none.mpr
    intro item hitem hfailed
    have habort := Option.isSome_eq_false_iff.mp h
    have hstate : (finishPlan spec.nodes children acc).nodeStates.get? item.1 = some item.2 :=
      get?_nodeStates_of_terminal (Dict.get?_of_mem hitem) (by rw [hfailed.1]; rfl)
    exact abortError_eq_none.mp (Option.isNone_iff_eq_none.mp habort) _
      (Dict.get?_eq_some_iff.mp hstate) hfailed
  have hready : ∀ nodeId ∈ acc.enqueue,
      ¬ acc.states.values.all (fun state => state.status.isTerminal) = true := by
    intro nodeId hmem hall
    obtain ⟨-, state, hstate, hwaiting⟩ := hinv.enqueue nodeId hmem
    have hterminal := List.all_eq_true.mp hall state (Dict.mem_values_iff.mpr ⟨nodeId, hstate⟩)
    rw [hwaiting] at hterminal
    cases hterminal
  rw [finishPlan, hnone]
  dsimp only
  split
  case isFalse => exact ⟨rfl, fun _ => Iff.rfl⟩
  case isTrue hall =>
      have hempty : ∀ nodeId, nodeId ∈ ([] : List Text) ↔ nodeId ∈ acc.enqueue :=
        fun nodeId => ⟨by simp, fun hmem => absurd hall (hready nodeId hmem)⟩
      split
      · exact ⟨rfl, hempty⟩
      · exact ⟨rfl, hempty⟩

/-- A node with its ancestors. -/
def Upstream (edges : List WorkflowEdge) (nodeId : Text) (other : Text) : Prop :=
  other = nodeId ∨ IsAncestor edges other nodeId

theorem parentClosed_upstream (edges : List WorkflowEdge) (nodeId : Text) :
  ParentClosed edges (Upstream edges nodeId)
  := by
  rintro edge hedge (rfl | hancestor)
  · exact .inr (.single ⟨edge, hedge, rfl, rfl⟩)
  · exact .inr (.head ⟨edge, hedge, rfl, rfl⟩ hancestor)

/-- The job of a node is built from the outputs of the node and of its ancestors. -/
theorem buildWorkflowChildJob_congr {node : WorkflowNode} (hnode : node ∈ spec.nodes)
    {outputs outputs' : NodeOutputMap}
    (h : ∀ other, Upstream spec.edges node.id other → outputs.get? other = outputs'.get? other)
    (jobId : Text) :
  buildWorkflowChildJob vars outputs node jobId = buildWorkflowChildJob vars outputs' node jobId
  := by
  have hpayload : interpolatePayload node.payload vars outputs
      = interpolatePayload node.payload vars outputs' := by
    apply interpolatePayload_congr
    intro read hread
    exact h read (.inr (spec.payload_reads_ancestors hnode hread))
  simp only [buildWorkflowChildJob, withSelectedTarget, hpayload, h node.id (.inl rfl)]

/-- If conditions read upstream, two plans that do not abort the run say the same about a node when
the children of the node and of its ancestors are the same. -/
theorem plan_noninterference (hreads : spec.ConditionsReadUpstream) {node : WorkflowNode}
    (hnode : node ∈ spec.nodes)
    (hchildren : ∀ other, Upstream spec.edges node.id other →
      children.get? other = children'.get? other)
    (hplan : planWorkflowStep spec children now defaultMaxRetries vars = .ok plan)
    (hplan' : planWorkflowStep spec children' now' defaultMaxRetries vars = .ok plan')
    (hruns : plan.abortsRun spec.nodes = false) (hruns' : plan'.abortsRun spec.nodes = false) :
  plan.nodeStates.get? node.id = plan'.nodeStates.get? node.id ∧
    (node.id ∈ plan.enqueueNodeIds ↔ node.id ∈ plan'.enqueueNodeIds) ∧
    ∀ jobId, buildWorkflowChildJob vars (outputContext plan.nodeStates) node jobId
      = buildWorkflowChildJob vars (outputContext plan'.nodeStates) node jobId
  := by
  obtain ⟨acc, hpassed, rfl⟩ := planWorkflowStep_eq_ok hplan
  obtain ⟨acc', hpassed', rfl⟩ := planWorkflowStep_eq_ok hplan'
  obtain ⟨hstates, henqueue⟩ := finishPlan_of_not_abortsRun hpassed.passInvariant hruns
  obtain ⟨hstates', henqueue'⟩ := finishPlan_of_not_abortsRun hpassed'.passInvariant hruns'
  have hagree := hpassed.agree hreads.readsUpstream
    (parentClosed_upstream spec.edges node.id) hchildren hpassed'
  rw [hstates, hstates', henqueue, henqueue']
  refine ⟨hagree.states node.id (.inl rfl), hagree.enqueue node.id (.inl rfl), ?_⟩
  apply buildWorkflowChildJob_congr hnode
  intro other hother
  exact get?_outputContext (hagree.states other hother)

end Plans

theorem conditionsReadUpstream_chainSpec :
  chainSpec.ConditionsReadUpstream
  := ⟨readsUpstream_chainSpec.node_when, readsUpstream_chainSpec.edge_when⟩

/-- The query has failed once, and there is a job of the export. -/
def failedQueryWithExport : Dict Text WorkflowChildJob :=
  failedQuery.set "export".toList
    { nodeId := "export".toList, jobId := "other".toList, status := .running }

theorem plan_noninterference_failedQuery :
  ∃ plan plan',
    planWorkflowStep chainSpec failedQuery 0 0 Dict.empty = .ok plan ∧
    planWorkflowStep chainSpec failedQueryWithExport 0 0 Dict.empty = .ok plan' ∧
    plan.nodeStates.get? "query".toList = plan'.nodeStates.get? "query".toList
  := by
  obtain ⟨plan, hplan, hruns⟩ := Outcome.exists_of_map_toOption
    (by rfl : (planWorkflowStep chainSpec failedQuery 0 (0 : ℕ) Dict.empty).toOption.map
      (·.abortsRun chainSpec.nodes) = some false)
  obtain ⟨plan', hplan', hruns'⟩ := Outcome.exists_of_map_toOption
    (by rfl : (planWorkflowStep chainSpec failedQueryWithExport 0 (0 : ℕ)
      Dict.empty).toOption.map (·.abortsRun chainSpec.nodes) = some false)
  have hchildren : ∀ other, Upstream chainSpec.edges "query".toList other →
      failedQuery.get? other = failedQueryWithExport.get? other := by
    intro other hother
    have hne : "export".toList ≠ other := by
      rintro rfl
      obtain hquery | hancestor := hother
      · revert hquery
        decide
      · have hnone : ∀ edge ∈ chainSpec.edges, edge.target ≠ "query".toList := by decide
        obtain ⟨parent, -, edge, hedge, -, htarget⟩ := Relation.TransGen.tail'_iff.mp hancestor
        exact hnone edge hedge htarget
    exact (Dict.get?_set_of_ne _ _ hne).symm
  have hquery : chainSpec.nodes[0] ∈ chainSpec.nodes := List.mem_cons_self
  exact ⟨plan, plan', hplan, hplan',
    (plan_noninterference conditionsReadUpstream_chainSpec hquery hchildren hplan hplan' hruns
      hruns').1⟩

/-! ### Names that are rewritten -/

/-- An interpreter whose conditions are the numbers zero and one. -/
def numberRuntime : WhenRuntime where
  Const := ℤ
  ofBool := fun b => if b then 1 else 0
  truthy := fun n => n ≠ 0
  signed := fun op n => if op = .uSub then some (-n) else if op = .uAdd then some n else none
  compare := fun op left right => .ok (decide (op = .eq) == decide (left = right))
  parse := fun s =>
    if s = "0".toList then .ok (.constant 0)
    else if s = "1".toList then .ok (.constant 1)
    else .error "invalid syntax".toList
  isWord := bareRuntime.isWord
  isPrintable := bareRuntime.isPrintable

/-- Two queries whose names differ in a capital letter.  The export follows the first of them, and
its condition is the number of rows of that query. -/
def capitalSpec : WorkflowSpec numberRuntime where
  nodes :=
    [{ id := "true".toList, jobKind := .sqlQuery }, { id := "True".toList, jobKind := .sqlQuery },
      { id := "export".toList, jobKind := .exportExcel
        when := some "${nodes.true.loaded_rows}".toList }]
  edges := [{ source := "true".toList, target := "export".toList }]
  accepted := by rfl

/-- Both queries are done, with one row of the first and some rows of the second. -/
def loadedQueries (rows : ℤ) : Dict Text WorkflowChildJob :=
  Dict.ofList
    [("true".toList,
      { nodeId := "true".toList, jobId := "first".toList, status := .success
        outputs := Dict.empty.set "loaded_rows".toList (.int 1) }),
      ("True".toList,
        { nodeId := "True".toList, jobId := "second".toList, status := .success
          outputs := Dict.empty.set "loaded_rows".toList (.int rows) })]

/-- Whether the export is enqueued depends on the query it does not follow. -/
theorem not_plan_noninterference_capitalSpec :
  ¬ ∀ (children children' : Dict Text WorkflowChildJob) (plan plan' : WorkflowStepPlan),
    (∀ other, Upstream capitalSpec.edges "export".toList other →
      children.get? other = children'.get? other) →
    planWorkflowStep capitalSpec children 0 0 Dict.empty = .ok plan →
    planWorkflowStep capitalSpec children' 0 0 Dict.empty = .ok plan' →
    plan.abortsRun capitalSpec.nodes = false → plan'.abortsRun capitalSpec.nodes = false →
    (("export".toList : Text) ∈ plan.enqueueNodeIds ↔ "export".toList ∈ plan'.enqueueNodeIds)
  := by
  intro hsame
  obtain ⟨plan, hplan, hseen⟩ := Outcome.exists_of_map_toOption
    (by rfl :
      (planWorkflowStep capitalSpec (loadedQueries 1) 0 0 Dict.empty).toOption.map
      (fun plan => (plan.abortsRun capitalSpec.nodes, plan.enqueueNodeIds))
        = some (false, ["export".toList]))
  obtain ⟨plan', hplan', hseen'⟩ := Outcome.exists_of_map_toOption
    (by rfl :
      (planWorkflowStep capitalSpec (loadedQueries 0) 0 0 Dict.empty).toOption.map
      (fun plan => (plan.abortsRun capitalSpec.nodes, plan.enqueueNodeIds)) = some (false, []))
  obtain ⟨hruns, henqueue⟩ := Prod.mk.inj hseen
  obtain ⟨hruns', henqueue'⟩ := Prod.mk.inj hseen'
  have hchildren : ∀ other, Upstream capitalSpec.edges "export".toList other →
      (loadedQueries 1).get? other = (loadedQueries 0).get? other := by
    have hsource : ∀ edge ∈ capitalSpec.edges, edge.source = "true".toList := by decide
    rintro other (rfl | hancestor)
    · rfl
    · obtain ⟨child, ⟨edge, hedge, rfl, -⟩, -⟩ := Relation.TransGen.head'_iff.mp hancestor
      rw [hsource edge hedge]
      rfl
  have hiff := hsame _ _ plan plan' hchildren hplan hplan' hruns hruns'
  rw [henqueue, henqueue'] at hiff
  exact absurd (hiff.mp List.mem_cons_self) List.not_mem_nil

end Workflow

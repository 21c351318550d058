import DataOpsStudio.Workflow.Execution

/-!
# What the pass over the nodes records

Each node of the pass records one state, its own, and adds to the nodes to be enqueued and
the children to be tried again.  A node without a child is held back by a parent that is not
done, or it is done itself, or it is enqueued.
-/

namespace Workflow

open Text

/-- One node has recorded its state and added to the lists of the plan. -/
structure Recorded (acc acc' : PlanAcc) (nodeId : Text) (state : WorkflowNodeState)
    (enqueue retry : List Text) (waits : List ℤ) : Prop where
  states : ∀ other, acc'.states.get? other
    = if nodeId = other then some state else acc.states.get? other
  enqueue : acc'.enqueue = acc.enqueue ++ enqueue
  retry : acc'.retry = acc.retry ++ retry
  waits : acc'.waits = acc.waits ++ waits

namespace Recorded

variable {acc acc' : PlanAcc} {nodeId : Text} {state : WorkflowNodeState}
  {enqueue retry : List Text} {waits : List ℤ}

theorem get?_self (h : Recorded acc acc' nodeId state enqueue retry waits) :
  acc'.states.get? nodeId = some state
  := by
  rw [h.states, if_pos rfl]

theorem get?_of_ne (h : Recorded acc acc' nodeId state enqueue retry waits) {other : Text}
    (hne : nodeId ≠ other) :
  acc'.states.get? other = acc.states.get? other
  := by
  rw [h.states, if_neg hne]

end Recorded

theorem recorded_record (acc : PlanAcc) (state : WorkflowNodeState) :
  Recorded acc (acc.record state) state.nodeId state [] [] []
  := by
  constructor
  · intro other
    rw [PlanAcc.record, Dict.get?_set]
    simp only [beq_iff_eq]
  · simp [PlanAcc.record]
  · simp [PlanAcc.record]
  · simp [PlanAcc.record]

theorem recorded_ready (acc : PlanAcc) (node : WorkflowNode) (outputs : NodeOutputs) :
  Recorded acc (acc.ready node outputs) node.id
    { nodeId := node.id, status := .waiting, outputs := outputs } [node.id] [] []
  := by
  obtain ⟨hstates, -, hretry, hwaits⟩ := recorded_record acc
    { nodeId := node.id, status := .waiting, outputs := outputs }
  exact ⟨hstates, rfl, hretry, hwaits⟩

/-! ### Nodes with a child -/

/-- What a child can say about its node. -/
inductive Reported (node : WorkflowNode) (child : WorkflowChildJob) (defaultMaxRetries : ℤ) :
    WorkflowNodeExecStatus → List Text → List ℤ → Prop
  | unsafeOutputs (h : childOutputs node child = none) :
      Reported node child defaultMaxRetries .failed [] []
  | success (h : child.status = .success) : Reported node child defaultMaxRetries .success [] []
  | cancelled (h : child.status = .cancelled) :
      Reported node child defaultMaxRetries .cancelled [] []
  | failed (h : child.status = .failed ∨ child.status = .timeout)
      (hbudget : retryBudget node defaultMaxRetries ≤ child.retryCount) :
      Reported node child defaultMaxRetries .failed [] []
  | retryNow (h : child.status = .failed ∨ child.status = .timeout)
      (hbudget : child.retryCount < retryBudget node defaultMaxRetries) :
      Reported node child defaultMaxRetries .retryWait [child.jobId] []
  | retryLater (h : child.status = .failed ∨ child.status = .timeout)
      (hbudget : child.retryCount < retryBudget node defaultMaxRetries) (wait : ℤ) :
      Reported node child defaultMaxRetries .retryWait [] [wait]
  | running (h : child.status.isActive = true) :
      Reported node child defaultMaxRetries .running [] []

theorem reportFailure_reported {node : WorkflowNode} {child : WorkflowChildJob}
    (now defaultMaxRetries : ℤ) (state : WorkflowNodeState)
    (h : child.status = .failed ∨ child.status = .timeout) :
  Reported node child defaultMaxRetries
    (reportFailure node child now defaultMaxRetries state).state.status
    (reportFailure node child now defaultMaxRetries state).retry
    (reportFailure node child now defaultMaxRetries state).waits
  := by
  rw [reportFailure]
  split
  · rename_i hbudget
    split
    · apply Reported.retryNow h hbudget
    · apply Reported.retryLater h hbudget
  · rename_i hbudget
    apply Reported.failed h (le_of_not_gt hbudget)

theorem stateFromChild_reported (node : WorkflowNode) (child : WorkflowChildJob)
    (now defaultMaxRetries : ℤ) :
  Reported node child defaultMaxRetries
    (stateFromChild node child now defaultMaxRetries).state.status
    (stateFromChild node child now defaultMaxRetries).retry
    (stateFromChild node child now defaultMaxRetries).waits
  := by
  rw [stateFromChild]
  split
  · rename_i houtputs
    apply Reported.unsafeOutputs houtputs
  · rw [reportFromChild]
    split
    · rename_i hstatus
      apply Reported.success hstatus
    · rename_i hstatus
      apply Reported.cancelled hstatus
    · rename_i hstatus
      apply reportFailure_reported _ _ _ (.inl hstatus)
    · rename_i hstatus
      apply reportFailure_reported _ _ _ (.inr hstatus)
    · rename_i hstatus
      apply Reported.running
      rw [hstatus]
      rfl
    · rename_i hstatus
      apply Reported.running
      rw [hstatus]
      rfl

/-! ### Nodes without a child -/

section Planner

variable {rt : WhenRuntime} {vars : Variables} {nodes : List WorkflowNode}
  {edges : List WorkflowEdge}

/-- The error of a route changes neither the status of a node nor its outputs. -/
theorem withFailureRouteError_eq_ok {node : WorkflowNode} {state settled : WorkflowNodeState}
    {outgoing : List WorkflowEdge} {states : Dict Text WorkflowNodeState}
    {cache cache' : RouteCache}
    (h : withFailureRouteError rt vars node state outgoing states cache
      = .ok (settled, cache')) :
  settled.status = state.status ∧ settled.outputs = state.outputs
  := by
  rw [withFailureRouteError] at h
  split at h
  · obtain ⟨rfl, -⟩ := Prod.mk.inj (Except.ok.inj h)
    exact ⟨rfl, rfl⟩
  · obtain ⟨⟨route, routes⟩, -, h⟩ := Outcome.bind_eq_ok.mp h
    obtain message | target := route
    · obtain ⟨rfl, -⟩ := Prod.mk.inj (Outcome.pure_eq_ok.mp h)
      exact ⟨rfl, rfl⟩
    · obtain ⟨rfl, -⟩ := Prod.mk.inj (Outcome.pure_eq_ok.mp h)
      exact ⟨rfl, rfl⟩

theorem settle_recorded {acc acc' : PlanAcc} {node : WorkflowNode} {state : WorkflowNodeState}
    (h : settle rt vars edges acc node state = .ok acc') :
  ∃ settled, settled.status = state.status ∧ settled.outputs = state.outputs
    ∧ Recorded acc acc' node.id settled [] [] []
  := by
  obtain ⟨⟨settled, routes⟩, hroute, h⟩ := Outcome.bind_eq_ok.mp h
  obtain rfl := Outcome.pure_eq_ok.mp h
  obtain ⟨hstatus, houtputs⟩ := withFailureRouteError_eq_ok hroute
  refine ⟨settled, hstatus, houtputs, ?_, ?_, ?_, ?_⟩
  · intro other
    rw [Dict.get?_set, Dict.get?_set]
    by_cases hother : node.id = other
    · simp [hother]
    · simp [hother]
  · rw [List.append_nil]
  · rw [List.append_nil]
  · rw [List.append_nil]

/-- What becomes of a node that no parent holds back: it is done, or it is enqueued. -/
structure Decided (acc acc' : PlanAcc) (nodeId : Text) (state : WorkflowNodeState)
    (enqueue : List Text) : Prop where
  recorded : Recorded acc acc' nodeId state enqueue [] []
  outcome : state.status.isTerminal = true ∧ enqueue = []
    ∨ state.status = .waiting ∧ enqueue = [nodeId]

theorem settleFailed_decided {acc acc' : PlanAcc} {node : WorkflowNode} {errorCode message : Text}
    (h : settleFailed rt vars edges acc node errorCode message = .ok acc') :
  ∃ state enqueue, Decided acc acc' node.id state enqueue
  := by
  obtain ⟨settled, hstatus, -, hrecorded⟩ := settle_recorded h
  refine ⟨settled, [], hrecorded, .inl ⟨?_, rfl⟩⟩
  rw [hstatus]
  rfl

theorem planReady_decided {acc acc' : PlanAcc} {node : WorkflowNode}
    (h : planReady rt vars edges acc node = .ok acc') :
  ∃ state enqueue, Decided acc acc' node.id state enqueue
  := by
  rw [planReady] at h
  split at h
  · apply settleFailed_decided h
  · obtain rfl := Except.ok.inj h
    exact ⟨_, _, recorded_record _ _, .inl ⟨rfl, rfl⟩⟩
  · split at h
    · apply settleFailed_decided h
    · split at h
      · obtain ⟨⟨route, routes⟩, -, h⟩ := Outcome.bind_eq_ok.mp h
        obtain message | target := route
        · obtain ⟨state, enqueue, ⟨hstates, henqueue, hretry, hwaits⟩, houtcome⟩ :=
            settleFailed_decided h
          exact ⟨state, enqueue, ⟨hstates, henqueue, hretry, hwaits⟩, houtcome⟩
        · obtain rfl := Outcome.pure_eq_ok.mp h
          obtain ⟨hstates, henqueue, hretry, hwaits⟩ :=
            recorded_ready { acc with routes := routes } node
              (Dict.empty.set "selected_target".toList (.str target))
          exact ⟨_, _, ⟨hstates, henqueue, hretry, hwaits⟩, .inr ⟨rfl, rfl⟩⟩
      · obtain rfl := Except.ok.inj h
        exact ⟨_, _, recorded_ready _ _ _, .inr ⟨rfl, rfl⟩⟩

/-! ### Edges -/

/-- Reading an edge changes nothing but the routes found so far. -/
theorem edgeDecision_eq_ok {acc : PlanAcc} {edge : WorkflowEdge} {decision : EdgeDecision}
    {routes : RouteCache}
    (h : edgeDecision rt vars nodes edges acc edge = .ok (decision, routes)) :
  ∃ source, acc.states.get? edge.source = some source
    ∧ (decision = .waiting ↔ source.status.isTerminal = false)
  := by
  rw [edgeDecision] at h
  split at h
  · cases h
  · rename_i source hsource
    refine ⟨source, hsource, ?_⟩
    split at h
    · rename_i hterminal
      obtain ⟨rfl, -⟩ := Prod.mk.inj (Except.ok.inj h)
      simp [hterminal]
    · rename_i hterminal
      have hne : decision ≠ .waiting := by
        rintro rfl
        split at h
        · cases h
        · obtain ⟨sourceNode, -, h⟩ := Outcome.bind_eq_ok.mp h
          split at h
          · split at h
            · split at h
              · cases h
              · split at h
                · have hdecision := (Prod.mk.inj (Outcome.pure_eq_ok.mp h)).1
                  split at hdecision
                  · cases hdecision
                  · cases hdecision
                · cases h
            · split at h
              · cases h
              · split at h
                · cases h
                · cases h
          · split at h
            · cases h
            · obtain ⟨⟨route, routes'⟩, -, h⟩ := Outcome.bind_eq_ok.mp h
              obtain message | target := route
              · cases h
              · have hdecision := (Prod.mk.inj (Outcome.pure_eq_ok.mp h)).1
                split at hdecision
                · cases hdecision
                · cases hdecision
      simp [hterminal, hne]

/-- The edges that enter a node are all read; one of them says to wait when its source is not
done. -/
theorem edgeDecisions_eq_ok {acc acc' : PlanAcc} {incoming : List WorkflowEdge}
    {decisions : List EdgeDecision}
    (h : edgeDecisions rt vars nodes edges acc incoming = .ok (decisions, acc')) :
  (∃ routes, acc' = { acc with routes := routes })
    ∧ (∀ edge ∈ incoming, ∃ source, acc.states.get? edge.source = some source
      ∧ (.waiting ∉ decisions → source.status.isTerminal = true))
    ∧ (.waiting ∈ decisions → ∃ edge ∈ incoming, ∃ source,
      acc.states.get? edge.source = some source ∧ source.status.isTerminal = false)
  := by
  induction incoming generalizing acc decisions with
  | nil =>
      obtain ⟨rfl, rfl⟩ := Prod.mk.inj (Except.ok.inj h)
      refine ⟨⟨acc.routes, rfl⟩, ?_, ?_⟩
      · simp
      · simp
  | cons edge rest ih =>
      obtain ⟨⟨decision, routes⟩, hedge, h⟩ := Outcome.bind_eq_ok.mp h
      obtain ⟨⟨decisions', acc''⟩, hrest, h⟩ := Outcome.bind_eq_ok.mp h
      obtain ⟨rfl, rfl⟩ := Prod.mk.inj (Outcome.pure_eq_ok.mp h)
      obtain ⟨source, hsource, hwaiting⟩ := edgeDecision_eq_ok hedge
      obtain ⟨⟨routes', rfl⟩, hall, hsome⟩ := ih hrest
      refine ⟨⟨routes', rfl⟩, ?_, ?_⟩
      · intro edge' hedge'
        obtain rfl | hedge' := List.mem_cons.mp hedge'
        · refine ⟨source, hsource, ?_⟩
          intro hnot
          rw [← Bool.not_eq_false]
          intro hterminal
          apply hnot
          rw [hwaiting.mpr hterminal]
          apply List.mem_cons_self
        · obtain ⟨source', hsource', hterminal⟩ := hall edge' hedge'
          refine ⟨source', hsource', ?_⟩
          intro hnot
          apply hterminal
          intro hmem
          apply hnot (List.mem_cons_of_mem _ hmem)
      · intro hmem
        obtain hhead | hmem := List.mem_cons.mp hmem
        · exact ⟨edge, List.mem_cons_self, source, hsource, hwaiting.mp hhead.symm⟩
        · obtain ⟨edge', hedge', hsource'⟩ := hsome hmem
          exact ⟨edge', List.mem_cons_of_mem _ hedge', hsource'⟩

/-- What becomes of a node without a child: a parent that is not done holds it back, or its
parents are done and it is done itself or enqueued. -/
theorem planChildless_recorded {acc acc' : PlanAcc} {node : WorkflowNode}
    (h : planChildless rt vars nodes edges acc node = .ok acc') :
  (∃ edge ∈ incomingEdges edges node.id, ∃ source,
      acc.states.get? edge.source = some source ∧ source.status.isTerminal = false
        ∧ Recorded acc acc' node.id { nodeId := node.id, status := .waiting } [] [] [])
    ∨ ((∀ edge ∈ incomingEdges edges node.id, ∃ source,
        acc.states.get? edge.source = some source ∧ source.status.isTerminal = true)
      ∧ ∃ state enqueue, Decided acc acc' node.id state enqueue)
  := by
  rw [planChildless] at h
  split at h
  · rename_i hincoming
    right
    constructor
    · rw [List.isEmpty_iff.mp hincoming]
      simp
    · apply planReady_decided h
  · obtain ⟨⟨decisions, accEdges⟩, hdecisions, h⟩ := Outcome.bind_eq_ok.mp h
    obtain ⟨⟨routes, rfl⟩, hall, hsome⟩ := edgeDecisions_eq_ok hdecisions
    simp only [planDecided] at h
    split at h
    · rename_i hwaiting
      left
      obtain ⟨edge, hedge, source, hsource, hterminal⟩ := hsome hwaiting
      obtain rfl := Except.ok.inj h
      obtain ⟨hstates, henqueue, hretry, hwaits⟩ := recorded_record
        { acc with routes := routes } { nodeId := node.id, status := .waiting }
      exact ⟨edge, hedge, source, hsource, hterminal, hstates, henqueue, hretry, hwaits⟩
    · rename_i hwaiting
      right
      constructor
      · intro edge hedge
        obtain ⟨source, hsource, hterminal⟩ := hall edge hedge
        exact ⟨source, hsource, hterminal hwaiting⟩
      · obtain ⟨hstates, henqueue, hretry, hwaits⟩ := recorded_record
          { acc with routes := routes } { nodeId := node.id, status := .skipped }
        split at h
        · obtain rfl := Except.ok.inj h
          exact ⟨_, [], ⟨hstates, henqueue, hretry, hwaits⟩, .inl ⟨rfl, rfl⟩⟩
        · split at h
          · obtain rfl := Except.ok.inj h
            exact ⟨_, [], ⟨hstates, henqueue, hretry, hwaits⟩, .inl ⟨rfl, rfl⟩⟩
          · obtain ⟨state, enqueue, ⟨hstates, henqueue, hretry, hwaits⟩, houtcome⟩ :=
              planReady_decided h
            exact ⟨state, enqueue, ⟨hstates, henqueue, hretry, hwaits⟩, houtcome⟩

/-! ### The whole pass -/

variable {defaultMaxRetries now : ℤ} {children : Dict Text WorkflowChildJob}

/-- What one node of the pass records, with a child and without. -/
theorem planNode_recorded {acc acc' : PlanAcc} {node : WorkflowNode}
    (h : planNode rt vars nodes edges defaultMaxRetries children now acc node = .ok acc') :
  (∃ child state retry waits, children.get? node.id = some child
      ∧ Reported node child defaultMaxRetries state.status retry waits
      ∧ Recorded acc acc' node.id state [] retry waits)
    ∨ (children.get? node.id = none
      ∧ ∃ state enqueue, Recorded acc acc' node.id state enqueue [] []
        ∧ (state.status = .waiting ∧ enqueue = []
          ∨ (state.status.isTerminal = true ∧ enqueue = []
              ∨ state.status = .waiting ∧ enqueue = [node.id])
            ∧ ∀ edge ∈ incomingEdges edges node.id, ∃ source,
              acc.states.get? edge.source = some source ∧ source.status.isTerminal = true))
  := by
  rw [planNode] at h
  split at h
  · rename_i child hchild
    left
    obtain ⟨settled, hstatus, -, hstates, henqueue, hretry, hwaits⟩ := settle_recorded h
    have hreported := stateFromChild_reported node child now defaultMaxRetries
    rw [← hstatus] at hreported
    refine ⟨child, settled, _, _, hchild, hreported, hstates, henqueue, ?_, ?_⟩
    · rw [hretry, List.append_nil]
    · rw [hwaits, List.append_nil]
  · rename_i hchild
    right
    refine ⟨hchild, ?_⟩
    obtain ⟨_, _, _, _, _, hrecorded⟩ | ⟨hparents, state, enqueue, hdecided⟩ :=
      planChildless_recorded h
    · exact ⟨_, [], hrecorded, .inl ⟨rfl, rfl⟩⟩
    · exact ⟨state, enqueue, hdecided.recorded, .inr ⟨hdecided.outcome, hparents⟩⟩

/-- What the states and the lists of a pass say about the children and the edges. -/
structure PassInvariant (nodes : List WorkflowNode) (edges : List WorkflowEdge)
    (defaultMaxRetries : ℤ) (children : Dict Text WorkflowChildJob) (acc : PlanAcc) : Prop where
  parents : ∀ nodeId state, acc.states.get? nodeId = some state → children.get? nodeId = none →
    (state.status.isTerminal = true ∨ nodeId ∈ acc.enqueue) →
    ∀ edge ∈ incomingEdges edges nodeId, ∃ source,
      acc.states.get? edge.source = some source ∧ source.status.isTerminal = true
  enqueue : ∀ nodeId ∈ acc.enqueue, children.get? nodeId = none
    ∧ ∃ state, acc.states.get? nodeId = some state ∧ state.status = .waiting
  enqueue_nodup : acc.enqueue.Nodup
  reported : ∀ nodeId state child, acc.states.get? nodeId = some state →
    children.get? nodeId = some child →
    ∃ node ∈ nodes, node.id = nodeId
      ∧ ∃ retry waits, Reported node child defaultMaxRetries state.status retry waits
  retry : ∀ jobId ∈ acc.retry, ∃ node ∈ nodes, ∃ child, children.get? node.id = some child
    ∧ child.jobId = jobId ∧ child.retryCount < retryBudget node defaultMaxRetries
    ∧ ∃ state, acc.states.get? node.id = some state ∧ state.status = .retryWait

theorem PassInvariant.planNode {acc acc' : PlanAcc} {node : WorkflowNode}
    (hinv : PassInvariant nodes edges defaultMaxRetries children acc) (hmem : node ∈ nodes)
    (hnew : acc.states.get? node.id = none)
    (h : planNode rt vars nodes edges defaultMaxRetries children now acc node = .ok acc') :
  PassInvariant nodes edges defaultMaxRetries children acc'
  := by
  have hkeep : ∀ {state enqueue retry waits}, Recorded acc acc' node.id state enqueue retry waits →
      ∀ {other found}, acc.states.get? other = some found →
        acc'.states.get? other = some found := by
    intro state enqueue retry waits hrecorded other found hfound
    rw [hrecorded.get?_of_ne]
    · apply hfound
    · rintro rfl
      rw [hnew] at hfound
      cases hfound
  have hnotQueued : node.id ∉ acc.enqueue := by
    intro hqueued
    obtain ⟨-, state, hstate, -⟩ := hinv.enqueue node.id hqueued
    rw [hnew] at hstate
    cases hstate
  obtain ⟨child, state, retry, waits, hchild, hreported, hrecorded⟩
    | ⟨hchild, state, enqueue, hrecorded, houtcome⟩ := planNode_recorded h
  · have henqueue : acc'.enqueue = acc.enqueue := by rw [hrecorded.enqueue, List.append_nil]
    constructor
    · intro nodeId found hfound hnone hcase edge hedge
      have hne : node.id ≠ nodeId := by
        rintro rfl
        rw [hchild] at hnone
        cases hnone
      rw [hrecorded.get?_of_ne hne] at hfound
      rw [henqueue] at hcase
      obtain ⟨source, hsource, hterminal⟩ := hinv.parents nodeId found hfound hnone hcase edge hedge
      exact ⟨source, hkeep hrecorded hsource, hterminal⟩
    · intro nodeId hqueued
      rw [henqueue] at hqueued
      obtain ⟨hnone, found, hfound, hstatus⟩ := hinv.enqueue nodeId hqueued
      exact ⟨hnone, found, hkeep hrecorded hfound, hstatus⟩
    · rw [henqueue]
      apply hinv.enqueue_nodup
    · intro nodeId found other hfound hother
      by_cases hne : node.id = nodeId
      · obtain rfl := hne
        rw [hrecorded.get?_self] at hfound
        obtain rfl := Option.some.inj hfound
        rw [hchild] at hother
        obtain rfl := Option.some.inj hother
        exact ⟨node, hmem, rfl, retry, waits, hreported⟩
      · rw [hrecorded.get?_of_ne hne] at hfound
        apply hinv.reported nodeId found other hfound hother
    · intro jobId hjob
      rw [hrecorded.retry] at hjob
      obtain hold | hjob := List.mem_append.mp hjob
      · obtain ⟨other, hother, child', hchild', hid, hbudget, found, hfound, hstatus⟩ :=
          hinv.retry jobId hold
        exact ⟨other, hother, child', hchild', hid, hbudget, found, hkeep hrecorded hfound, hstatus⟩
      · obtain ⟨rfl, hbudget, hstatus⟩ : jobId = child.jobId
            ∧ child.retryCount < retryBudget node defaultMaxRetries
            ∧ state.status = .retryWait := by
          generalize state.status = status at hreported ⊢
          cases hreported with
          | retryNow _ hbudget => exact ⟨List.mem_singleton.mp hjob, hbudget, rfl⟩
          | _ => cases hjob
        exact ⟨node, hmem, child, hchild, rfl, hbudget, state, hrecorded.get?_self, hstatus⟩
  · have hretry : acc'.retry = acc.retry := by rw [hrecorded.retry, List.append_nil]
    have hqueue : ∀ nodeId ∈ acc'.enqueue, nodeId ≠ node.id → nodeId ∈ acc.enqueue := by
      intro nodeId hqueued hne
      rw [hrecorded.enqueue] at hqueued
      obtain hold | hqueued := List.mem_append.mp hqueued
      · apply hold
      · obtain ⟨-, rfl⟩ | ⟨⟨-, rfl⟩ | ⟨-, rfl⟩, -⟩ := houtcome
        · cases hqueued
        · cases hqueued
        · exact (hne (List.mem_singleton.mp hqueued)).elim
    have hself : ∀ nodeId ∈ acc'.enqueue, nodeId = node.id → state.status = .waiting := by
      rintro nodeId hqueued rfl
      rw [hrecorded.enqueue] at hqueued
      obtain hold | hqueued := List.mem_append.mp hqueued
      · exact (hnotQueued hold).elim
      · obtain ⟨-, rfl⟩ | ⟨⟨-, rfl⟩ | ⟨hstatus, -⟩, -⟩ := houtcome
        · cases hqueued
        · cases hqueued
        · apply hstatus
    constructor
    · intro nodeId found hfound hnone hcase edge hedge
      by_cases hne : node.id = nodeId
      · obtain rfl := hne
        rw [hrecorded.get?_self] at hfound
        obtain rfl := Option.some.inj hfound
        obtain ⟨hstatus, rfl⟩ | ⟨-, hparents⟩ := houtcome
        · obtain hterminal | hqueued := hcase
          · rw [hstatus] at hterminal
            cases hterminal
          · rw [hrecorded.enqueue, List.append_nil] at hqueued
            exact (hnotQueued hqueued).elim
        · obtain ⟨source, hsource, hterminal⟩ := hparents edge hedge
          exact ⟨source, hkeep hrecorded hsource, hterminal⟩
      · rw [hrecorded.get?_of_ne hne] at hfound
        have hcase' : found.status.isTerminal = true ∨ nodeId ∈ acc.enqueue := by
          obtain hterminal | hqueued := hcase
          · left
            apply hterminal
          · right
            apply hqueue nodeId hqueued (Ne.symm hne)
        obtain ⟨source, hsource, hterminal⟩ :=
          hinv.parents nodeId found hfound hnone hcase' edge hedge
        exact ⟨source, hkeep hrecorded hsource, hterminal⟩
    · intro nodeId hqueued
      by_cases hne : nodeId = node.id
      · have hstatus := hself nodeId hqueued hne
        obtain rfl := hne
        exact ⟨hchild, state, hrecorded.get?_self, hstatus⟩
      · obtain ⟨hnone, found, hfound, hstatus⟩ :=
          hinv.enqueue nodeId (hqueue nodeId hqueued hne)
        exact ⟨hnone, found, hkeep hrecorded hfound, hstatus⟩
    · rw [hrecorded.enqueue]
      obtain ⟨-, rfl⟩ | ⟨⟨-, rfl⟩ | ⟨-, rfl⟩, -⟩ := houtcome
      · rw [List.append_nil]
        apply hinv.enqueue_nodup
      · rw [List.append_nil]
        apply hinv.enqueue_nodup
      · apply List.nodup_append.mpr
        refine ⟨hinv.enqueue_nodup, List.nodup_singleton _, ?_⟩
        rintro nodeId hqueued other hother rfl
        obtain rfl := List.mem_singleton.mp hother
        apply hnotQueued hqueued
    · intro nodeId found other hfound hother
      have hne : node.id ≠ nodeId := by
        rintro rfl
        rw [hchild] at hother
        cases hother
      rw [hrecorded.get?_of_ne hne] at hfound
      apply hinv.reported nodeId found other hfound hother
    · intro jobId hjob
      rw [hretry] at hjob
      obtain ⟨other, hother, child', hchild', hid, hbudget, found, hfound, hstatus⟩ :=
        hinv.retry jobId hjob
      exact ⟨other, hother, child', hchild', hid, hbudget, found, hkeep hrecorded hfound, hstatus⟩

theorem planNodes_passInvariant_from {acc acc' : PlanAcc} {order : List WorkflowNode}
    (hinv : PassInvariant nodes edges defaultMaxRetries children acc)
    (hnodup : (order.map WorkflowNode.id).Nodup) (horder : ∀ node ∈ order, node ∈ nodes)
    (hnew : ∀ node ∈ order, acc.states.get? node.id = none)
    (h : planNodes rt vars nodes edges defaultMaxRetries children now order acc = .ok acc') :
  PassInvariant nodes edges defaultMaxRetries children acc'
  := by
  induction order generalizing acc with
  | nil =>
      obtain rfl := Outcome.pure_eq_ok.mp h
      apply hinv
  | cons node rest ih =>
      rw [planNodes, List.foldlM_cons] at h
      obtain ⟨acc₁, hnode, h⟩ := Outcome.bind_eq_ok.mp h
      obtain ⟨hnotin, hrest⟩ := List.nodup_cons.mp hnodup
      apply ih _ hrest _ _ h
      · apply hinv.planNode (horder node List.mem_cons_self) (hnew node List.mem_cons_self) hnode
      · intro other hother
        apply horder other (List.mem_cons_of_mem _ hother)
      · intro other hother
        have hne : node.id ≠ other.id := by
          intro heq
          apply hnotin
          rw [heq]
          apply List.mem_map_of_mem hother
        have hold := hnew other (List.mem_cons_of_mem _ hother)
        obtain ⟨_, _, _, _, _, _, hrecorded⟩ | ⟨_, _, _, hrecorded, _⟩ := planNode_recorded hnode
        · rw [hrecorded.get?_of_ne hne, hold]
        · rw [hrecorded.get?_of_ne hne, hold]

/-- The invariant holds of what the whole pass finds. -/
theorem planNodes_passInvariant {acc : PlanAcc} {order : List WorkflowNode}
    (hnodup : (order.map WorkflowNode.id).Nodup) (horder : ∀ node ∈ order, node ∈ nodes)
    (h : planNodes rt vars nodes edges defaultMaxRetries children now order {} = .ok acc) :
  PassInvariant nodes edges defaultMaxRetries children acc
  := by
  apply planNodes_passInvariant_from _ hnodup horder (fun _ _ => rfl) h
  constructor
  · intro nodeId state hstate
    cases hstate
  · intro nodeId hqueued
    cases hqueued
  · apply List.nodup_nil
  · intro nodeId state child hstate
    cases hstate
  · intro jobId hjob
    cases hjob

end Planner

/-! ### The plan -/

/-- A run that goes on is planned as the pass has found it, and some node is not done. -/
theorem finishPlan_of_runStatus_none {nodes : List WorkflowNode}
    {children : Dict Text WorkflowChildJob} {acc : PlanAcc}
    (h : (finishPlan nodes children acc).runStatus = none) :
  finishPlan nodes children acc
      = { nodeStates := acc.states
          enqueueNodeIds := acc.enqueue
          retryJobIds := acc.retry
          cancelJobIds := []
          runStatus := none
          waitMicroseconds := shortestWait acc.waits }
    ∧ ∃ nodeId state, acc.states.get? nodeId = some state ∧ state.status.isTerminal = false
  := by
  rw [finishPlan] at h ⊢
  split at h
  · cases h
  · split at h
    · split at h
      · cases h
      · cases h
    · rename_i hunfinished
      constructor
      · rw [if_neg hunfinished]
      · rw [List.all_eq_true] at hunfinished
        push Not at hunfinished
        obtain ⟨state, hmem, hterminal⟩ := hunfinished
        obtain ⟨nodeId, hstate⟩ := Dict.mem_values_iff.mp hmem
        exact ⟨nodeId, state, hstate, by simpa using hterminal⟩

end Workflow

import DataOpsStudio.Workflow.Safety

/-!
# Workflows without branches

In a workflow in which no node is a branch and none branches on failure, every edge is followed
when its source has succeeded.  A node gets its job in no other case, however the steps of the
executor and the moves of the jobs follow each other, and a job that has succeeded stays as it is.
So whatever a job finds has been left there by jobs that succeeded.
-/

namespace Workflow

open Text

/-- A workflow without branches. -/
structure Plain (nodes : List WorkflowNode) (edges : List WorkflowEdge) : Prop where
  kind : ∀ node ∈ nodes, node.jobKind ≠ .branch
  onFailure : ∀ node ∈ nodes, node.onFailure ≠ .branch
  trigger : ∀ edge ∈ edges, edge.trigger = .success

/-! ### The pass over the nodes -/

/-- What the pass has found in a workflow without branches: nodes are done successfully only if
their children are, and nodes are enqueued only if all their parents are done successfully. -/
structure PlainPass (edges : List WorkflowEdge) (children : Dict Text WorkflowChildJob)
    (acc : PlanAcc) : Prop where
  inactive : acc.inactive = []
  succeeded : ∀ nodeId state, acc.states.get? nodeId = some state → state.status = .success →
    ∃ child, children.get? nodeId = some child ∧ child.status = .success
  enqueue : ∀ nodeId ∈ acc.enqueue, ∀ edge ∈ edges, edge.target = nodeId →
    ∃ source, acc.states.get? edge.source = some source ∧ source.status = .success

section Pass

variable {rt : WhenRuntime} {vars : Variables} {nodes : List WorkflowNode}
  {edges : List WorkflowEdge} {children : Dict Text WorkflowChildJob}
  {defaultMaxRetries now : ℤ} {acc acc' : PlanAcc} {node : WorkflowNode}

/-- An edge says to wait, that its source has succeeded, or that its target is blocked. -/
theorem Plain.edgeDecision (hplain : Plain nodes edges) (hinactive : acc.inactive = [])
    {edge : WorkflowEdge} (hedge : edge ∈ edges) {decision : EdgeDecision} {routes : RouteCache}
    (h : edgeDecision rt vars nodes edges acc edge = .ok (decision, routes)) :
  decision ≠ .inactive ∧ (decision = .waiting ∨ decision = .blocked
    ∨ ∃ source, acc.states.get? edge.source = some source ∧ source.status = .success)
  := by
  rw [Workflow.edgeDecision] at h
  split at h
  case h_1 => cases h
  case h_2 source hsource =>
    rw [hinactive] at h
    split at h
    case isTrue =>
      obtain ⟨rfl, -⟩ := Prod.mk.inj (Except.ok.inj h)
      exact ⟨EdgeDecision.noConfusion, .inl rfl⟩
    case isFalse =>
      rw [List.contains_nil, if_neg Bool.false_ne_true, hplain.trigger edge hedge] at h
      obtain ⟨sourceNode, hlookup, h⟩ := Outcome.bind_eq_ok.mp h
      have hmem := (lookupNode_eq_ok hlookup).2
      dsimp only at h
      rw [if_neg (hplain.kind sourceNode hmem)] at h
      split at h
      case isTrue hstatus =>
        obtain ⟨rfl, -⟩ := Prod.mk.inj (Outcome.pure_eq_ok.mp h)
        exact ⟨EdgeDecision.noConfusion, .inr (.inr ⟨source, hsource, hstatus⟩)⟩
      case isFalse =>
        rw [if_neg (fun hfailed => hplain.onFailure sourceNode hmem hfailed.2)] at h
        obtain ⟨rfl, -⟩ := Prod.mk.inj (Outcome.pure_eq_ok.mp h)
        exact ⟨EdgeDecision.noConfusion, .inr (.inl rfl)⟩

theorem Plain.edgeDecisions (hplain : Plain nodes edges) (hinactive : acc.inactive = [])
    {incoming : List WorkflowEdge} (hincoming : ∀ edge ∈ incoming, edge ∈ edges)
    {decisions : List EdgeDecision}
    (h : edgeDecisions rt vars nodes edges acc incoming = .ok (decisions, acc')) :
  decisions.length = incoming.length ∧ (∀ decision ∈ decisions, decision ≠ .inactive)
    ∧ (.waiting ∉ decisions → .blocked ∉ decisions → ∀ edge ∈ incoming,
      ∃ source, acc.states.get? edge.source = some source ∧ source.status = .success)
  := by
  induction incoming generalizing acc decisions with
  | nil =>
      obtain ⟨rfl, rfl⟩ := Prod.mk.inj (Except.ok.inj h)
      exact ⟨rfl, by simp, by simp⟩
  | cons edge rest ih =>
      obtain ⟨⟨decision, routes⟩, hedge, h⟩ := Outcome.bind_eq_ok.mp h
      obtain ⟨⟨decisions', acc''⟩, hrest, h⟩ := Outcome.bind_eq_ok.mp h
      obtain ⟨rfl, rfl⟩ := Prod.mk.inj (Outcome.pure_eq_ok.mp h)
      rw [List.forall_mem_cons] at hincoming
      obtain ⟨hne, hdecision⟩ := hplain.edgeDecision hinactive hincoming.1 hedge
      obtain ⟨hlength, hall, hsucceeded⟩ :=
        @ih { acc with routes := routes } hinactive hincoming.2 decisions' hrest
      refine ⟨?_, List.forall_mem_cons.mpr ⟨hne, hall⟩, ?_⟩
      · rw [List.length_cons, List.length_cons, hlength]
      · intro hwaiting hblocked
        rw [List.mem_cons, not_or] at hwaiting hblocked
        rw [List.forall_mem_cons]
        refine ⟨?_, hsucceeded hwaiting.2 hblocked.2⟩
        obtain hwait | hblock | hsource := hdecision
        · exact absurd hwait.symm hwaiting.1
        · exact absurd hblock.symm hblocked.1
        · exact hsource

/-- The state of a node that the pass records, which adds it to the nodes to be enqueued or not. -/
structure Adds (acc acc' : PlanAcc) (node : WorkflowNode) (state : WorkflowNodeState)
    (enqueue : List Text) : Prop where
  states : ∀ other, acc'.states.get? other
    = if node.id = other then some state else acc.states.get? other
  enqueue : acc'.enqueue = acc.enqueue ++ enqueue
  inactive : acc'.inactive = acc.inactive

theorem settle_adds {state : WorkflowNodeState}
    (h : settle rt vars edges acc node state = .ok acc') :
  ∃ settled, settled.status = state.status ∧ Adds acc acc' node settled []
  := by
  obtain ⟨settled, hstatus, -, hrecorded⟩ := settle_recorded h
  refine ⟨settled, hstatus, hrecorded.states, hrecorded.enqueue, ?_⟩
  obtain ⟨⟨_, routes⟩, -, h⟩ := Outcome.bind_eq_ok.mp h
  obtain rfl := Outcome.pure_eq_ok.mp h
  rfl

theorem record_adds (state : WorkflowNodeState) (hid : state.nodeId = node.id) :
  Adds acc (acc.record state) node state []
  := by
  have hrecorded := recorded_record acc state
  rw [hid] at hrecorded
  exact ⟨hrecorded.states, hrecorded.enqueue, rfl⟩

/-- A node that no parent holds back is not done successfully: it has no child yet. -/
theorem Plain.planReady (hkind : node.jobKind ≠ .branch)
    (h : planReady rt vars edges acc node = .ok acc') :
  ∃ state enqueue, state.status ≠ .success ∧ Adds acc acc' node state enqueue
    ∧ ∀ nodeId ∈ enqueue, nodeId = node.id
  := by
  have hfailed : ∀ {errorCode message : Text},
      settleFailed rt vars edges acc node errorCode message = .ok acc' →
      ∃ state enqueue, state.status ≠ .success ∧ Adds acc acc' node state enqueue
        ∧ ∀ nodeId ∈ enqueue, nodeId = node.id := by
    intro errorCode message hsettle
    obtain ⟨settled, hstatus, hadds⟩ := settle_adds hsettle
    refine ⟨settled, [], ?_, hadds, by simp⟩
    rw [hstatus]
    exact WorkflowNodeExecStatus.noConfusion
  rw [Workflow.planReady] at h
  split at h
  case h_1 => exact hfailed h
  case h_2 =>
    obtain rfl := Except.ok.inj h
    exact ⟨_, [], WorkflowNodeExecStatus.noConfusion, record_adds _ rfl, by simp⟩
  case h_3 =>
    split at h
    case h_1 => exact hfailed h
    case h_2 =>
      rw [if_neg hkind] at h
      obtain rfl := Except.ok.inj h
      have hrecorded := recorded_ready acc node Dict.empty
      exact ⟨_, [node.id], WorkflowNodeExecStatus.noConfusion,
        ⟨hrecorded.states, hrecorded.enqueue, rfl⟩, by simp⟩

theorem Plain.planChildless (hplain : Plain nodes edges) (hmem : node ∈ nodes)
    (hinactive : acc.inactive = []) (h : planChildless rt vars nodes edges acc node = .ok acc') :
  ∃ state enqueue, state.status ≠ .success ∧ Adds acc acc' node state enqueue
    ∧ ∀ nodeId ∈ enqueue, nodeId = node.id ∧ ∀ edge ∈ edges, edge.target = nodeId →
      ∃ source, acc.states.get? edge.source = some source ∧ source.status = .success
  := by
  have hincoming : ∀ edge, edge ∈ incomingEdges edges node.id ↔
      edge ∈ edges ∧ edge.target = node.id := by
    intro edge
    rw [incomingEdges, List.mem_filter, beq_iff_eq]
  rw [Workflow.planChildless] at h
  split at h
  case isTrue hempty =>
    obtain ⟨state, enqueue, hstatus, hadds, hids⟩ := Plain.planReady (hplain.kind node hmem) h
    refine ⟨state, enqueue, hstatus, hadds, fun nodeId hnode => ⟨hids nodeId hnode, ?_⟩⟩
    intro edge hedge htarget
    have hin := (hincoming edge).mpr ⟨hedge, htarget.trans (hids nodeId hnode)⟩
    rw [List.isEmpty_iff.mp hempty] at hin
    exact (List.not_mem_nil hin).elim
  case isFalse hnonempty =>
    obtain ⟨⟨decisions, accEdges⟩, hdecisions, h⟩ := Outcome.bind_eq_ok.mp h
    obtain ⟨⟨routes, rfl⟩, -, -⟩ := edgeDecisions_eq_ok hdecisions
    obtain ⟨hlength, hall, hsucceeded⟩ := hplain.edgeDecisions hinactive
      (fun edge hedge => ((hincoming edge).mp hedge).1) hdecisions
    simp only [planDecided] at h
    split at h
    case isTrue =>
      obtain rfl := Except.ok.inj h
      have hadds : Adds acc (acc.record { nodeId := node.id, status := .waiting }) node
          { nodeId := node.id, status := .waiting } [] := record_adds _ rfl
      exact ⟨_, [], WorkflowNodeExecStatus.noConfusion,
        ⟨hadds.states, hadds.enqueue, rfl⟩, by simp⟩
    case isFalse hwaiting =>
      split at h
      case isTrue hinactives =>
        -- there is an edge, and it does not say that it is not followed
        rw [List.isEmpty_iff, ← List.length_eq_zero_iff, ← hlength,
          List.length_eq_zero_iff] at hnonempty
        obtain ⟨decision, rest, rfl⟩ := List.exists_cons_of_ne_nil hnonempty
        exact absurd (hinactives decision List.mem_cons_self) (hall decision List.mem_cons_self)
      case isFalse =>
        split at h
        case isTrue =>
          obtain rfl := Except.ok.inj h
          have hadds : Adds acc (acc.record { nodeId := node.id, status := .skipped }) node
              { nodeId := node.id, status := .skipped } [] := record_adds _ rfl
          exact ⟨_, [], WorkflowNodeExecStatus.noConfusion,
            ⟨hadds.states, hadds.enqueue, rfl⟩, by simp⟩
        case isFalse hblocked =>
          obtain ⟨state, enqueue, hstatus, hadds, hids⟩ :=
            Plain.planReady (hplain.kind node hmem) h
          refine ⟨state, enqueue, hstatus, ⟨hadds.states, hadds.enqueue, hadds.inactive⟩,
            fun nodeId hnode => ⟨hids nodeId hnode, ?_⟩⟩
          intro edge hedge htarget
          exact hsucceeded hwaiting hblocked edge
            ((hincoming edge).mpr ⟨hedge, htarget.trans (hids nodeId hnode)⟩)

/-- One node of the pass keeps what has been found. -/
theorem PlainPass.planNode (hplain : Plain nodes edges) (hmem : node ∈ nodes)
    (hnew : acc.states.get? node.id = none) (h : PlainPass edges children acc)
    (hplan : planNode rt vars nodes edges defaultMaxRetries children now acc node = .ok acc') :
  PlainPass edges children acc'
  := by
  have hkeep : ∀ {state enqueue}, Adds acc acc' node state enqueue → ∀ {other found},
      acc.states.get? other = some found → acc'.states.get? other = some found := by
    intro state enqueue hadds other found hfound
    rw [hadds.states, if_neg, hfound]
    rintro rfl
    rw [hnew] at hfound
    cases hfound
  have hadd : ∀ {state enqueue}, Adds acc acc' node state enqueue →
      (state.status = .success → ∃ child, children.get? node.id = some child
        ∧ child.status = .success) →
      (∀ nodeId ∈ enqueue, ∀ edge ∈ edges, edge.target = nodeId →
        ∃ source, acc.states.get? edge.source = some source ∧ source.status = .success) →
      PlainPass edges children acc' := by
    intro state enqueue hadds hchild hparents
    refine ⟨hadds.inactive.trans h.inactive, ?_, ?_⟩
    · intro nodeId found hfound hsuccess
      rw [hadds.states] at hfound
      split at hfound
      case isTrue hnode =>
        obtain rfl := Option.some.inj hfound
        exact hnode ▸ hchild hsuccess
      case isFalse => exact h.succeeded nodeId found hfound hsuccess
    · intro nodeId hnode edge hedge htarget
      rw [hadds.enqueue, List.mem_append] at hnode
      obtain hnode | hnode := hnode
      · obtain ⟨source, hsource, hsuccess⟩ := h.enqueue nodeId hnode edge hedge htarget
        exact ⟨source, hkeep hadds hsource, hsuccess⟩
      · obtain ⟨source, hsource, hsuccess⟩ := hparents nodeId hnode edge hedge htarget
        exact ⟨source, hkeep hadds hsource, hsuccess⟩
  rw [Workflow.planNode] at hplan
  split at hplan
  case h_1 child hchild =>
    obtain ⟨settled, hstatus, hadds⟩ := settle_adds hplan
    have hreported := stateFromChild_reported node child now defaultMaxRetries
    rw [← hstatus] at hreported
    refine hadd ⟨hadds.states, hadds.enqueue, hadds.inactive⟩ ?_ (by simp)
    intro hsuccess
    rw [hsuccess] at hreported
    refine ⟨child, hchild, ?_⟩
    generalize (stateFromChild node child now defaultMaxRetries).retry = retry at hreported
    generalize (stateFromChild node child now defaultMaxRetries).waits = waits at hreported
    cases hreported with
    | success hchildStatus => exact hchildStatus
  case h_2 =>
    obtain ⟨state, enqueue, hstatus, hadds, hparents⟩ :=
      hplain.planChildless hmem h.inactive hplan
    exact hadd hadds (fun hsuccess => absurd hsuccess hstatus)
      (fun nodeId hnode => (hparents nodeId hnode).2)

theorem planNodes_plainPass (hplain : Plain nodes edges) {order : List WorkflowNode}
    (hnodup : (order.map WorkflowNode.id).Nodup) (horder : ∀ node ∈ order, node ∈ nodes)
    (hnew : ∀ node ∈ order, acc.states.get? node.id = none) (h : PlainPass edges children acc)
    (hplan : planNodes rt vars nodes edges defaultMaxRetries children now order acc = .ok acc') :
  PlainPass edges children acc'
  := by
  induction order generalizing acc with
  | nil =>
      obtain rfl := Outcome.pure_eq_ok.mp hplan
      exact h
  | cons node rest ih =>
      rw [planNodes, List.foldlM_cons] at hplan
      obtain ⟨acc₁, hnode, hplan⟩ := Outcome.bind_eq_ok.mp hplan
      obtain ⟨hnotin, hrest⟩ := List.nodup_cons.mp hnodup
      rw [List.forall_mem_cons] at horder hnew
      apply ih hrest horder.2 _ (h.planNode hplain horder.1 hnew.1 hnode) hplan
      intro other hother
      have hne : node.id ≠ other.id := by
        intro heq
        apply hnotin
        rw [heq]
        exact List.mem_map_of_mem hother
      obtain ⟨_, _, _, _, _, _, hrecorded⟩ | ⟨_, _, _, hrecorded, _⟩ := planNode_recorded hnode
      · rw [hrecorded.get?_of_ne hne, hnew.2 other hother]
      · rw [hrecorded.get?_of_ne hne, hnew.2 other hother]

end Pass

/-! ### Runs -/

section Runs

variable {rt : WhenRuntime} {spec : WorkflowSpec rt} {vars : Variables} {defaultMaxRetries : ℕ}
  {s t : RunState}

theorem Passed.plainPass (hplain : Plain spec.nodes spec.edges)
    {children : Dict Text WorkflowChildJob} {now : ℤ} {acc : PlanAcc}
    (h : Passed spec vars defaultMaxRetries children now acc) :
  PlainPass spec.edges children acc
  := by
  obtain ⟨order, horder, hacc⟩ := h
  obtain ⟨hnodup, hmem⟩ := topologicalNodes_nodup spec horder
  apply planNodes_plainPass hplain hnodup hmem (fun _ _ => rfl) _ hacc
  constructor
  · rfl
  · intro nodeId state hstate
    cases hstate
  · intro nodeId hqueued
    cases hqueued

/-- A change of jobs that keeps what they are to do, and leaves those that have succeeded. -/
structure Settles (g : JobRow → JobRow) : Prop where
  nodeId : ∀ row, (g row).nodeId = row.nodeId
  payload : ∀ row, (g row).payload = row.payload
  success : ∀ row : JobRow, row.status = .success → g row = row

theorem settles_id :
  Settles id
  := ⟨fun _ => rfl, fun _ => rfl, fun _ _ => rfl⟩

theorem Settles.iterate {g : JobRow → JobRow} (h : Settles g) (n : ℕ) :
  Settles g^[n]
  := by
  constructor
  · intro row
    exact congrFun (Function.iterate_invariant (funext h.nodeId) n) row
  · intro row
    exact congrFun (Function.iterate_invariant (funext h.payload) n) row
  · intro row hsuccess
    exact Function.iterate_fixed (h.success row hsuccess) n

theorem settles_retry :
  Settles JobRow.retry
  := by
  refine ⟨JobRow.keepsIdentity_retry.nodeId, ?_, ?_⟩
  · intro row
    rw [JobRow.retry]
    split
    case isTrue => rfl
    case isFalse => rfl
  · intro row hsuccess
    rw [JobRow.retry, if_neg]
    rw [hsuccess]
    simp

theorem settles_move (move : ChildMove) :
  Settles (fun row => row.move move)
  := by
  refine ⟨(JobRow.keepsIdentity_move move).nodeId, ?_, ?_⟩
  · intro row
    cases move <;> simp only [JobRow.move] <;> split <;> rfl
  · intro row hsuccess
    apply JobRow.move_of_not_isActive
    rw [hsuccess]
    rfl

theorem settles_moveJob (jobId : Text) (move : ChildMove) :
  Settles (fun row => if row.jobId = jobId then row.move move else row)
  := by
  constructor
  · intro row
    split
    case isTrue => exact (settles_move move).nodeId row
    case isFalse => rfl
  · intro row
    split
    case isTrue => exact (settles_move move).payload row
    case isFalse => rfl
  · intro row hsuccess
    split
    case isTrue => exact (settles_move move).success row hsuccess
    case isFalse => rfl

theorem settles_settleJob (plan : WorkflowStepPlan) (now : ℤ) :
  Settles (settleJob plan now)
  := by
  constructor
  · intro row
    rw [settleJob, ((settles_move _).iterate _).nodeId, (settles_retry.iterate _).nodeId]
  · intro row
    rw [settleJob, ((settles_move _).iterate _).payload, (settles_retry.iterate _).payload]
  · intro row hsuccess
    rw [settleJob, (settles_retry.iterate _).success row hsuccess,
      ((settles_move _).iterate _).success row hsuccess]

/-- The jobs that are created are built from their nodes. -/
theorem enqueueChildren_built (nodeOutputs : NodeOutputMap) (newJobId : Text → Text)
    (nodeIds : List Text) (rows : List JobRow) :
  ∃ created, (enqueueChildren spec vars nodeOutputs newJobId nodeIds rows).1 = rows ++ created
    ∧ (created.map JobRow.nodeId).Sublist nodeIds
    ∧ ∀ row ∈ created, ∃ node ∈ spec.nodes,
      buildWorkflowChildJob vars nodeOutputs node row.jobId = .ok row
  := by
  induction nodeIds generalizing rows with
  | nil => exact ⟨[], (List.append_nil _).symm, List.Sublist.refl _, by simp⟩
  | cons nodeId rest ih =>
      have hstop : ∃ created, rows = rows ++ created
          ∧ (created.map JobRow.nodeId).Sublist (nodeId :: rest)
          ∧ ∀ row ∈ created, ∃ node ∈ spec.nodes,
            buildWorkflowChildJob vars nodeOutputs node row.jobId = .ok row :=
        ⟨[], (List.append_nil _).symm, List.nil_sublist _, by simp⟩
      rw [enqueueChildren]
      split
      case h_1 => exact hstop
      case h_2 node hlookup =>
        split
        case h_1 => exact hstop
        case h_2 row hbuild =>
          obtain ⟨rfl, hmem⟩ := lookupNode_eq_ok hlookup
          obtain ⟨hnode, hjob, -⟩ := buildWorkflowChildJob_eq_ok hbuild
          obtain ⟨created, hrows, hids, hbuilt⟩ := ih (rows ++ [row])
          refine ⟨row :: created, ?_, ?_, List.forall_mem_cons.mpr ⟨⟨node, hmem, ?_⟩, hbuilt⟩⟩
          · rw [hrows, List.append_assoc, List.singleton_append]
          · rw [List.map_cons, hnode]
            exact hids.cons_cons _
          · rw [hjob]
            exact hbuild

/-- What a step does to the jobs: it creates some, which belong to nodes that the pass has
enqueued, and changes none that has succeeded. -/
theorem runSystem_step_rows {a : RunAction}
    (h : (runSystem spec vars defaultMaxRetries).step s a t) :
  ∃ g created, t.rows = (s.rows ++ created).map g ∧ Settles g
    ∧ (created = [] ∨ ∃ now acc nodeOutputs,
      Passed spec vars defaultMaxRetries (workflowChildrenSnapshots s.rows) now acc
        ∧ (created.map JobRow.nodeId).Sublist acc.enqueue
        ∧ ∀ row ∈ created, ∃ node ∈ spec.nodes,
          buildWorkflowChildJob vars nodeOutputs node row.jobId = .ok row)
  := by
  obtain ⟨now, newJobId, plan, -, -, hplan, -, -, rfl⟩ | ⟨jobId, move, -, rfl⟩ := runSystem_step h
  · obtain ⟨acc, hpassed, rfl⟩ := planWorkflowStep_eq_ok hplan
    generalize hfinish : finishPlan spec.nodes (workflowChildrenSnapshots s.rows) acc = plan
    obtain ⟨created, hrows, hids, hbuilt⟩ := @enqueueChildren_built rt spec vars
      (outputContext plan.nodeStates) newJobId plan.enqueueNodeIds s.rows
    have hqueued : (created.map JobRow.nodeId).Sublist acc.enqueue := by
      apply hids.trans
      rw [← hfinish]
      exact (finishPlan_lists _ _ _).1
    rw [executePlan, hrows]
    split
    case isTrue =>
      exact ⟨settleJob plan now, created, foldl_updateJob_settleJob _ _ _,
        settles_settleJob plan now, .inr ⟨now, acc, _, hpassed, hqueued, hbuilt⟩⟩
    case isFalse =>
      exact ⟨id, created, (List.map_id _).symm, settles_id,
        .inr ⟨now, acc, _, hpassed, hqueued, hbuilt⟩⟩
  · refine ⟨_, [], ?_, settles_moveJob jobId move, .inl rfl⟩
    rw [List.append_nil]
    rfl

/-- The parents of a node with a job have jobs that succeeded. -/
def ParentsSucceeded (edges : List WorkflowEdge) (rows : List JobRow) : Prop :=
  ∀ row ∈ rows, ∀ edge ∈ edges, edge.target = row.nodeId →
    ∃ parent ∈ rows, parent.nodeId = edge.source ∧ parent.status = .success

theorem ParentsSucceeded.map {edges : List WorkflowEdge} {rows : List JobRow}
    (h : ParentsSucceeded edges rows) {g : JobRow → JobRow} (hg : Settles g) :
  ParentsSucceeded edges (rows.map g)
  := by
  intro row hrow edge hedge htarget
  obtain ⟨old, hold, rfl⟩ := List.mem_map.mp hrow
  rw [hg.nodeId] at htarget
  obtain ⟨parent, hparent, hsource, hsuccess⟩ := h old hold edge hedge htarget
  refine ⟨parent, ?_, hsource, hsuccess⟩
  rw [← hg.success parent hsuccess]
  exact List.mem_map_of_mem hparent

/-- The jobs a plan creates have parents whose jobs succeeded. -/
theorem ParentsSucceeded.append (hplain : Plain spec.nodes spec.edges) {now : ℤ} {acc : PlanAcc}
    (hpassed : Passed spec vars defaultMaxRetries (workflowChildrenSnapshots s.rows) now acc)
    (h : ParentsSucceeded spec.edges s.rows) {created : List JobRow}
    (hids : (created.map JobRow.nodeId).Sublist acc.enqueue) :
  ParentsSucceeded spec.edges (s.rows ++ created)
  := by
  have hpass := hpassed.plainPass hplain
  intro row hrow edge hedge htarget
  obtain hrow | hrow := List.mem_append.mp hrow
  · obtain ⟨parent, hparent, hsucceeded⟩ := h row hrow edge hedge htarget
    exact ⟨parent, List.mem_append_left _ hparent, hsucceeded⟩
  · obtain ⟨source, hsource, hstatus⟩ := hpass.enqueue row.nodeId
      (hids.subset (List.mem_map_of_mem hrow)) edge hedge htarget
    obtain ⟨child, hchild, hsuccess⟩ := hpass.succeeded edge.source source hsource hstatus
    obtain ⟨parent, hparent, hnode, rfl⟩ := mem_of_get?_snapshots hchild
    exact ⟨parent, List.mem_append_left _ hparent, hnode, hsuccess⟩

theorem ParentsSucceeded.step (hplain : Plain spec.nodes spec.edges) (s : RunState)
    (a : RunAction) (t : RunState) (h : ParentsSucceeded spec.edges s.rows)
    (hstep : (runSystem spec vars defaultMaxRetries).step s a t) :
  ParentsSucceeded spec.edges t.rows
  := by
  obtain ⟨g, created, hrows, hg, hcreated⟩ := runSystem_step_rows hstep
  rw [hrows]
  apply ParentsSucceeded.map _ hg
  obtain rfl | ⟨now, acc, _, hpassed, hids, -⟩ := hcreated
  · rw [List.append_nil]
    exact h
  · exact h.append hplain hpassed hids

theorem parentsSucceeded_of_reachable (hplain : Plain spec.nodes spec.edges)
    (h : (runSystem spec vars defaultMaxRetries).Reachable s) :
  ParentsSucceeded spec.edges s.rows
  := by
  refine h.invariant ?_ (ParentsSucceeded.step hplain)
  rintro s rfl row hrow
  cases hrow

/-- Everything a node with a job depends on has succeeded. -/
theorem ParentsSucceeded.ancestor {edges : List WorkflowEdge} {rows : List JobRow}
    (h : ParentsSucceeded edges rows) {ancestor : Text} {row : JobRow} (hrow : row ∈ rows)
    (hancestor : IsAncestor edges ancestor row.nodeId) :
  ∃ other ∈ rows, other.nodeId = ancestor ∧ other.status = .success
  := by
  induction hancestor using Relation.TransGen.head_induction_on with
  | single hparent =>
      obtain ⟨edge, hedge, rfl, htarget⟩ := hparent
      exact h row hrow edge hedge htarget
  | head hparent _ ih =>
      obtain ⟨other, hother, hnode, -⟩ := ih
      obtain ⟨edge, hedge, rfl, htarget⟩ := hparent
      exact h other hother edge hedge (htarget.trans hnode.symm)

/-- A job that has succeeded is the same in every later state. -/
theorem mem_later_of_success {row : JobRow} (hrow : row ∈ s.rows) (hsuccess : row.status = .success)
    (hlater : (runSystem spec vars defaultMaxRetries).Later s t) :
  row ∈ t.rows
  := by
  have hstep : ∀ (u : RunState) (a : RunAction) (v : RunState), True → row ∈ u.rows →
      (runSystem spec vars defaultMaxRetries).step u a v → row ∈ v.rows := by
    intro u a v _ hmem hstep
    obtain ⟨g, created, hrows, hg, -⟩ := runSystem_step_rows hstep
    rw [hrows, List.mem_map]
    exact ⟨row, List.mem_append_left _ hmem, hg.success row hsuccess⟩
  exact (TransitionSystem.Later.invariant (fun _ _ _ _ _ => trivial) hstep trivial hrow hlater).2

/-- A job is for a node of the workflow, and has the payload that was built for it. -/
def JobRow.IsBuilt (spec : WorkflowSpec rt) (vars : Variables) (row : JobRow) : Prop :=
  ∃ node ∈ spec.nodes, ∃ nodeOutputs jobId built,
    buildWorkflowChildJob vars nodeOutputs node jobId = .ok built
      ∧ row.nodeId = node.id ∧ row.payload = built.payload

theorem isBuilt_of_reachable (h : (runSystem spec vars defaultMaxRetries).Reachable s) :
  ∀ row ∈ s.rows, row.IsBuilt spec vars
  := by
  refine h.invariant (I := fun s => ∀ row ∈ s.rows, row.IsBuilt spec vars) ?_ ?_
  · rintro s rfl row hrow
    cases hrow
  · intro s a t hbuilt hstep row hrow
    obtain ⟨g, created, hrows, hg, hcreated⟩ := runSystem_step_rows hstep
    rw [hrows] at hrow
    obtain ⟨old, hold, rfl⟩ := List.mem_map.mp hrow
    rw [JobRow.IsBuilt, hg.nodeId, hg.payload]
    obtain hold | hnew := List.mem_append.mp hold
    · exact hbuilt old hold
    · obtain rfl | ⟨_, _, nodeOutputs, -, -, hcreated⟩ := hcreated
      · cases hnew
      · obtain ⟨node, hnode, hbuild⟩ := hcreated old hnew
        exact ⟨node, hnode, nodeOutputs, _, old, hbuild,
          (buildWorkflowChildJob_eq_ok hbuild).1, rfl⟩

end Runs

/-- In every run of a workflow without branches, a node has a job only after all nodes upstream of
it have jobs that succeeded, and these stay as they are for the rest of the run. -/
theorem job_after_upstream_succeeded {rt : WhenRuntime} (spec : WorkflowSpec rt) (vars : Variables)
    (defaultMaxRetries : ℕ) (hplain : Plain spec.nodes spec.edges) (s : RunState)
    (hs : (runSystem spec vars defaultMaxRetries).Reachable s) :
  ∀ row ∈ s.rows, ∀ ancestor, IsAncestor spec.edges ancestor row.nodeId →
    ∃ other ∈ s.rows, other.nodeId = ancestor ∧ other.status = .success
      ∧ ∀ t, (runSystem spec vars defaultMaxRetries).Later s t → other ∈ t.rows
  := by
  intro row hrow ancestor hancestor
  obtain ⟨other, hother, hnode, hsuccess⟩ :=
    (parentsSucceeded_of_reachable hplain hs).ancestor hrow hancestor
  exact ⟨other, hother, hnode, hsuccess,
    fun t hlater => mem_later_of_success hother hsuccess hlater⟩

theorem plain_chainSpec :
  Plain chainSpec.nodes chainSpec.edges
  := by
  have hnodes : ∀ node ∈ chainSpec.nodes, node.jobKind ≠ .branch ∧ node.onFailure ≠ .branch := by
    decide
  exact ⟨fun node hnode => (hnodes node hnode).1, fun node hnode => (hnodes node hnode).2,
    by decide⟩

/-- The job of the export of the chain. -/
def exportJob : JobRow where
  nodeId := "export".toList
  jobId := "bexport".toList
  kind := .exportExcel
  payload := Dict.ofList [("workflow_node_id".toList, .str "export".toList)]

/-- A query that has succeeded, and the export after it. -/
theorem reachable_exported :
  (runSystem chainSpec Dict.empty 0).Reachable
    { rows := [{ queryJob with status := .success, finishedAt := some 0 }, exportJob] }
  := by
  have henqueued : (runSystem chainSpec Dict.empty 0).step {}
      (.execute 0 (fun nodeId => 'a' :: nodeId)) { rows := [queryJob] } := by
    refine ⟨rfl, List.cons_injective, ?_⟩
    intro row hrow
    cases hrow
  have hstarted : (runSystem chainSpec Dict.empty 0).step { rows := [queryJob] }
      (.child "aquery".toList .start) { rows := [{ queryJob with status := .running }] } :=
    ⟨rfl, trivial⟩
  have hsucceeded : (runSystem chainSpec Dict.empty 0).step
      { rows := [{ queryJob with status := .running }] }
      (.child "aquery".toList (.finish .success none none none 0))
      { rows := [{ queryJob with status := .success, finishedAt := some 0 }] } :=
    ⟨rfl, trivial⟩
  have hexported : (runSystem chainSpec Dict.empty 0).step
      { rows := [{ queryJob with status := .success, finishedAt := some 0 }] }
      (.execute 1 (fun nodeId => 'b' :: nodeId))
      { rows := [{ queryJob with status := .success, finishedAt := some 0 }, exportJob] } := by
    refine ⟨rfl, List.cons_injective, ?_⟩
    intro row hrow nodeId heq
    obtain rfl := List.mem_singleton.mp hrow
    cases heq
  apply TransitionSystem.Reachable.step _ hexported
  apply TransitionSystem.Reachable.step _ hsucceeded
  apply TransitionSystem.Reachable.step _ hstarted
  apply TransitionSystem.Reachable.step _ henqueued
  apply TransitionSystem.Reachable.initial rfl

theorem job_after_upstream_succeeded_export :
  ∃ other ∈ [{ queryJob with status := .success, finishedAt := some 0 }, exportJob],
    other.nodeId = "query".toList ∧ other.status = .success
      ∧ ∀ t, (runSystem chainSpec Dict.empty 0).Later
        { rows := [{ queryJob with status := .success, finishedAt := some 0 }, exportJob] } t →
        other ∈ t.rows
  := by
  apply job_after_upstream_succeeded chainSpec Dict.empty 0 plain_chainSpec _ reachable_exported
    exportJob (by simp)
  apply Relation.TransGen.single
  exact ⟨_, List.mem_cons_self, rfl, rfl⟩

end Workflow

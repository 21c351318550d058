import DataOpsStudio.Workflow.Noninterference

/-!
# The jobs of enqueued nodes

The pass renders the payload of a node, and selects the target of a branch, with the states it has
found when it comes to the node.  The executor renders the payload again, with the states of all
nodes, and takes the target from the state of the node.  Both come to the same: a payload refers to
ancestors, these come first, and no state changes after it has been recorded.
-/

namespace Workflow

open Text

section Rendering

variable {rt : WhenRuntime} {spec : WorkflowSpec rt} {vars : Variables} {defaultMaxRetries : ℕ}
  {children : Dict Text WorkflowChildJob} {now : ℤ} {acc acc' : PlanAcc}
  {order before rest : List WorkflowNode} {node : WorkflowNode}

/-! ### Ancestors come first -/

theorem ancestor_mem_before (hfirst : ParentsFirst spec.edges (order.map WorkflowNode.id))
    (hsplit : order = before ++ node :: rest) {ancestor : Text}
    (h : IsAncestor spec.edges ancestor node.id) :
  ∃ other ∈ before, other.id = ancestor
  := by
  have hsource : ∀ {front back : List WorkflowNode} {current : WorkflowNode},
      order = front ++ current :: back → ∀ edge ∈ spec.edges, edge.target = current.id →
      ∃ other ∈ front, other.id = edge.source := by
    intro front back current hsplit edge hedge htarget
    have hmem := hfirst (front.map WorkflowNode.id) current.id (back.map WorkflowNode.id)
      (by rw [hsplit, List.map_append, List.map_cons]) edge hedge htarget
    exact List.mem_map.mp hmem
  induction h using Relation.TransGen.head_induction_on with
  | single hparent =>
      obtain ⟨edge, hedge, rfl, htarget⟩ := hparent
      exact hsource hsplit edge hedge htarget
  | head hparent _ ih =>
      obtain ⟨edge, hedge, rfl, htarget⟩ := hparent
      obtain ⟨parent, hparent, hid⟩ := ih
      obtain ⟨front, back, rfl⟩ := List.append_of_mem hparent
      rw [List.append_assoc, List.cons_append] at hsplit
      obtain ⟨other, hother, hsource⟩ := hsource hsplit edge hedge (htarget.trans hid.symm)
      exact ⟨other, List.mem_append_left _ hother, hsource⟩

/-! ### What the rest of the pass leaves alone -/

/-- The pass over other nodes leaves the state, the routes and the decision about a node. -/
theorem planNodes_kept (horder : ∀ other ∈ order, other ∈ spec.nodes)
    (hknown : RoutesKnown spec.edges acc)
    (h : planNodes rt vars spec.nodes spec.edges defaultMaxRetries children now order acc
      = .ok acc') {nodeId : Text} (hnot : ∀ other ∈ order, other.id ≠ nodeId) :
  acc'.states.get? nodeId = acc.states.get? nodeId ∧
    (∀ trigger, acc'.routes.get? (nodeId, trigger) = acc.routes.get? (nodeId, trigger)) ∧
    (nodeId ∈ acc'.enqueue ↔ nodeId ∈ acc.enqueue) ∧ RoutesKnown spec.edges acc'
  := by
  induction order generalizing acc with
  | nil =>
      obtain rfl := Outcome.pure_eq_ok.mp h
      exact ⟨rfl, fun _ => rfl, Iff.rfl, hknown⟩
  | cons other order ih =>
      rw [planNodes, List.foldlM_cons] at h
      obtain ⟨acc₁, hnode, h⟩ := Outcome.bind_eq_ok.mp h
      have hmem := horder other List.mem_cons_self
      have hne := hnot other List.mem_cons_self
      have hframed := planNode_framed hknown hnode
      obtain ⟨hstates, hroutes, henqueue, hknown'⟩ :=
        ih (fun n hn => horder n (List.mem_cons_of_mem _ hn))
          (planNode_routesKnown hmem hknown hnode) h
          (fun n hn => hnot n (List.mem_cons_of_mem _ hn))
      exact ⟨hstates.trans (hframed.states _ hne),
        fun trigger => (hroutes trigger).trans (hframed.routes _ trigger hne),
        henqueue.trans (hframed.enqueue _ hne), hknown'⟩

/-- The pass comes to a node: what it has found so far, with nothing about the node, what it has
found when it leaves the node, and that it changes nothing of either later. -/
structure Visit (spec : WorkflowSpec rt) (vars : Variables) (defaultMaxRetries : ℕ)
    (children : Dict Text WorkflowChildJob) (now : ℤ) (before : List WorkflowNode)
    (node : WorkflowNode) (reached left acc : PlanAcc) : Prop where
  comes : planNodes rt vars spec.nodes spec.edges defaultMaxRetries children now before {}
    = .ok reached
  leaves : planNode rt vars spec.nodes spec.edges defaultMaxRetries children now reached node
    = .ok left
  known : RoutesKnown spec.edges reached
  fresh : node.id ∉ reached.enqueue ∧ ∀ trigger, reached.routes.get? (node.id, trigger) = none
  keepsNode : acc.states.get? node.id = left.states.get? node.id ∧
    (node.id ∈ acc.enqueue ↔ node.id ∈ left.enqueue)
  keeps : ∀ other ∈ before, acc.states.get? other.id = reached.states.get? other.id ∧
    ∀ trigger, acc.routes.get? (other.id, trigger) = reached.routes.get? (other.id, trigger)

theorem exists_visit (horder : topologicalNodes spec.nodes spec.edges = .ok order)
    (hsplit : order = before ++ node :: rest)
    (hacc : planNodes rt vars spec.nodes spec.edges defaultMaxRetries children now order {}
      = .ok acc) :
  ∃ reached left, Visit spec vars defaultMaxRetries children now before node reached left acc
  := by
  obtain ⟨hnodup, hnodes⟩ := topologicalNodes_nodup spec horder
  have hperm : (order.map WorkflowNode.id).Perm
      (node.id :: (before ++ rest).map WorkflowNode.id) := by
    rw [hsplit]
    exact List.perm_middle.map WorkflowNode.id
  obtain ⟨hunique, hothers⟩ := List.nodup_cons.mp (hperm.nodup_iff.mp hnodup)
  have hdistinct : ∀ other ∈ before ++ rest, other.id ≠ node.id := by
    intro other hother hid
    exact hunique (List.mem_map.mpr ⟨other, hother, hid⟩)
  have hlater : ∀ other ∈ before, ∀ later ∈ rest, later.id ≠ other.id := by
    intro other hother later hlater hid
    rw [List.map_append] at hothers
    exact (List.nodup_append.mp hothers).2.2 other.id (List.mem_map_of_mem hother) later.id
      (List.mem_map_of_mem hlater) hid.symm
  have hmem : ∀ other ∈ before ++ node :: rest, other ∈ spec.nodes := by
    rw [← hsplit]
    exact hnodes
  have hrestNodes : ∀ other ∈ rest, other ∈ spec.nodes := fun other hother =>
    hmem other (List.mem_append_right _ (List.mem_cons_of_mem _ hother))
  rw [hsplit, planNodes, List.foldlM_append] at hacc
  obtain ⟨reached, hreached, hacc⟩ := Outcome.bind_eq_ok.mp hacc
  rw [List.foldlM_cons] at hacc
  obtain ⟨left, hleft, hrest⟩ := Outcome.bind_eq_ok.mp hacc
  obtain ⟨-, hroutes, henqueue, hknown⟩ := planNodes_kept
    (fun other hother => hmem other (List.mem_append_left _ hother)) routesKnown_empty hreached
    (fun other hother => hdistinct other (List.mem_append_left _ hother))
  have hknown' := planNode_routesKnown
    (hmem node (List.mem_append_right _ List.mem_cons_self)) hknown hleft
  obtain ⟨hstate, -, hleftEnqueue, -⟩ := planNodes_kept hrestNodes hknown' hrest
    (fun other hother => hdistinct other (List.mem_append_right _ hother))
  refine ⟨reached, left, hreached, hleft, hknown, ⟨?_, hroutes⟩, ⟨hstate, hleftEnqueue⟩, ?_⟩
  · intro hin
    exact absurd (henqueue.mp hin) List.not_mem_nil
  · intro other hother
    have hne := hdistinct other (List.mem_append_left _ hother)
    have hframed := planNode_framed hknown hleft
    obtain ⟨hkept, hkeptRoutes, -⟩ :=
      planNodes_kept hrestNodes hknown' hrest (hlater other hother)
    exact ⟨hkept.trans (hframed.states _ hne.symm),
      fun trigger => (hkeptRoutes trigger).trans (hframed.routes _ trigger hne.symm)⟩

/-! ### What the pass has checked of an enqueued node -/

/-- The payload that the pass has rendered for a node, and the target it has selected if the node
is a branch, with the states it has found so far. -/
structure CheckedAt (vars : Variables) (spec : WorkflowSpec rt) (acc : PlanAcc)
    (node : WorkflowNode) (rendered : Dict Text PyObject) (target : Option Text) : Prop where
  payload : interpolatePayload node.payload vars (outputContext acc.states) = .ok rendered
  branch : node.jobKind = .branch → ∃ selected routes, target = some selected ∧
    selectedRoute rt vars node.id .success (outgoingEdges spec.edges node.id) acc.states acc.routes
      = .ok (.ok selected, routes)
  other : node.jobKind ≠ .branch → target = none

/-- The outputs of a node that is ready. -/
def targetOutputs : Option Text → NodeOutputs
  | some target => Dict.empty.set "selected_target".toList (.str target)
  | none => Dict.empty

/-- A node that is settled is not enqueued. -/
theorem settle_enqueue {state : WorkflowNodeState}
    (h : settle rt vars spec.edges acc node state = .ok acc') :
  acc'.enqueue = acc.enqueue
  := by
  obtain ⟨⟨settled, routes⟩, -, h⟩ := Outcome.bind_eq_ok.mp h
  obtain rfl := Outcome.pure_eq_ok.mp h
  rfl

/-- A node that becomes ready has been checked. -/
def Enqueues (vars : Variables) (spec : WorkflowSpec rt) (acc : PlanAcc) (node : WorkflowNode)
    (acc' : PlanAcc) : Prop :=
  ∃ rendered target, CheckedAt vars spec acc node rendered target ∧
    acc'.states.get? node.id
      = some { nodeId := node.id, status := .waiting, outputs := targetOutputs target }

theorem planReady_enqueues (h : planReady rt vars spec.edges acc node = .ok acc')
    (hnew : node.id ∉ acc.enqueue) (hmem : node.id ∈ acc'.enqueue) :
  Enqueues vars spec acc node acc'
  := by
  rw [planReady] at h
  split at h
  case h_1 =>
      rw [settle_enqueue h] at hmem
      exact absurd hmem hnew
  case h_2 =>
      obtain rfl := Except.ok.inj h
      exact absurd hmem hnew
  case h_3 =>
      split at h
      case h_1 =>
          rw [settle_enqueue h] at hmem
          exact absurd hmem hnew
      case h_2 rendered hrendered =>
          split at h
          case isFalse hkind =>
              obtain rfl := Except.ok.inj h
              refine ⟨rendered, none, ⟨hrendered, fun hbranch => absurd hbranch hkind,
                fun _ => rfl⟩, ?_⟩
              exact Dict.get?_set_self _ _ _
          case isTrue hkind =>
              obtain ⟨⟨route, routes⟩, hselect, h⟩ := Outcome.bind_eq_ok.mp h
              obtain message | target := route
              · rw [settle_enqueue h] at hmem
                exact absurd hmem hnew
              · obtain rfl := Outcome.pure_eq_ok.mp h
                refine ⟨rendered, some target, ⟨hrendered, fun _ => ⟨target, routes, rfl, hselect⟩,
                  fun hne => absurd hkind hne⟩, ?_⟩
                exact Dict.get?_set_self _ _ _

theorem planNode_enqueues (hknown : RoutesKnown spec.edges acc)
    (h : planNode rt vars spec.nodes spec.edges defaultMaxRetries children now acc node = .ok acc')
    (hnew : node.id ∉ acc.enqueue) (hmem : node.id ∈ acc'.enqueue) :
  Enqueues vars spec acc node acc'
  := by
  rw [planNode] at h
  split at h
  case h_1 =>
      rw [settle_enqueue h] at hmem
      exact absurd hmem hnew
  case h_2 =>
      rw [planChildless] at h
      split at h
      case isTrue => exact planReady_enqueues h hnew hmem
      case isFalse =>
          obtain ⟨⟨decisions, decided⟩, hdecisions, h⟩ := Outcome.bind_eq_ok.mp h
          have hdecided := edgeDecisions_acc hknown
            (fun edge hedge => (List.mem_filter.mp hedge).1) hdecisions
          simp only [planDecided, hdecided] at h
          split at h
          case isTrue =>
              obtain rfl := Except.ok.inj h
              exact absurd hmem hnew
          case isFalse =>
              split at h
              case isTrue =>
                  obtain rfl := Except.ok.inj h
                  exact absurd hmem hnew
              case isFalse =>
                  split at h
                  case isTrue =>
                      obtain rfl := Except.ok.inj h
                      exact absurd hmem hnew
                  case isFalse => exact planReady_enqueues h hnew hmem

/-! ### The target of a branch -/

/-- A route that is found leads to the target of an edge. -/
theorem firstMatch_target {outputs : NodeOutputMap} {default target : Text}
    {route : List WorkflowEdge} (h : firstMatch rt vars outputs default route = .ok target) :
  target = default ∨ ∃ edge ∈ route, edge.target = target
  := by
  induction route with
  | nil => exact .inl (Except.ok.inj h).symm
  | cons edge route ih =>
      have hrest : firstMatch rt vars outputs default route = .ok target →
          target = default ∨ ∃ other ∈ edge :: route, other.target = target := by
        intro h
        obtain hdefault | ⟨other, hother, htarget⟩ := ih h
        · exact .inl hdefault
        · exact .inr ⟨other, List.mem_cons_of_mem _ hother, htarget⟩
      rw [firstMatch] at h
      split at h
      · exact hrest h
      · split at h
        · cases h
        · exact .inr ⟨edge, List.mem_cons_self, Except.ok.inj h⟩
        · exact hrest h

/-- The target of a route that is found anew is a node, and so not empty. -/
theorem selectedRoute_target {nodeId target : Text} {trigger : Trigger}
    {states : Dict Text WorkflowNodeState} {cache cache' : RouteCache}
    (hnone : cache.get? (nodeId, trigger) = none)
    (h : selectedRoute rt vars nodeId trigger (outgoingEdges spec.edges nodeId) states cache
      = .ok (.ok target, cache')) :
  ∃ edge ∈ spec.edges, edge.target = target
  := by
  rw [selectedRoute, hnone] at h
  obtain ⟨route, hroute, h⟩ := Outcome.bind_eq_ok.mp h
  obtain ⟨rfl, -⟩ := Prod.mk.inj (Outcome.pure_eq_ok.mp h)
  have hedges : ∀ edge ∈ (outgoingEdges spec.edges nodeId).filter
      (fun edge => edge.trigger = trigger), edge ∈ spec.edges := by
    intro edge hedge
    exact (List.mem_filter.mp (List.mem_filter.mp hedge).1).1
  rw [findRoute] at hroute
  split at hroute
  case h_1 => cases hroute
  case h_2 default hdefault =>
      obtain htarget | ⟨edge, hedge, htarget⟩ := firstMatch_target (Except.ok.inj hroute)
      · exact ⟨default, hedges default (List.mem_of_find?_eq_some hdefault), htarget.symm⟩
      · exact ⟨edge, hedges edge hedge, htarget⟩

theorem target_ne_nil {edge : WorkflowEdge} (h : edge ∈ spec.edges) :
  edge.target ≠ []
  := by
  obtain ⟨node, hnode, hid⟩ := List.mem_map.mp (spec.target_mem h)
  rw [← hid]
  exact spec.id_ne_nil hnode

/-- What is enqueued is in the order, since nothing is enqueued before the pass. -/
theorem mem_order_of_enqueue (horder : ∀ other ∈ order, other ∈ spec.nodes)
    (h : planNodes rt vars spec.nodes spec.edges defaultMaxRetries children now order {}
      = .ok acc) {nodeId : Text} (hmem : nodeId ∈ acc.enqueue) :
  ∃ node ∈ order, node.id = nodeId
  := by
  by_contra hnone
  have hkept := planNodes_kept horder routesKnown_empty h
    (fun other hother hid => hnone ⟨other, hother, hid⟩)
  exact absurd (hkept.2.2.1.mp hmem) List.not_mem_nil

/-! ### The executor -/

/-- The payload of the job of a node, from what the pass has checked. -/
def checkedPayload (node : WorkflowNode) (rendered : Dict Text PyObject) (target : Option Text) :
    Dict Text PyObject :=
  let named := rendered.set "workflow_node_id".toList (.str node.id)
  match target with
  | some target => named.set "selected_target".toList (.str target)
  | none => named

/-- A plan that enqueues a node has the states of the pass. -/
theorem nodeStates_of_mem_enqueue {nodeId : Text}
    (h : nodeId ∈ (finishPlan spec.nodes children acc).enqueueNodeIds) :
  (finishPlan spec.nodes children acc).nodeStates = acc.states
  := by
  rw [finishPlan] at h ⊢
  split at h
  case h_1 => cases h
  case h_2 =>
      split
      · split
        · rfl
        · rfl
      · rfl

/-- A job is built from the outputs of a node that was checked and those of its ancestors. -/
theorem buildWorkflowChildJob_of_checkedAt {outputs : NodeOutputMap}
    {rendered : Dict Text PyObject} {target : Option Text} (hnode : node ∈ spec.nodes)
    (h : CheckedAt vars spec acc node rendered target)
    (hfresh : ∀ trigger, acc.routes.get? (node.id, trigger) = none)
    (hancestors : ∀ other, IsAncestor spec.edges other node.id →
      outputs.get? other = (outputContext acc.states).get? other)
    (hself : outputs.get? node.id = some (targetOutputs target)) (jobId : Text) :
  buildWorkflowChildJob vars outputs node jobId = .ok
    { nodeId := node.id
      jobId := jobId
      kind := node.jobKind
      payload := withResultSetId node jobId (checkedPayload node rendered target) }
  := by
  have hpayload : interpolatePayload node.payload vars outputs = .ok rendered := by
    rw [← h.payload]
    apply interpolatePayload_congr
    intro read hread
    exact hancestors read (spec.payload_reads_ancestors hnode hread)
  have htarget : withSelectedTarget node outputs
      (rendered.set "workflow_node_id".toList (.str node.id))
        = .ok (checkedPayload node rendered target) := by
    by_cases hbranch : node.jobKind = .branch
    · obtain ⟨selected, routes, rfl, hselect⟩ := h.branch hbranch
      obtain ⟨edge, hedge, rfl⟩ := selectedRoute_target (hfresh .success) hselect
      obtain ⟨c, rest, hcons⟩ := List.exists_cons_of_ne_nil (target_ne_nil hedge)
      rw [withSelectedTarget, if_pos hbranch, hself, hcons]
      rfl
    · rw [h.other hbranch, withSelectedTarget, if_neg hbranch]
      rfl
  rw [buildWorkflowChildJob, hpayload]
  change (withSelectedTarget node outputs _ >>= _) = _
  rw [htarget]
  rfl

/-- What is enqueued was checked by the pass when it came to the node, and can be built: the job has
the payload that was rendered then, with the target that was selected then. -/
theorem enqueued_job_built {plan : WorkflowStepPlan}
    (hplan : planWorkflowStep spec children now defaultMaxRetries vars = .ok plan) {nodeId : Text}
    (hmem : nodeId ∈ plan.enqueueNodeIds) :
  ∃ order before node rest acc rendered target,
    topologicalNodes spec.nodes spec.edges = .ok order ∧ order = before ++ node :: rest ∧
    planNodes rt vars spec.nodes spec.edges defaultMaxRetries children now before {} = .ok acc ∧
    CheckedAt vars spec acc node rendered target ∧ node ∈ spec.nodes ∧ node.id = nodeId ∧
    ∀ jobId, buildWorkflowChildJob vars (outputContext plan.nodeStates) node jobId = .ok
      { nodeId := nodeId
        jobId := jobId
        kind := node.jobKind
        payload := withResultSetId node jobId (checkedPayload node rendered target) }
  := by
  obtain ⟨acc, ⟨order, horder, hacc⟩, rfl⟩ := planWorkflowStep_eq_ok hplan
  obtain ⟨-, hnodes⟩ := topologicalNodes_nodup spec horder
  rw [nodeStates_of_mem_enqueue hmem]
  replace hmem := (finishPlan_lists spec.nodes children acc).1.subset hmem
  obtain ⟨node, hnode, rfl⟩ := mem_order_of_enqueue hnodes hacc hmem
  obtain ⟨before, rest, hsplit⟩ := List.append_of_mem hnode
  obtain ⟨reached, left, hvisit⟩ := exists_visit horder hsplit hacc
  obtain ⟨rendered, target, hchecked, hready⟩ :=
    planNode_enqueues hvisit.known hvisit.leaves hvisit.fresh.1 (hvisit.keepsNode.2.mp hmem)
  refine ⟨order, before, node, rest, reached, rendered, target, horder, hsplit, hvisit.comes,
    hchecked, hnodes node hnode, rfl, ?_⟩
  apply buildWorkflowChildJob_of_checkedAt (hnodes node hnode) hchecked hvisit.fresh.2
  · intro other hancestor
    obtain ⟨ancestor, hin, rfl⟩ :=
      ancestor_mem_before (topologicalNodes_parentsFirst spec horder) hsplit hancestor
    exact get?_outputContext (hvisit.keeps ancestor hin).1
  · rw [outputContext, Dict.get?_mapValues, hvisit.keepsNode.1, hready]
    rfl

end Rendering

/-- A query with a branch after it, which leads to one of two exports. -/
def branchSpec : WorkflowSpec bareRuntime where
  nodes :=
    [{ id := "query".toList, jobKind := .sqlQuery }, { id := "choose".toList, jobKind := .branch },
      { id := "left".toList, jobKind := .exportExcel },
      { id := "right".toList, jobKind := .exportExcel }]
  edges :=
    [{ source := "query".toList, target := "choose".toList },
      { source := "choose".toList, target := "left".toList, when := some "true".toList },
      { source := "choose".toList, target := "right".toList, isDefault := true }]
  accepted := by rfl

/-- The query is done. -/
def doneQuery : Dict Text WorkflowChildJob :=
  Dict.ofList [("query".toList,
    { nodeId := "query".toList, jobId := "job".toList, status := .success, finishedAt := some 0 })]

theorem enqueued_job_built_branchSpec :
  ∃ plan node row, planWorkflowStep branchSpec doneQuery 0 0 Dict.empty = .ok plan ∧
    "choose".toList ∈ plan.enqueueNodeIds ∧ node.id = "choose".toList ∧
    buildWorkflowChildJob Dict.empty (outputContext plan.nodeStates) node "child".toList = .ok row
  := by
  obtain ⟨plan, hplan, henqueue⟩ := Outcome.exists_of_map_toOption
    (by rfl : (planWorkflowStep branchSpec doneQuery 0 (0 : ℕ) Dict.empty).toOption.map
      (·.enqueueNodeIds) = some ["choose".toList])
  have hmem : "choose".toList ∈ plan.enqueueNodeIds := by
    rw [henqueue]
    exact List.mem_cons_self
  obtain ⟨_, _, node, _, _, _, _, -, -, -, -, -, hid, hbuilt⟩ := enqueued_job_built hplan hmem
  exact ⟨plan, node, _, hplan, hmem, hid, hbuilt "child".toList⟩

end Workflow

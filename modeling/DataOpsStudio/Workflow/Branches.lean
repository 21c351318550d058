import DataOpsStudio.Workflow.Rendering

/-!
# Branches

The edges that leave a branch on success, and the edges that leave a node that branches on failure,
are alternatives.  The target of a branch is chosen once and then read from the result of its job;
the route of a failure is found anew in every plan.  Along a run of a workflow whose conditions read
upstream, all plans follow the same one of these edges, and nodes behind different ones do not both
get a job.
-/

namespace Workflow

open Text

section Branches

variable {rt : WhenRuntime} {spec : WorkflowSpec rt} {vars : Variables} {defaultMaxRetries : ℕ}
  {children : Dict Text WorkflowChildJob} {now : ℤ} {acc acc' : PlanAcc} {edge edge' : WorkflowEdge}

/-! ### Satisfied edges -/

/-- The node of an identifier is a branch. -/
def WorkflowSpec.IsBranch (spec : WorkflowSpec rt) (nodeId : Text) : Prop :=
  ∃ node ∈ spec.nodes, node.id = nodeId ∧ node.jobKind = .branch

/-- The edge leaves a branch on success, or a node that branches on failure on failure. -/
def WorkflowSpec.IsBranchEdge (spec : WorkflowSpec rt) (edge : WorkflowEdge) : Prop :=
  edge ∈ spec.edges ∧ (edge.trigger = .success → spec.IsBranch edge.source)

/-- A pass has found what satisfies an edge: its source has the outcome of the edge, and where the
edge is one of several alternatives, the one that was chosen. -/
def Followed (spec : WorkflowSpec rt) (acc : PlanAcc) (edge : WorkflowEdge) : Prop :=
  ∃ source, acc.states.get? edge.source = some source ∧
    match edge.trigger with
    | .success => source.status = .success ∧ (spec.IsBranch edge.source →
        source.outputs.get? "selected_target".toList = some (.str edge.target))
    | .failure => source.status = .failed ∧
        acc.routes.get? (edge.source, .failure) = some (.ok edge.target)

theorem eq_str_of_str? {value : Option PyObject} {s : Text}
    (h : value.bind PyObject.str? = some s) :
  value = some (.str s)
  := by
  obtain ⟨object, rfl, hobject⟩ := Option.bind_eq_some_iff.mp h
  cases object with
  | str t => rw [Option.some.inj hobject]
  | _ => cases hobject

theorem edgeDecision_satisfied (hknown : RoutesKnown spec.edges acc) (hedge : edge ∈ spec.edges)
    {routes : RouteCache}
    (h : edgeDecision rt vars spec.nodes spec.edges acc edge = .ok (.satisfied, routes)) :
  Followed spec acc edge
  := by
  rw [edgeDecision] at h
  split at h
  case h_1 => cases h
  case h_2 source hsource =>
      refine ⟨source, hsource, ?_⟩
      split at h
      case isTrue => cases h
      case isFalse =>
          split at h
          case isTrue => cases h
          case isFalse =>
              obtain ⟨sourceNode, hlookup, h⟩ := Outcome.bind_eq_ok.mp h
              obtain ⟨hid, hmem⟩ := lookupNode_eq_ok hlookup
              cases htrigger : edge.trigger with
              | success =>
                  rw [htrigger] at h
                  dsimp only at h ⊢
                  split at h
                  case isTrue hkind =>
                      split at h
                      case isTrue => cases h
                      case isFalse hstatus =>
                          refine ⟨not_not.mp hstatus, fun _ => ?_⟩
                          split at h
                          case h_2 => cases h
                          case h_1 target htarget =>
                              have hdecision := (Prod.mk.inj (Outcome.pure_eq_ok.mp h)).1
                              split at hdecision
                              case isFalse => cases hdecision
                              case isTrue heq =>
                                  rw [← heq]
                                  exact eq_str_of_str? htarget
                  case isFalse hkind =>
                      split at h
                      case isFalse => split at h <;> cases h
                      case isTrue hstatus =>
                          refine ⟨hstatus, ?_⟩
                          rintro ⟨node, hnode, hnodeId, hbranch⟩
                          obtain rfl := List.inj_on_of_nodup_map spec.nodup_ids hnode hmem
                            (hnodeId.trans hid.symm)
                          exact absurd hbranch hkind
              | failure =>
                  rw [htrigger] at h
                  dsimp only at h ⊢
                  split at h
                  case isTrue => cases h
                  case isFalse hstatus =>
                      have hfailed := not_not.mp hstatus
                      obtain ⟨route, hroute⟩ := hknown edge hedge htrigger source hsource hfailed
                      obtain ⟨⟨found, cache⟩, hselect, h⟩ := Outcome.bind_eq_ok.mp h
                      rw [selectedRoute, hroute] at hselect
                      obtain ⟨rfl, rfl⟩ := Prod.mk.inj (Except.ok.inj hselect)
                      refine ⟨hfailed, ?_⟩
                      obtain message | target := route
                      · cases h
                      · have hdecision := (Prod.mk.inj (Outcome.pure_eq_ok.mp h)).1
                        split at hdecision
                        case isFalse => cases hdecision
                        case isTrue heq =>
                            rw [← heq]
                            exact hroute

/-- Every decision of a list is that of its edge. -/
theorem edgeDecision_of_mem_zip (hknown : RoutesKnown spec.edges acc)
    {incoming : List WorkflowEdge} (hincoming : ∀ edge ∈ incoming, edge ∈ spec.edges)
    {decisions : List EdgeDecision}
    (h : edgeDecisions rt vars spec.nodes spec.edges acc incoming = .ok (decisions, acc'))
    {decision : EdgeDecision} (hmem : (edge, decision) ∈ incoming.zip decisions) :
  ∃ routes, edgeDecision rt vars spec.nodes spec.edges acc edge = .ok (decision, routes)
  := by
  induction incoming generalizing decisions with
  | nil => cases hmem
  | cons first incoming ih =>
      obtain ⟨⟨head, routes⟩, hfirst, h⟩ := Outcome.bind_eq_ok.mp h
      obtain ⟨⟨tail, acc₁⟩, hrest, h⟩ := Outcome.bind_eq_ok.mp h
      obtain ⟨rfl, rfl⟩ := Prod.mk.inj (Outcome.pure_eq_ok.mp h)
      obtain heq | hmem := List.mem_cons.mp hmem
      · obtain ⟨rfl, rfl⟩ := Prod.mk.inj heq
        exact ⟨routes, hfirst⟩
      · obtain rfl := edgeDecision_routes hknown (hincoming first List.mem_cons_self) hfirst
        exact ih (fun e he => hincoming e (List.mem_cons_of_mem _ he)) hrest hmem

/-- The plan for some children decides that an edge is satisfied, when it comes to the target of the
edge. -/
def DecidedSatisfied (spec : WorkflowSpec rt) (vars : Variables) (defaultMaxRetries : ℕ)
    (children : Dict Text WorkflowChildJob) (now : ℤ) (edge : WorkflowEdge) : Prop :=
  ∃ before node rest reached decisions decided,
    topologicalNodes spec.nodes spec.edges = .ok (before ++ node :: rest) ∧
    planNodes rt vars spec.nodes spec.edges defaultMaxRetries children now before {}
      = .ok reached ∧
    children.get? node.id = none ∧
    edgeDecisions rt vars spec.nodes spec.edges reached (incomingEdges spec.edges node.id)
      = .ok (decisions, decided) ∧
    (edge, .satisfied) ∈ (incomingEdges spec.edges node.id).zip decisions

theorem mem_of_mem_incomingEdges {nodeId : Text} (h : edge ∈ incomingEdges spec.edges nodeId) :
  edge ∈ spec.edges ∧ edge.target = nodeId
  := by
  obtain ⟨hmem, htarget⟩ := List.mem_filter.mp h
  exact ⟨hmem, eq_of_beq htarget⟩

/-- What was found about the source of an edge when the pass came to its target is found in the
end. -/
theorem Followed.of_visit {order before rest : List WorkflowNode} {node : WorkflowNode}
    {reached left : PlanAcc} (horder : topologicalNodes spec.nodes spec.edges = .ok order)
    (hsplit : order = before ++ node :: rest)
    (hvisit : Visit spec vars defaultMaxRetries children now before node reached left acc)
    (hedge : edge ∈ incomingEdges spec.edges node.id) (h : Followed spec reached edge) :
  Followed spec acc edge
  := by
  obtain ⟨hmem, htarget⟩ := mem_of_mem_incomingEdges hedge
  obtain ⟨other, hother, hid⟩ := ancestor_mem_before (topologicalNodes_parentsFirst spec horder)
    hsplit (.single ⟨edge, hmem, rfl, htarget⟩)
  obtain ⟨hstate, hroutes⟩ := hvisit.keeps other hother
  rw [hid] at hstate hroutes
  rw [Followed, hstate, hroutes]
  exact h

/-- An edge that a plan decides to be satisfied is followed. -/
theorem DecidedSatisfied.followed
    (h : DecidedSatisfied spec vars defaultMaxRetries children now edge)
    (hpassed : Passed spec vars defaultMaxRetries children now acc) :
  Followed spec acc edge
  := by
  obtain ⟨before, node, rest, reached, decisions, decided, horder, hreached, -, hdecisions, hmem⟩ := h
  obtain ⟨order, horder', hacc⟩ := hpassed
  obtain rfl := Except.ok.inj (horder.symm.trans horder')
  obtain ⟨reached', left, hvisit⟩ := exists_visit horder rfl hacc
  obtain rfl := Except.ok.inj (hreached.symm.trans hvisit.comes)
  have hincoming := (List.of_mem_zip hmem).1
  obtain ⟨routes, hdecision⟩ := edgeDecision_of_mem_zip hvisit.known
    (fun e he => (mem_of_mem_incomingEdges he).1) hdecisions hmem
  refine Followed.of_visit horder rfl hvisit hincoming ?_
  exact edgeDecision_satisfied hvisit.known (mem_of_mem_incomingEdges hincoming).1 hdecision

/-! ### One of the alternatives -/

/-- The source of an edge that is followed is done. -/
theorem Followed.done (h : Followed spec acc edge) :
  acc.Done edge.source
  := by
  obtain ⟨source, hsource, h⟩ := h
  refine ⟨source, hsource, ?_⟩
  cases htrigger : edge.trigger with
  | success =>
      rw [htrigger] at h
      rw [h.1]
      rfl
  | failure =>
      rw [htrigger] at h
      rw [h.1]
      rfl

/-- No two edges have the same key. -/
theorem nodup_keys_of_validateEdgeKeys {nodeIds : List Text} {seen : List (Text × Text × Trigger)}
    {edges : List WorkflowEdge} (h : validateEdgeKeys rt nodeIds seen edges = .ok ()) :
  (edges.map WorkflowEdge.key).Nodup ∧ ∀ edge ∈ edges, edge.key ∉ seen
  := by
  induction edges generalizing seen with
  | nil => simp
  | cons edge rest ih =>
      obtain ⟨_, -, h⟩ := Outcome.bind_eq_ok.mp h
      obtain ⟨_, -, h⟩ := Outcome.bind_eq_ok.mp h
      obtain ⟨_, -, h⟩ := Outcome.bind_eq_ok.mp h
      obtain ⟨_, hseen, hrest⟩ := Outcome.bind_eq_ok.mp h
      obtain ⟨hnodup, hnew⟩ := ih hrest
      have hkey : edge.key ∉ seen := by simpa using require_eq_ok.mp hseen
      constructor
      · apply List.nodup_cons.mpr
        refine ⟨?_, hnodup⟩
        intro hmem
        obtain ⟨other, hother, heq⟩ := List.mem_map.mp hmem
        apply hnew other hother
        rw [heq]
        exact List.mem_cons_self
      · intro other hother
        obtain rfl | hother := List.mem_cons.mp hother
        · exact hkey
        · exact fun hmem => hnew other hother (List.mem_cons_of_mem _ hmem)

/-- Two alternatives that are followed are the same. -/
theorem Followed.unique (hedge : spec.IsBranchEdge edge) (hedge' : spec.IsBranchEdge edge')
    (hsource : edge.source = edge'.source) (h : Followed spec acc edge)
    (h' : Followed spec acc edge') :
  edge = edge'
  := by
  have hkeys := (nodup_keys_of_validateEdgeKeys spec.validateDag_parts.2.1).1
  apply List.inj_on_of_nodup_map hkeys hedge.1 hedge'.1
  obtain ⟨source, hget, h⟩ := h
  obtain ⟨source', hget', h'⟩ := h'
  rw [← hsource] at hget' h'
  obtain rfl := Option.some.inj (hget.symm.trans hget')
  have hboth : edge.trigger = edge'.trigger ∧ edge.target = edge'.target := by
    cases htrigger : edge.trigger with
    | success =>
        rw [htrigger] at h
        have hbranch := hedge.2 htrigger
        cases htrigger' : edge'.trigger with
        | success =>
            rw [htrigger'] at h'
            have htarget := (h.2 hbranch).symm.trans (h'.2 hbranch)
            exact ⟨rfl, PyObject.str.inj (Option.some.inj htarget)⟩
        | failure =>
            rw [htrigger'] at h'
            cases h.1.symm.trans h'.1
    | failure =>
        rw [htrigger] at h
        cases htrigger' : edge'.trigger with
        | success =>
            rw [htrigger'] at h'
            cases h.1.symm.trans h'.1
        | failure =>
            rw [htrigger'] at h'
            have htarget := h.2.symm.trans h'.2
            exact ⟨rfl, Except.ok.inj (Option.some.inj htarget)⟩
  rw [WorkflowEdge.key, WorkflowEdge.key, hsource, hboth.1, hboth.2]

/-- What is followed is followed in every pass that agrees on the source. -/
theorem Followed.of_agree {D : Text → Prop} (hagree : Agree D acc acc') (hsource : D edge.source)
    (h : Followed spec acc edge) :
  Followed spec acc' edge
  := by
  rw [Followed, ← hagree.states _ hsource, ← hagree.routes _ _ hsource]
  exact h

/-! ### Runs -/

variable {s t : RunState}

/-- All plans of a run that decide that an alternative is satisfied decide so for the same one. -/
theorem decidedSatisfied_once (hreads : ReadsUpstream rt spec.nodes spec.edges)
    (hs : (runSystem spec vars defaultMaxRetries).Reachable s)
    (hlater : (runSystem spec vars defaultMaxRetries).Later s t) {now now' : ℤ}
    {plan plan' : WorkflowStepPlan} (hplan : s.plan spec vars defaultMaxRetries now = .ok plan)
    (hplan' : t.plan spec vars defaultMaxRetries now' = .ok plan')
    (hedge : spec.IsBranchEdge edge) (hedge' : spec.IsBranchEdge edge')
    (hsource : edge.source = edge'.source)
    (h : DecidedSatisfied spec vars defaultMaxRetries (workflowChildrenSnapshots s.rows) now edge)
    (h' : DecidedSatisfied spec vars defaultMaxRetries (workflowChildrenSnapshots t.rows) now'
      edge') :
  edge = edge'
  := by
  obtain ⟨acc, hpassed, -⟩ := planWorkflowStep_eq_ok hplan
  obtain ⟨acc', hpassed', -⟩ := planWorkflowStep_eq_ok hplan'
  have hinv := runInvariant_of_reachable hreads hs
  obtain ⟨-, hclosed⟩ := hinv.closed hreads hpassed
  have hsettled : Settled (workflowChildrenSnapshots s.rows) acc s := fun _ _ => rfl
  obtain ⟨-, hsettled'⟩ := TransitionSystem.Later.invariant (RunInvariant.step hreads)
    (Settled.step hreads hpassed hclosed) hinv hsettled hlater
  have hagree := Passed.agree hreads hclosed hsettled' hpassed hpassed'
  have hfollowed := h.followed hpassed
  exact (hfollowed.of_agree hagree hfollowed.done).unique hedge hedge' hsource
    (h'.followed hpassed')

/-- Every decision of a list is that of some edge. -/
theorem exists_edgeDecision_of_mem (hknown : RoutesKnown spec.edges acc)
    {incoming : List WorkflowEdge} (hincoming : ∀ edge ∈ incoming, edge ∈ spec.edges)
    {decisions : List EdgeDecision}
    (h : edgeDecisions rt vars spec.nodes spec.edges acc incoming = .ok (decisions, acc'))
    {decision : EdgeDecision} (hmem : decision ∈ decisions) :
  ∃ edge ∈ incoming, ∃ routes,
    edgeDecision rt vars spec.nodes spec.edges acc edge = .ok (decision, routes)
  := by
  induction incoming generalizing decisions with
  | nil =>
      obtain ⟨rfl, -⟩ := Prod.mk.inj (Except.ok.inj h)
      cases hmem
  | cons first incoming ih =>
      obtain ⟨⟨head, routes⟩, hfirst, h⟩ := Outcome.bind_eq_ok.mp h
      obtain ⟨⟨tail, acc₁⟩, hrest, h⟩ := Outcome.bind_eq_ok.mp h
      obtain ⟨rfl, rfl⟩ := Prod.mk.inj (Outcome.pure_eq_ok.mp h)
      obtain rfl | hmem := List.mem_cons.mp hmem
      · exact ⟨first, List.mem_cons_self, routes, hfirst⟩
      · obtain rfl := edgeDecision_routes hknown (hincoming first List.mem_cons_self) hfirst
        obtain ⟨edge, hedge, hdecision⟩ :=
          ih (fun e he => hincoming e (List.mem_cons_of_mem _ he)) hrest hmem
        exact ⟨edge, List.mem_cons_of_mem _ hedge, hdecision⟩

/-- A node with parents is enqueued only when one of the edges that enter it is satisfied. -/
theorem planNode_satisfied {node : WorkflowNode} (hknown : RoutesKnown spec.edges acc)
    (h : planNode rt vars spec.nodes spec.edges defaultMaxRetries children now acc node = .ok acc')
    (hnew : node.id ∉ acc.enqueue) (hmem : node.id ∈ acc'.enqueue)
    (hparents : incomingEdges spec.edges node.id ≠ []) :
  ∃ edge ∈ incomingEdges spec.edges node.id, ∃ routes,
    edgeDecision rt vars spec.nodes spec.edges acc edge = .ok (.satisfied, routes)
  := by
  rw [planNode] at h
  split at h
  case h_1 =>
      rw [settle_enqueue h] at hmem
      exact absurd hmem hnew
  case h_2 =>
      rw [planChildless, if_neg (by simpa using hparents)] at h
      obtain ⟨⟨decisions, decided⟩, hdecisions, h⟩ := Outcome.bind_eq_ok.mp h
      have hincoming : ∀ edge ∈ incomingEdges spec.edges node.id, edge ∈ spec.edges :=
        fun edge hedge => (mem_of_mem_incomingEdges hedge).1
      have hdecided := edgeDecisions_acc hknown hincoming hdecisions
      simp only [planDecided, hdecided] at h
      split at h
      case isTrue =>
          obtain rfl := Except.ok.inj h
          exact absurd hmem hnew
      case isFalse hwaiting =>
          split at h
          case isTrue =>
              obtain rfl := Except.ok.inj h
              exact absurd hmem hnew
          case isFalse hinactive =>
              split at h
              case isTrue =>
                  obtain rfl := Except.ok.inj h
                  exact absurd hmem hnew
              case isFalse hblocked =>
                  push Not at hinactive
                  obtain ⟨decision, hdecision, hactive⟩ := hinactive
                  apply exists_edgeDecision_of_mem hknown hincoming hdecisions
                  cases decision with
                  | waiting => exact absurd hdecision hwaiting
                  | inactive => exact absurd rfl hactive
                  | satisfied => exact hdecision
                  | blocked => exact absurd hdecision hblocked

/-- One of the edges that enter a node with parents is followed when the node is enqueued. -/
theorem Passed.followed_of_enqueue (hpassed : Passed spec vars defaultMaxRetries children now acc)
    {nodeId : Text} (hmem : nodeId ∈ acc.enqueue)
    (hparents : incomingEdges spec.edges nodeId ≠ []) :
  ∃ edge ∈ incomingEdges spec.edges nodeId, Followed spec acc edge
  := by
  obtain ⟨order, horder, hacc⟩ := hpassed
  obtain ⟨node, hnode, rfl⟩ :=
    mem_order_of_enqueue (topologicalNodes_nodup spec horder).2 hacc hmem
  obtain ⟨before, rest, hsplit⟩ := List.append_of_mem hnode
  obtain ⟨reached, left, hvisit⟩ := exists_visit horder hsplit hacc
  obtain ⟨edge, hedge, routes, hdecision⟩ := planNode_satisfied hvisit.known hvisit.leaves
    hvisit.fresh.1 (hvisit.keepsNode.2.mp hmem) hparents
  refine ⟨edge, hedge, Followed.of_visit horder hsplit hvisit hedge ?_⟩
  exact edgeDecision_satisfied hvisit.known (mem_of_mem_incomingEdges hedge).1 hdecision

/-- The jobs of a run belong to nodes that have no parents or one of whose edges was followed in an
earlier plan. -/
def RowsFollowed (spec : WorkflowSpec rt) (vars : Variables) (defaultMaxRetries : ℕ)
    (s : RunState) : Prop :=
  s.rows = [] ∨ ∃ children acc, Anchored spec vars defaultMaxRetries children acc s.rows ∧
    ∀ row ∈ s.rows, incomingEdges spec.edges row.nodeId ≠ [] →
      ∃ edge ∈ incomingEdges spec.edges row.nodeId, Followed spec acc edge

/-- The jobs after a step of the executor are those there were and those of enqueued nodes. -/
theorem mem_executePlan_rows {plan : WorkflowStepPlan} {newJobId : Text → Text} {row : JobRow}
    (h : row ∈ (executePlan spec vars plan newJobId now s).rows) :
  (∃ old ∈ s.rows, old.nodeId = row.nodeId) ∨ row.nodeId ∈ plan.enqueueNodeIds
  := by
  obtain ⟨created, hrows, hids, -⟩ := enqueueChildren_created spec vars
    (outputContext plan.nodeStates) newJobId plan.enqueueNodeIds s.rows
  have hsplit : ∀ old ∈ s.rows ++ created,
      (∃ row ∈ s.rows, row.nodeId = old.nodeId) ∨ old.nodeId ∈ plan.enqueueNodeIds := by
    intro old hold
    obtain hold | hold := List.mem_append.mp hold
    · exact .inl ⟨old, hold, rfl⟩
    · exact .inr (hids.sublist.subset (List.mem_map_of_mem hold))
  rw [executePlan, hrows] at h
  split at h
  case isTrue =>
      rw [foldl_updateJob_settleJob] at h
      obtain ⟨old, hold, rfl⟩ := List.mem_map.mp h
      rw [(keepsIdentity_settleJob plan now).nodeId]
      exact hsplit old hold
  case isFalse => exact hsplit row h

/-- Every step keeps the edges that were followed. -/
theorem RowsFollowed.step (hreads : ReadsUpstream rt spec.nodes spec.edges) (s : RunState)
    (a : RunAction) (t : RunState)
    (h : RunInvariant spec vars defaultMaxRetries s ∧ RowsFollowed spec vars defaultMaxRetries s)
    (hstep : (runSystem spec vars defaultMaxRetries).step s a t) :
  RunInvariant spec vars defaultMaxRetries t ∧ RowsFollowed spec vars defaultMaxRetries t
  := by
  obtain ⟨hinv, hrows⟩ := h
  refine ⟨RunInvariant.step hreads s a t hinv hstep, ?_⟩
  obtain ⟨now, newJobId, plan, -, -, hplan, hinjective, hfresh, rfl⟩ | ⟨jobId, move, -, rfl⟩ :=
    runSystem_step hstep
  · obtain ⟨acc, hpassed, hfinish⟩ := planWorkflowStep_eq_ok hplan
    obtain ⟨-, hanchor⟩ := hinv.execute_anchored hreads hpassed hfinish hinjective hfresh
    refine .inr ⟨_, acc, hanchor, ?_⟩
    intro row hrow hparents
    obtain ⟨old, hold, hid⟩ | hqueued := mem_executePlan_rows hrow
    · obtain hempty | ⟨children₀, acc₀, hanchor₀, hfollowed₀⟩ := hrows
      · rw [hempty] at hold
        cases hold
      · rw [← hid] at hparents ⊢
        obtain ⟨edge, hedge, hfollowed⟩ := hfollowed₀ old hold hparents
        obtain ⟨now₀, hpassed₀⟩ := hanchor₀.passed
        have hagree := Passed.agree hreads hanchor₀.closed hanchor₀.kept hpassed₀ hpassed
        exact ⟨edge, hedge, hfollowed.of_agree hagree hfollowed.done⟩
    · rw [hfinish] at hqueued
      exact hpassed.followed_of_enqueue
        ((finishPlan_lists spec.nodes _ acc).1.subset hqueued) hparents
  · obtain hempty | ⟨children₀, acc₀, hanchor₀, hfollowed₀⟩ := hrows
    · left
      simp [hempty, updateJob]
    · refine .inr ⟨children₀, acc₀, hanchor₀.child hinv.wellKept.nodes_nodup jobId move, ?_⟩
      intro row hrow hparents
      obtain ⟨old, hold, rfl⟩ := List.mem_map.mp hrow
      rw [(keepsIdentity_moveJob jobId move).nodeId] at hparents ⊢
      exact hfollowed₀ old hold hparents

theorem rowsFollowed_of_reachable (hreads : ReadsUpstream rt spec.nodes spec.edges)
    (h : (runSystem spec vars defaultMaxRetries).Reachable s) :
  RowsFollowed spec vars defaultMaxRetries s
  := by
  have hboth := h.invariant
    (I := fun s => RunInvariant spec vars defaultMaxRetries s ∧
      RowsFollowed spec vars defaultMaxRetries s) ?_ (RowsFollowed.step hreads)
  · exact hboth.2
  · rintro s rfl
    exact ⟨runInvariant_initial, .inl rfl⟩

/-- The edges that enter a node, of which there is one at least, are alternatives of one node. -/
def WorkflowSpec.OnlyBehind (spec : WorkflowSpec rt) (source nodeId : Text) : Prop :=
  incomingEdges spec.edges nodeId ≠ [] ∧
    ∀ edge ∈ incomingEdges spec.edges nodeId, edge.source = source ∧ spec.IsBranchEdge edge

variable (spec vars defaultMaxRetries) in
/-- Over a whole run at most one of the alternatives of a node is decided to be satisfied, and of
two nodes that are only behind alternatives of the same node one has no job. -/
def BranchesExclusive : Prop :=
  (∀ s t now now' plan plan' edge edge',
    (runSystem spec vars defaultMaxRetries).Reachable s →
    (runSystem spec vars defaultMaxRetries).Later s t →
    s.plan spec vars defaultMaxRetries now = .ok plan →
    t.plan spec vars defaultMaxRetries now' = .ok plan' →
    spec.IsBranchEdge edge → spec.IsBranchEdge edge' → edge.source = edge'.source →
    DecidedSatisfied spec vars defaultMaxRetries (workflowChildrenSnapshots s.rows) now edge →
    DecidedSatisfied spec vars defaultMaxRetries (workflowChildrenSnapshots t.rows) now' edge' →
    edge = edge') ∧
  ∀ s source nodeId nodeId', (runSystem spec vars defaultMaxRetries).Reachable s →
    spec.OnlyBehind source nodeId → spec.OnlyBehind source nodeId' →
    nodeId ∈ s.rows.map JobRow.nodeId → nodeId' ∈ s.rows.map JobRow.nodeId → nodeId = nodeId'

/-- Branches are exclusive over whole runs when conditions read upstream. -/
theorem branches_exclusive (hreads : spec.ConditionsReadUpstream) :
  BranchesExclusive spec vars defaultMaxRetries
  := by
  constructor
  · intro s t now now' plan plan' edge edge' hs hlater hplan hplan' hedge hedge' hsource h h'
    exact decidedSatisfied_once hreads.readsUpstream hs hlater hplan hplan' hedge hedge' hsource h h'
  · intro s source nodeId nodeId' hs hbehind hbehind' hrow hrow'
    obtain ⟨row, hmem, rfl⟩ := List.mem_map.mp hrow
    obtain ⟨row', hmem', rfl⟩ := List.mem_map.mp hrow'
    obtain hempty | ⟨children, acc, -, hfollowed⟩ :=
      rowsFollowed_of_reachable hreads.readsUpstream hs
    · rw [hempty] at hmem
      cases hmem
    · obtain ⟨edge, hedge, hfollows⟩ := hfollowed row hmem hbehind.1
      obtain ⟨edge', hedge', hfollows'⟩ := hfollowed row' hmem' hbehind'.1
      obtain ⟨hsource, hbranch⟩ := hbehind.2 edge hedge
      obtain ⟨hsource', hbranch'⟩ := hbehind'.2 edge' hedge'
      have heq := hfollows.unique hbranch hbranch' (hsource.trans hsource'.symm) hfollows'
      rw [← (mem_of_mem_incomingEdges hedge).2, ← (mem_of_mem_incomingEdges hedge').2, heq]

end Branches

theorem conditionsReadUpstream_branchSpec :
  branchSpec.ConditionsReadUpstream
  := by
  have hnodes : ∀ node ∈ branchSpec.nodes, whenReferences bareRuntime node.when = [] := by
    decide
  have hedges : ∀ edge ∈ branchSpec.edges, whenReferences bareRuntime edge.when = [] := by
    decide
  constructor
  · intro node hnode read hread
    rw [hnodes node hnode] at hread
    cases hread
  · intro edge hedge read hread
    rw [hedges edge hedge] at hread
    cases hread

theorem branches_exclusive_branchSpec :
  branchSpec.ConditionsReadUpstream ∧ BranchesExclusive branchSpec Dict.empty 0
  := ⟨conditionsReadUpstream_branchSpec, branches_exclusive conditionsReadUpstream_branchSpec⟩

/-! ### A route that changes -/

/-- An interpreter that compares two statuses. -/
def statusRuntime : WhenRuntime where
  Const := Bool ⊕ Text
  ofBool := .inl
  truthy := fun value => match value with
    | .inl b => b
    | .inr s => !s.isEmpty
  signed := fun _ _ => none
  compare := fun op left right => .ok (decide (op = .eq) == decide (left = right))
  parse := fun s =>
    if s = "'running' == 'success'".toList then
      .ok (.compare (.constant (.inr "running".toList))
        [(.eq, .constant (.inr "success".toList))])
    else if s = "'success' == 'success'".toList then
      .ok (.compare (.constant (.inr "success".toList))
        [(.eq, .constant (.inr "success".toList))])
    else .error "invalid syntax".toList
  isWord := bareRuntime.isWord
  isPrintable := bareRuntime.isPrintable

/-- A query that branches on failure follows the first of two queries whose names differ in a
capital letter; its route depends on whether that query was successful. -/
def retreatSpec : WorkflowSpec statusRuntime where
  nodes :=
    [{ id := "true".toList, jobKind := .sqlQuery }, { id := "True".toList, jobKind := .sqlQuery },
      { id := "work".toList, jobKind := .sqlQuery, onFailure := .branch },
      { id := "left".toList, jobKind := .exportExcel },
      { id := "right".toList, jobKind := .exportExcel }]
  edges :=
    [{ source := "true".toList, target := "work".toList },
      { source := "work".toList, target := "left".toList, trigger := .failure
        when := some "${nodes.true.status} == 'success'".toList },
      { source := "work".toList, target := "right".toList, trigger := .failure
        isDefault := true }]
  accepted := by rfl

/-- A step of the executor at some time, where a letter marks the identifiers of new jobs, or a move
of a job. -/
def performMarked (s : RunState) : (ℤ × Char) ⊕ (Text × ChildMove) → Option RunState
  | .inl (now, mark) =>
      if s.rows.all (fun row => row.jobId.head? ≠ some mark) then
        (s.perform retreatSpec Dict.empty 0 (.execute now (fun nodeId => mark :: nodeId))).toOption
      else none
  | .inr (jobId, move) => (s.perform retreatSpec Dict.empty 0 (.child jobId move)).toOption

theorem step_of_performMarked {s t : RunState} {marked : (ℤ × Char) ⊕ (Text × ChildMove)}
    (h : performMarked s marked = some t) :
  ∃ a, (runSystem retreatSpec Dict.empty 0).step s a t
  := by
  have hok : ∀ {x : Except Text RunState}, x.toOption = some t → x = .ok t := by
    intro x hx
    cases x with
    | error message => cases hx
    | ok r => rw [Option.some.inj hx]
  obtain ⟨now, mark⟩ | ⟨jobId, move⟩ := marked
  · rw [performMarked] at h
    split at h
    case isFalse => cases h
    case isTrue hfresh =>
        refine ⟨_, hok h, List.cons_injective, ?_⟩
        intro row hrow nodeId heq
        have hhead := of_decide_eq_true (List.all_eq_true.mp hfresh row hrow)
        rw [← heq] at hhead
        exact hhead rfl
  · exact ⟨.child jobId move, hok h, trivial⟩

/-- The query fails while the second of the others is still running, and this one ends well
afterwards. -/
def retreat : List ((ℤ × Char) ⊕ (Text × ChildMove)) :=
  [.inl (0, 'a'), .inr ("atrue".toList, .start),
    .inr ("atrue".toList, .finish .success none none none 0), .inr ("aTrue".toList, .start),
    .inl (1, 'b'), .inr ("bwork".toList, .start),
    .inr ("bwork".toList, .finish .failed none none none 1), .inl (2, 'c'),
    .inr ("aTrue".toList, .finish .success none none none 3), .inl (4, 'd')]

/-- Both targets of the failed query get a job. -/
theorem not_branches_exclusive_retreatSpec :
  ¬ BranchesExclusive retreatSpec Dict.empty 0
  := by
  rintro ⟨-, hexclusive⟩
  obtain ⟨s, hs⟩ := Option.isSome_iff_exists.mp
    (by rfl : (retreat.foldlM performMarked {}).isSome = true)
  have hseen : (retreat.foldlM performMarked {}).map (fun s => s.rows.map JobRow.nodeId)
      = some ["true".toList, "True".toList, "work".toList, "right".toList, "left".toList] := by
    rfl
  rw [hs] at hseen
  have hrows : s.rows.map JobRow.nodeId
      = ["true".toList, "True".toList, "work".toList, "right".toList, "left".toList] :=
    Option.some.inj hseen
  have hreachable : (runSystem retreatSpec Dict.empty 0).Reachable s :=
    TransitionSystem.Reachable.later (.initial rfl)
      (TransitionSystem.later_of_named (fun _ _ _ h => step_of_performMarked h) hs)
  have hbehind : ∀ nodeId ∈ ["left".toList, "right".toList],
      retreatSpec.OnlyBehind "work".toList nodeId := by
    have hsome : ∀ nodeId ∈ ["left".toList, "right".toList],
        incomingEdges retreatSpec.edges nodeId ≠ [] := by
      decide
    have hfailure : ∀ nodeId ∈ ["left".toList, "right".toList],
        ∀ edge ∈ incomingEdges retreatSpec.edges nodeId,
          edge.source = "work".toList ∧ edge.trigger = .failure := by
      decide
    intro nodeId hnode
    refine ⟨hsome nodeId hnode, fun edge hedge => ?_⟩
    obtain ⟨hsource, htrigger⟩ := hfailure nodeId hnode edge hedge
    refine ⟨hsource, (mem_of_mem_incomingEdges hedge).1, fun hsuccess => ?_⟩
    cases htrigger.symm.trans hsuccess
  have heq := hexclusive s "work".toList "left".toList "right".toList hreachable
    (hbehind _ List.mem_cons_self) (hbehind _ (List.mem_cons_of_mem _ List.mem_cons_self))
    (by rw [hrows]; decide) (by rw [hrows]; decide)
  revert heq
  decide

end Workflow

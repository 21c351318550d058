import DataOpsStudio.Workflow.Pass
import Mathlib.Logic.Relation

/-!
# A node is planned from its ancestors

If conditions and payloads read outputs of ancestors only, then what the pass records about
a set of nodes that holds the ancestors of its members depends only on the children of those
nodes.  Two passes over the same workflow whose children agree on such a set agree on it.
-/

namespace Workflow

open Text

/-- One node is the source of an edge that leads to another. -/
def IsParent (edges : List WorkflowEdge) (parent nodeId : Text) : Prop :=
  ∃ edge ∈ edges, edge.source = parent ∧ edge.target = nodeId

/-- One node comes before another along edges. -/
def IsAncestor (edges : List WorkflowEdge) : Text → Text → Prop :=
  Relation.TransGen (IsParent edges)

/-- Conditions and payloads read outputs of ancestors only; the condition of an edge may also
read the outputs of its source. -/
structure ReadsUpstream (rt : WhenRuntime) (nodes : List WorkflowNode)
    (edges : List WorkflowEdge) : Prop where
  node_when : ∀ node ∈ nodes, ∀ read ∈ whenReferences rt node.when, IsAncestor edges read node.id
  payload : ∀ node ∈ nodes, ∀ read ∈ payloadReferences node.payload,
    IsAncestor edges read node.id
  edge_when : ∀ edge ∈ edges, ∀ read ∈ whenReferences rt edge.when,
    read = edge.source ∨ IsAncestor edges read edge.source

/-- A set of nodes with the parents of its members. -/
def ParentClosed (edges : List WorkflowEdge) (D : Text → Prop) : Prop :=
  ∀ edge ∈ edges, D edge.target → D edge.source

theorem ParentClosed.ancestor {edges : List WorkflowEdge} {D : Text → Prop}
    (h : ParentClosed edges D) {ancestor nodeId : Text} (hancestor : IsAncestor edges ancestor nodeId)
    (hnode : D nodeId) :
  D ancestor
  := by
  induction hancestor using Relation.TransGen.head_induction_on with
  | single hparent =>
      obtain ⟨edge, hedge, rfl, rfl⟩ := hparent
      apply h edge hedge hnode
  | head hparent _ ih =>
      obtain ⟨edge, hedge, rfl, rfl⟩ := hparent
      apply h edge hedge ih

/-- Two passes have found the same about the nodes of a set. -/
structure Agree (D : Text → Prop) (acc acc' : PlanAcc) : Prop where
  states : ∀ nodeId, D nodeId → acc.states.get? nodeId = acc'.states.get? nodeId
  routes : ∀ nodeId trigger, D nodeId →
    acc.routes.get? (nodeId, trigger) = acc'.routes.get? (nodeId, trigger)
  inactive : ∀ nodeId, D nodeId → (nodeId ∈ acc.inactive ↔ nodeId ∈ acc'.inactive)
  enqueue : ∀ nodeId, D nodeId → (nodeId ∈ acc.enqueue ↔ nodeId ∈ acc'.enqueue)

section Reads

variable {rt : WhenRuntime} {vars : Variables} {nodes : List WorkflowNode}
  {edges : List WorkflowEdge} {D : Text → Prop} {acc acc' : PlanAcc}

theorem get?_outputContext {states states' : Dict Text WorkflowNodeState} {nodeId : Text}
    (h : states.get? nodeId = states'.get? nodeId) :
  (outputContext states).get? nodeId = (outputContext states').get? nodeId
  := by
  rw [outputContext, outputContext, Dict.get?_mapValues, Dict.get?_mapValues, h]

theorem firstMatch_congr {outputs outputs' : NodeOutputMap} {default : Text}
    {route : List WorkflowEdge}
    (h : ∀ edge ∈ route, ∀ read ∈ whenReferences rt edge.when,
      outputs.get? read = outputs'.get? read) :
  firstMatch rt vars outputs default route = firstMatch rt vars outputs' default route
  := by
  induction route with
  | nil => rfl
  | cons edge rest ih =>
      rw [firstMatch, firstMatch, ih (fun e he => h e (List.mem_cons_of_mem _ he)),
        evaluateWhen_congr rt (h edge List.mem_cons_self)]

theorem get?_routeContext {states states' : Dict Text WorkflowNodeState} {nodeId read : Text}
    {trigger : Trigger} (hnode : states.get? nodeId = states'.get? nodeId)
    (hread : states.get? read = states'.get? read) :
  (routeContext nodeId trigger states).get? read = (routeContext nodeId trigger states').get? read
  := by
  have hcontains : (outputContext states).contains nodeId
      = (outputContext states').contains nodeId := by
    rw [Dict.contains, Dict.contains, get?_outputContext hnode]
  rw [routeContext, routeContext, hcontains]
  split
  · apply Dict.get?_set_congr
    apply get?_outputContext hread
  · apply get?_outputContext hread

/-- The route of a node of the set is found in the same way. -/
theorem findRoute_congr (hreads : ReadsUpstream rt nodes edges) (hclosed : ParentClosed edges D)
    {states states' : Dict Text WorkflowNodeState}
    (hstates : ∀ nodeId, D nodeId → states.get? nodeId = states'.get? nodeId) {nodeId : Text}
    (hnode : D nodeId) (trigger : Trigger) :
  findRoute rt vars nodeId trigger (outgoingEdges edges nodeId) states
    = findRoute rt vars nodeId trigger (outgoingEdges edges nodeId) states'
  := by
  have hmatch : ∀ default, firstMatch rt vars (routeContext nodeId trigger states) default
        ((outgoingEdges edges nodeId).filter (fun edge => edge.trigger = trigger))
      = firstMatch rt vars (routeContext nodeId trigger states') default
        ((outgoingEdges edges nodeId).filter (fun edge => edge.trigger = trigger)) := by
    intro default
    apply firstMatch_congr
    intro edge hedge read hread
    obtain ⟨hmem, hsource⟩ := List.mem_filter.mp (List.mem_filter.mp hedge).1
    obtain rfl := eq_of_beq hsource
    apply get?_routeContext (hstates _ hnode)
    apply hstates
    obtain rfl | hancestor := hreads.edge_when edge hmem read hread
    · apply hnode
    · apply hclosed.ancestor hancestor hnode
  simp only [findRoute, hmatch]

/-- The route of a node of the set is selected in the same way, and stored alike. -/
theorem selectedRoute_agree (hreads : ReadsUpstream rt nodes edges)
    (hclosed : ParentClosed edges D) {states states' : Dict Text WorkflowNodeState}
    {cache cache' cache₁ cache₁' : RouteCache} {route route' : Route}
    (hstates : ∀ nodeId, D nodeId → states.get? nodeId = states'.get? nodeId)
    (hcache : ∀ nodeId trigger, D nodeId →
      cache.get? (nodeId, trigger) = cache'.get? (nodeId, trigger))
    {nodeId : Text} (hnode : D nodeId) {trigger : Trigger}
    (h : selectedRoute rt vars nodeId trigger (outgoingEdges edges nodeId) states cache
      = .ok (route, cache₁))
    (h' : selectedRoute rt vars nodeId trigger (outgoingEdges edges nodeId) states' cache'
      = .ok (route', cache₁')) :
  route = route' ∧ ∀ other trigger', D other →
    cache₁.get? (other, trigger') = cache₁'.get? (other, trigger')
  := by
  rw [selectedRoute] at h h'
  rw [← hcache nodeId trigger hnode] at h'
  split at h
  · rename_i found hfound
    rw [hfound] at h'
    obtain ⟨rfl, rfl⟩ := Prod.mk.inj (Except.ok.inj h)
    obtain ⟨rfl, rfl⟩ := Prod.mk.inj (Except.ok.inj h')
    exact ⟨rfl, hcache⟩
  · rename_i hfound
    rw [hfound] at h'
    rw [← findRoute_congr hreads hclosed hstates hnode] at h'
    obtain ⟨found, hfind, h⟩ := Outcome.bind_eq_ok.mp h
    obtain ⟨found', hfind', h'⟩ := Outcome.bind_eq_ok.mp h'
    rw [hfind] at hfind'
    obtain rfl := Except.ok.inj hfind'
    obtain ⟨rfl, rfl⟩ := Prod.mk.inj (Outcome.pure_eq_ok.mp h)
    obtain ⟨rfl, rfl⟩ := Prod.mk.inj (Outcome.pure_eq_ok.mp h')
    refine ⟨rfl, ?_⟩
    intro other trigger' hother
    apply Dict.get?_set_congr
    apply hcache other trigger' hother

end Reads

/-! ### Nodes of the set -/

section Inside

variable {rt : WhenRuntime} {vars : Variables} {nodes : List WorkflowNode}
  {edges : List WorkflowEdge} {D : Text → Prop} {acc acc' r r' : PlanAcc} {node : WorkflowNode}

theorem Agree.record (h : Agree D acc acc') (state : WorkflowNodeState) :
  Agree D (acc.record state) (acc'.record state)
  := by
  constructor
  · intro nodeId hnode
    apply Dict.get?_set_congr
    apply h.states nodeId hnode
  · apply h.routes
  · apply h.inactive
  · apply h.enqueue

theorem Agree.ready (h : Agree D acc acc') (node : WorkflowNode) (outputs : NodeOutputs) :
  Agree D (acc.ready node outputs) (acc'.ready node outputs)
  := by
  obtain ⟨hstates, hroutes, hinactive, -⟩ :=
    h.record { nodeId := node.id, status := .waiting, outputs := outputs }
  refine ⟨hstates, hroutes, hinactive, ?_⟩
  intro nodeId hnode
  simp only [PlanAcc.ready, List.mem_append, h.enqueue nodeId hnode]

theorem settle_agree (hreads : ReadsUpstream rt nodes edges) (hclosed : ParentClosed edges D)
    (hagree : Agree D acc acc') (hnode : D node.id) {state : WorkflowNodeState}
    (h : settle rt vars edges acc node state = .ok r)
    (h' : settle rt vars edges acc' node state = .ok r') :
  Agree D r r'
  := by
  have hstates : ∀ nodeId, D nodeId → (acc.states.set node.id state).get? nodeId
      = (acc'.states.set node.id state).get? nodeId := by
    intro nodeId hmem
    apply Dict.get?_set_congr
    apply hagree.states nodeId hmem
  have hset : ∀ settled nodeId, D nodeId →
      ((acc.states.set node.id state).set node.id settled).get? nodeId
        = ((acc'.states.set node.id state).set node.id settled).get? nodeId := by
    intro settled nodeId hmem
    apply Dict.get?_set_congr
    apply hstates nodeId hmem
  obtain ⟨⟨settled, routes⟩, hroute, h⟩ := Outcome.bind_eq_ok.mp h
  obtain ⟨⟨settled', routes'⟩, hroute', h'⟩ := Outcome.bind_eq_ok.mp h'
  obtain rfl := Outcome.pure_eq_ok.mp h
  obtain rfl := Outcome.pure_eq_ok.mp h'
  rw [withFailureRouteError] at hroute hroute'
  split at hroute
  · rename_i hskip
    rw [if_pos hskip] at hroute'
    obtain ⟨rfl, rfl⟩ := Prod.mk.inj (Except.ok.inj hroute)
    obtain ⟨rfl, rfl⟩ := Prod.mk.inj (Except.ok.inj hroute')
    exact ⟨hset _, hagree.routes, hagree.inactive, hagree.enqueue⟩
  · rename_i hskip
    rw [if_neg hskip] at hroute'
    obtain ⟨⟨route, cache⟩, hselect, hroute⟩ := Outcome.bind_eq_ok.mp hroute
    obtain ⟨⟨route', cache'⟩, hselect', hroute'⟩ := Outcome.bind_eq_ok.mp hroute'
    obtain ⟨rfl, hcache⟩ :=
      selectedRoute_agree hreads hclosed hstates hagree.routes hnode hselect hselect'
    obtain message | target := route
    · obtain ⟨rfl, rfl⟩ := Prod.mk.inj (Outcome.pure_eq_ok.mp hroute)
      obtain ⟨rfl, rfl⟩ := Prod.mk.inj (Outcome.pure_eq_ok.mp hroute')
      exact ⟨hset _, hcache, hagree.inactive, hagree.enqueue⟩
    · obtain ⟨rfl, rfl⟩ := Prod.mk.inj (Outcome.pure_eq_ok.mp hroute)
      obtain ⟨rfl, rfl⟩ := Prod.mk.inj (Outcome.pure_eq_ok.mp hroute')
      exact ⟨hset _, hcache, hagree.inactive, hagree.enqueue⟩

theorem planReady_agree (hreads : ReadsUpstream rt nodes edges) (hclosed : ParentClosed edges D)
    (hagree : Agree D acc acc') (hmem : node ∈ nodes) (hnode : D node.id)
    (h : planReady rt vars edges acc node = .ok r)
    (h' : planReady rt vars edges acc' node = .ok r') :
  Agree D r r'
  := by
  have hcontext : ∀ read, IsAncestor edges read node.id →
      (outputContext acc.states).get? read = (outputContext acc'.states).get? read := by
    intro read hancestor
    apply get?_outputContext
    apply hagree.states
    apply hclosed.ancestor hancestor hnode
  have hwhen : evaluateWhen rt node.when vars (outputContext acc.states)
      = evaluateWhen rt node.when vars (outputContext acc'.states) := by
    apply evaluateWhen_congr
    intro read hread
    apply hcontext read (hreads.node_when node hmem read hread)
  have hpayload : interpolatePayload node.payload vars (outputContext acc.states)
      = interpolatePayload node.payload vars (outputContext acc'.states) := by
    apply interpolatePayload_congr
    intro read hread
    apply hcontext read (hreads.payload node hmem read hread)
  rw [planReady] at h h'
  rw [← hwhen] at h'
  split at h
  · rename_i message heval
    rw [heval] at h'
    apply settle_agree hreads hclosed hagree hnode h h'
  · rename_i heval
    rw [heval] at h'
    obtain rfl := Except.ok.inj h
    obtain rfl := Except.ok.inj h'
    apply hagree.record
  · rename_i heval
    rw [heval] at h'
    dsimp only at h'
    rw [← hpayload] at h'
    split at h
    · rename_i message hrender
      rw [hrender] at h'
      apply settle_agree hreads hclosed hagree hnode h h'
    · rename_i rendered hrender
      rw [hrender] at h'
      dsimp only at h'
      split at h
      · rename_i hbranch
        rw [if_pos hbranch] at h'
        obtain ⟨⟨route, routes⟩, hselect, h⟩ := Outcome.bind_eq_ok.mp h
        obtain ⟨⟨route', routes'⟩, hselect', h'⟩ := Outcome.bind_eq_ok.mp h'
        obtain ⟨rfl, hroutes⟩ :=
          selectedRoute_agree hreads hclosed hagree.states hagree.routes hnode hselect hselect'
        have hagree' : Agree D { acc with routes := routes } { acc' with routes := routes' } :=
          ⟨hagree.states, hroutes, hagree.inactive, hagree.enqueue⟩
        obtain message | target := route
        · apply settle_agree hreads hclosed hagree' hnode h h'
        · obtain rfl := Outcome.pure_eq_ok.mp h
          obtain rfl := Outcome.pure_eq_ok.mp h'
          apply hagree'.ready
      · rename_i hbranch
        rw [if_neg hbranch] at h'
        obtain rfl := Except.ok.inj h
        obtain rfl := Except.ok.inj h'
        apply hagree.ready

theorem edgeDecision_agree (hreads : ReadsUpstream rt nodes edges)
    (hclosed : ParentClosed edges D) (hagree : Agree D acc acc') {edge : WorkflowEdge}
    (hsource : D edge.source) {decision decision' : EdgeDecision} {routes routes' : RouteCache}
    (h : edgeDecision rt vars nodes edges acc edge = .ok (decision, routes))
    (h' : edgeDecision rt vars nodes edges acc' edge = .ok (decision', routes')) :
  decision = decision' ∧ Agree D { acc with routes := routes } { acc' with routes := routes' }
  := by
  have hkept : ∀ {d d' : EdgeDecision}, d = d' →
      (pure (d, acc.routes) : Except Text (EdgeDecision × RouteCache)) = .ok (decision, routes) →
      (pure (d', acc'.routes) : Except Text (EdgeDecision × RouteCache))
        = .ok (decision', routes') →
      decision = decision'
        ∧ Agree D { acc with routes := routes } { acc' with routes := routes' } := by
    rintro d _ rfl hd hd'
    obtain ⟨rfl, rfl⟩ := Prod.mk.inj (Outcome.pure_eq_ok.mp hd)
    obtain ⟨rfl, rfl⟩ := Prod.mk.inj (Outcome.pure_eq_ok.mp hd')
    exact ⟨rfl, hagree⟩
  have hinactive : acc.inactive.contains edge.source = acc'.inactive.contains edge.source := by
    rw [Bool.eq_iff_iff, List.contains_iff_mem, List.contains_iff_mem]
    apply hagree.inactive _ hsource
  rw [edgeDecision] at h h'
  rw [← hagree.states _ hsource, ← hinactive] at h'
  split at h
  · cases h
  · rename_i source hstate
    rw [hstate] at h'
    dsimp only at h'
    split at h
    · rename_i hterminal
      rw [if_pos hterminal] at h'
      apply hkept rfl h h'
    · rename_i hterminal
      rw [if_neg hterminal] at h'
      split at h
      · rename_i hskipped
        rw [if_pos hskipped] at h'
        apply hkept rfl h h'
      · rename_i hskipped
        rw [if_neg hskipped] at h'
        obtain ⟨sourceNode, hlookup, h⟩ := Outcome.bind_eq_ok.mp h
        obtain ⟨sourceNode', hlookup', h'⟩ := Outcome.bind_eq_ok.mp h'
        rw [hlookup] at hlookup'
        obtain rfl := Except.ok.inj hlookup'
        cases htrigger : edge.trigger with
        | success =>
            rw [htrigger] at h h'
            dsimp only at h h'
            split at h
            · rename_i hbranch
              rw [if_pos hbranch] at h'
              split at h
              · rename_i hstatus
                rw [if_pos hstatus] at h'
                apply hkept rfl h h'
              · rename_i hstatus
                rw [if_neg hstatus] at h'
                split at h
                · rename_i target htarget
                  rw [htarget] at h'
                  apply hkept rfl h h'
                · rename_i htarget
                  rw [htarget] at h'
                  apply hkept rfl h h'
            · rename_i hbranch
              rw [if_neg hbranch] at h'
              split at h
              · rename_i hstatus
                rw [if_pos hstatus] at h'
                apply hkept rfl h h'
              · rename_i hstatus
                rw [if_neg hstatus] at h'
                split at h
                · rename_i hfailed
                  rw [if_pos hfailed] at h'
                  apply hkept rfl h h'
                · rename_i hfailed
                  rw [if_neg hfailed] at h'
                  apply hkept rfl h h'
        | failure =>
            rw [htrigger] at h h'
            dsimp only at h h'
            split at h
            · rename_i hstatus
              rw [if_pos hstatus] at h'
              apply hkept rfl h h'
            · rename_i hstatus
              rw [if_neg hstatus] at h'
              obtain ⟨⟨route, cache⟩, hselect, h⟩ := Outcome.bind_eq_ok.mp h
              obtain ⟨⟨route', cache'⟩, hselect', h'⟩ := Outcome.bind_eq_ok.mp h'
              obtain ⟨rfl, hcache⟩ := selectedRoute_agree hreads hclosed hagree.states
                hagree.routes hsource hselect hselect'
              obtain message | target := route
              · obtain ⟨rfl, rfl⟩ := Prod.mk.inj (Outcome.pure_eq_ok.mp h)
                obtain ⟨rfl, rfl⟩ := Prod.mk.inj (Outcome.pure_eq_ok.mp h')
                exact ⟨rfl, hagree.states, hcache, hagree.inactive, hagree.enqueue⟩
              · obtain ⟨rfl, rfl⟩ := Prod.mk.inj (Outcome.pure_eq_ok.mp h)
                obtain ⟨rfl, rfl⟩ := Prod.mk.inj (Outcome.pure_eq_ok.mp h')
                exact ⟨rfl, hagree.states, hcache, hagree.inactive, hagree.enqueue⟩

theorem edgeDecisions_agree (hreads : ReadsUpstream rt nodes edges)
    (hclosed : ParentClosed edges D) {incoming : List WorkflowEdge}
    (hsources : ∀ edge ∈ incoming, D edge.source) {decisions decisions' : List EdgeDecision}
    (hagree : Agree D acc acc')
    (h : edgeDecisions rt vars nodes edges acc incoming = .ok (decisions, r))
    (h' : edgeDecisions rt vars nodes edges acc' incoming = .ok (decisions', r')) :
  decisions = decisions' ∧ Agree D r r'
  := by
  induction incoming generalizing acc acc' decisions decisions' with
  | nil =>
      obtain ⟨rfl, rfl⟩ := Prod.mk.inj (Except.ok.inj h)
      obtain ⟨rfl, rfl⟩ := Prod.mk.inj (Except.ok.inj h')
      exact ⟨rfl, hagree⟩
  | cons edge rest ih =>
      obtain ⟨⟨decision, routes⟩, hedge, h⟩ := Outcome.bind_eq_ok.mp h
      obtain ⟨⟨decision', routes'⟩, hedge', h'⟩ := Outcome.bind_eq_ok.mp h'
      obtain ⟨⟨found, acc₁⟩, hrest, h⟩ := Outcome.bind_eq_ok.mp h
      obtain ⟨⟨found', acc₁'⟩, hrest', h'⟩ := Outcome.bind_eq_ok.mp h'
      obtain ⟨rfl, rfl⟩ := Prod.mk.inj (Outcome.pure_eq_ok.mp h)
      obtain ⟨rfl, rfl⟩ := Prod.mk.inj (Outcome.pure_eq_ok.mp h')
      obtain ⟨rfl, hagree'⟩ := edgeDecision_agree hreads hclosed hagree
        (hsources edge List.mem_cons_self) hedge hedge'
      obtain ⟨rfl, hresult⟩ :=
        ih (fun e he => hsources e (List.mem_cons_of_mem _ he)) hagree' hrest hrest'
      exact ⟨rfl, hresult⟩

theorem planChildless_agree (hreads : ReadsUpstream rt nodes edges)
    (hclosed : ParentClosed edges D) (hagree : Agree D acc acc') (hmem : node ∈ nodes)
    (hnode : D node.id) (h : planChildless rt vars nodes edges acc node = .ok r)
    (h' : planChildless rt vars nodes edges acc' node = .ok r') :
  Agree D r r'
  := by
  have hsources : ∀ edge ∈ incomingEdges edges node.id, D edge.source := by
    intro edge hedge
    obtain ⟨hedge, htarget⟩ := List.mem_filter.mp hedge
    apply hclosed edge hedge
    rw [eq_of_beq htarget]
    apply hnode
  rw [planChildless] at h h'
  split at h
  · rename_i hempty
    rw [if_pos hempty] at h'
    apply planReady_agree hreads hclosed hagree hmem hnode h h'
  · rename_i hempty
    rw [if_neg hempty] at h'
    obtain ⟨⟨decisions, acc₁⟩, hdecisions, h⟩ := Outcome.bind_eq_ok.mp h
    obtain ⟨⟨decisions', acc₁'⟩, hdecisions', h'⟩ := Outcome.bind_eq_ok.mp h'
    obtain ⟨rfl, hagree'⟩ := edgeDecisions_agree hreads hclosed hsources hagree hdecisions hdecisions'
    simp only [planDecided] at h h'
    split at h
    · rename_i hwaiting
      rw [if_pos hwaiting] at h'
      obtain rfl := Except.ok.inj h
      obtain rfl := Except.ok.inj h'
      apply hagree'.record
    · rename_i hwaiting
      rw [if_neg hwaiting] at h'
      split at h
      · rename_i hinactive
        rw [if_pos hinactive] at h'
        obtain rfl := Except.ok.inj h
        obtain rfl := Except.ok.inj h'
        obtain ⟨hstates, hroutes, hold, henqueue⟩ :=
          hagree'.record { nodeId := node.id, status := .skipped }
        refine ⟨hstates, hroutes, ?_, henqueue⟩
        intro nodeId hnode'
        simp only [List.mem_cons, hagree'.inactive nodeId hnode']
      · rename_i hinactive
        rw [if_neg hinactive] at h'
        split at h
        · rename_i hblocked
          rw [if_pos hblocked] at h'
          obtain rfl := Except.ok.inj h
          obtain rfl := Except.ok.inj h'
          apply hagree'.record
        · rename_i hblocked
          rw [if_neg hblocked] at h'
          apply planReady_agree hreads hclosed hagree' hmem hnode h h'

/-- The state of a node does not depend on the time. -/
theorem stateFromChild_state (node : WorkflowNode) (child : WorkflowChildJob)
    (now now' defaultMaxRetries : ℤ) :
  (stateFromChild node child now defaultMaxRetries).state
    = (stateFromChild node child now' defaultMaxRetries).state
  := by
  have hfailure : ∀ state, (reportFailure node child now defaultMaxRetries state).state
      = (reportFailure node child now' defaultMaxRetries state).state := by
    intro state
    rw [reportFailure, reportFailure]
    split
    · rw [apply_ite ChildReport.state, apply_ite ChildReport.state, ite_self, ite_self]
    · rfl
  rw [stateFromChild, stateFromChild]
  split
  · rfl
  · rw [reportFromChild, reportFromChild]
    split
    · rfl
    · rfl
    · apply hfailure
    · apply hfailure
    · rfl
    · rfl

end Inside

/-! ### Nodes outside the set -/

section Outside

variable {rt : WhenRuntime} {vars : Variables} {nodes : List WorkflowNode}
  {edges : List WorkflowEdge} {acc acc' : PlanAcc} {node : WorkflowNode}

/-- Planning a node has changed nothing about other nodes, and if the node has failed and
branches on failure its route is known. -/
structure Framed (node : WorkflowNode) (acc acc' : PlanAcc) : Prop where
  states : ∀ other, node.id ≠ other → acc'.states.get? other = acc.states.get? other
  routes : ∀ other trigger, node.id ≠ other →
    acc'.routes.get? (other, trigger) = acc.routes.get? (other, trigger)
  inactive : ∀ other, node.id ≠ other → (other ∈ acc'.inactive ↔ other ∈ acc.inactive)
  enqueue : ∀ other, node.id ≠ other → (other ∈ acc'.enqueue ↔ other ∈ acc.enqueue)
  known : ∀ state, acc'.states.get? node.id = some state → state.status = .failed →
    node.onFailure = .branch → ∃ route, acc'.routes.get? (node.id, .failure) = some route

theorem selectedRoute_eq_ok {nodeId : Text} {trigger : Trigger} {outgoing : List WorkflowEdge}
    {states : Dict Text WorkflowNodeState} {cache cache' : RouteCache} {route : Route}
    (h : selectedRoute rt vars nodeId trigger outgoing states cache = .ok (route, cache')) :
  cache'.get? (nodeId, trigger) = some route
    ∧ ∀ other trigger', nodeId ≠ other →
      cache'.get? (other, trigger') = cache.get? (other, trigger')
  := by
  rw [selectedRoute] at h
  split at h
  · rename_i found hfound
    obtain ⟨rfl, rfl⟩ := Prod.mk.inj (Except.ok.inj h)
    exact ⟨hfound, fun _ _ _ => rfl⟩
  · obtain ⟨found, -, h⟩ := Outcome.bind_eq_ok.mp h
    obtain ⟨rfl, rfl⟩ := Prod.mk.inj (Outcome.pure_eq_ok.mp h)
    constructor
    · apply Dict.get?_set_self
    · intro other trigger' hne
      apply Dict.get?_set_of_ne
      intro heq
      apply hne (Prod.mk.inj heq).1

theorem record_framed {state : WorkflowNodeState} (hid : state.nodeId = node.id)
    (hstatus : state.status ≠ .failed) :
  Framed node acc (acc.record state)
  := by
  constructor
  · intro other hne
    apply Dict.get?_set_of_ne
    rw [hid]
    apply hne
  · intro other trigger _
    rfl
  · intro other _
    rfl
  · intro other _
    rfl
  · intro found hfound hfailed
    rw [PlanAcc.record, hid, Dict.get?_set_self] at hfound
    obtain rfl := Option.some.inj hfound
    exact (hstatus hfailed).elim

theorem ready_framed (outputs : NodeOutputs) :
  Framed node acc (acc.ready node outputs)
  := by
  have hrecord : Framed node acc
      (acc.record { nodeId := node.id, status := .waiting, outputs := outputs }) := by
    apply record_framed rfl
    simp
  obtain ⟨hstates, hroutes, hinactive, -, hknown⟩ := hrecord
  refine ⟨hstates, hroutes, hinactive, ?_, hknown⟩
  intro other hne
  simp [PlanAcc.ready, Ne.symm hne]

theorem settle_framed {state : WorkflowNodeState}
    (h : settle rt vars edges acc node state = .ok acc') :
  Framed node acc acc'
  := by
  obtain ⟨⟨settled, routes⟩, hroute, h⟩ := Outcome.bind_eq_ok.mp h
  obtain rfl := Outcome.pure_eq_ok.mp h
  have hstates : ∀ other, node.id ≠ other →
      ((acc.states.set node.id state).set node.id settled).get? other = acc.states.get? other := by
    intro other hne
    rw [Dict.get?_set_of_ne _ _ hne, Dict.get?_set_of_ne _ _ hne]
  have hstatus := (withFailureRouteError_eq_ok hroute).1
  rw [withFailureRouteError] at hroute
  split at hroute
  · rename_i hskip
    obtain ⟨rfl, rfl⟩ := Prod.mk.inj (Except.ok.inj hroute)
    refine ⟨hstates, fun _ _ _ => rfl, fun _ _ => Iff.rfl, fun _ _ => Iff.rfl, ?_⟩
    intro found hfound hfailed hbranch
    rw [Dict.get?_set_self] at hfound
    obtain rfl := Option.some.inj hfound
    obtain hne | hne := hskip
    · exact (hne hfailed).elim
    · exact (hne hbranch).elim
  · obtain ⟨⟨route, cache⟩, hselect, hroute⟩ := Outcome.bind_eq_ok.mp hroute
    obtain ⟨hknown, hcache⟩ := selectedRoute_eq_ok hselect
    have hroutes : routes = cache := by
      obtain message | target := route
      · apply (Prod.mk.inj (Outcome.pure_eq_ok.mp hroute)).2.symm
      · apply (Prod.mk.inj (Outcome.pure_eq_ok.mp hroute)).2.symm
    rw [hroutes]
    exact ⟨hstates, hcache, fun _ _ => Iff.rfl, fun _ _ => Iff.rfl, fun _ _ _ _ => ⟨_, hknown⟩⟩

/-- A change of the routes of a node comes before what is framed. -/
theorem Framed.of_routes {routes : RouteCache}
    (h : Framed node { acc with routes := routes } acc')
    (hroutes : ∀ other trigger, node.id ≠ other →
      routes.get? (other, trigger) = acc.routes.get? (other, trigger)) :
  Framed node acc acc'
  := by
  refine ⟨h.states, ?_, h.inactive, h.enqueue, h.known⟩
  intro other trigger hne
  rw [h.routes other trigger hne]
  apply hroutes other trigger hne

theorem planReady_framed (h : planReady rt vars edges acc node = .ok acc') :
  Framed node acc acc'
  := by
  rw [planReady] at h
  split at h
  · apply settle_framed h
  · obtain rfl := Except.ok.inj h
    apply record_framed rfl
    simp
  · split at h
    · apply settle_framed h
    · split at h
      · obtain ⟨⟨route, routes⟩, hselect, h⟩ := Outcome.bind_eq_ok.mp h
        obtain ⟨-, hroutes⟩ := selectedRoute_eq_ok hselect
        obtain message | target := route
        · apply (settle_framed h).of_routes hroutes
        · obtain rfl := Outcome.pure_eq_ok.mp h
          apply (ready_framed _).of_routes hroutes
      · obtain rfl := Except.ok.inj h
        apply ready_framed

/-- The route of every failed node with an edge for its failure is known. -/
def RoutesKnown (edges : List WorkflowEdge) (acc : PlanAcc) : Prop :=
  ∀ edge ∈ edges, edge.trigger = .failure →
    ∀ state, acc.states.get? edge.source = some state → state.status = .failed →
      ∃ route, acc.routes.get? (edge.source, .failure) = some route

/-- Reading an edge finds no new route. -/
theorem edgeDecision_routes (hknown : RoutesKnown edges acc) {edge : WorkflowEdge}
    (hedge : edge ∈ edges) {decision : EdgeDecision} {routes : RouteCache}
    (h : edgeDecision rt vars nodes edges acc edge = .ok (decision, routes)) :
  routes = acc.routes
  := by
  have hkept : ∀ {d : EdgeDecision},
      (pure (d, acc.routes) : Except Text (EdgeDecision × RouteCache)) = .ok (decision, routes) →
      routes = acc.routes := by
    intro d hd
    apply (Prod.mk.inj (Outcome.pure_eq_ok.mp hd)).2.symm
  rw [edgeDecision] at h
  split at h
  · cases h
  · rename_i source hsource
    split at h
    · apply hkept h
    · split at h
      · apply hkept h
      · obtain ⟨sourceNode, -, h⟩ := Outcome.bind_eq_ok.mp h
        split at h
        · split at h
          · split at h
            · apply hkept h
            · split at h
              · apply hkept h
              · apply hkept h
          · split at h
            · apply hkept h
            · split at h
              · apply hkept h
              · apply hkept h
        · rename_i htrigger
          split at h
          · apply hkept h
          · rename_i hfailed
            obtain ⟨found, hfound⟩ :=
              hknown edge hedge htrigger source hsource (not_not.mp hfailed)
            obtain ⟨⟨route, cache⟩, hselect, h⟩ := Outcome.bind_eq_ok.mp h
            rw [selectedRoute, hfound] at hselect
            obtain ⟨rfl, rfl⟩ := Prod.mk.inj (Except.ok.inj hselect)
            obtain message | target := found
            · apply hkept h
            · apply hkept h

theorem edgeDecisions_acc (hknown : RoutesKnown edges acc) {incoming : List WorkflowEdge}
    (hincoming : ∀ edge ∈ incoming, edge ∈ edges) {decisions : List EdgeDecision}
    (h : edgeDecisions rt vars nodes edges acc incoming = .ok (decisions, acc')) :
  acc' = acc
  := by
  induction incoming generalizing decisions with
  | nil => apply (Prod.mk.inj (Except.ok.inj h)).2.symm
  | cons edge rest ih =>
      obtain ⟨⟨decision, routes⟩, hedge, h⟩ := Outcome.bind_eq_ok.mp h
      obtain ⟨⟨found, acc₁⟩, hrest, h⟩ := Outcome.bind_eq_ok.mp h
      obtain ⟨-, rfl⟩ := Prod.mk.inj (Outcome.pure_eq_ok.mp h)
      obtain rfl := edgeDecision_routes hknown (hincoming edge List.mem_cons_self) hedge
      apply ih (fun e he => hincoming e (List.mem_cons_of_mem _ he)) hrest

theorem planChildless_framed (hknown : RoutesKnown edges acc)
    (h : planChildless rt vars nodes edges acc node = .ok acc') :
  Framed node acc acc'
  := by
  rw [planChildless] at h
  split at h
  · apply planReady_framed h
  · obtain ⟨⟨decisions, acc₁⟩, hdecisions, h⟩ := Outcome.bind_eq_ok.mp h
    have hacc := edgeDecisions_acc hknown (fun edge hedge => (List.mem_filter.mp hedge).1) hdecisions
    simp only [planDecided, hacc] at h
    split at h
    · obtain rfl := Except.ok.inj h
      apply record_framed rfl
      simp
    · split at h
      · obtain rfl := Except.ok.inj h
        have hrecord : Framed node acc
            (acc.record { nodeId := node.id, status := .skipped }) := by
          apply record_framed rfl
          simp
        obtain ⟨hstates, hroutes, -, henqueue, hstill⟩ := hrecord
        refine ⟨hstates, hroutes, ?_, henqueue, hstill⟩
        intro other hne
        simp [Ne.symm hne]
      · split at h
        · obtain rfl := Except.ok.inj h
          apply record_framed rfl
          simp
        · apply planReady_framed h

end Outside

/-! ### Two passes -/

section Passes

variable {rt : WhenRuntime} {vars : Variables} {spec : WorkflowSpec rt} {D : Text → Prop}
  {defaultMaxRetries now now' : ℤ} {children children' : Dict Text WorkflowChildJob}
  {acc acc' r r' : PlanAcc} {node : WorkflowNode}

theorem planNode_framed (hknown : RoutesKnown spec.edges acc)
    (h : planNode rt vars spec.nodes spec.edges defaultMaxRetries children now acc node = .ok r) :
  Framed node acc r
  := by
  rw [planNode] at h
  split at h
  · obtain ⟨hstates, hroutes, hinactive, henqueue, hroute⟩ := settle_framed h
    exact ⟨hstates, hroutes, hinactive, henqueue, hroute⟩
  · apply planChildless_framed hknown h

/-- The routes of failed nodes stay known when one more node is planned. -/
theorem planNode_routesKnown (hmem : node ∈ spec.nodes) (hknown : RoutesKnown spec.edges acc)
    (h : planNode rt vars spec.nodes spec.edges defaultMaxRetries children now acc node = .ok r) :
  RoutesKnown spec.edges r
  := by
  have hframed := planNode_framed hknown h
  intro edge hedge htrigger state hstate hfailed
  by_cases hsource : node.id = edge.source
  · rw [← hsource] at hstate ⊢
    apply hframed.known state hstate hfailed
    apply spec.onFailure_of_failure_edge hedge htrigger hmem hsource
  · rw [hframed.states _ hsource] at hstate
    rw [hframed.routes _ _ hsource]
    apply hknown edge hedge htrigger state hstate hfailed

/-- Two passes that agree on a set of nodes still do when one more node is planned. -/
theorem planNode_agree (hreads : ReadsUpstream rt spec.nodes spec.edges)
    (hclosed : ParentClosed spec.edges D)
    (hchildren : ∀ nodeId, D nodeId → children.get? nodeId = children'.get? nodeId)
    (hmem : node ∈ spec.nodes) (hknown : RoutesKnown spec.edges acc)
    (hknown' : RoutesKnown spec.edges acc') (hagree : Agree D acc acc')
    (h : planNode rt vars spec.nodes spec.edges defaultMaxRetries children now acc node = .ok r)
    (h' : planNode rt vars spec.nodes spec.edges defaultMaxRetries children' now' acc' node
      = .ok r') :
  Agree D r r'
  := by
  by_cases hnode : D node.id
  · rw [planNode] at h h'
    rw [← hchildren _ hnode] at h'
    split at h
    · rename_i child hchild
      rw [hchild] at h'
      dsimp only at h'
      rw [stateFromChild_state node child now' now] at h'
      have hagree' : Agree D
          { acc with
            retry := acc.retry ++ (stateFromChild node child now defaultMaxRetries).retry
            waits := acc.waits ++ (stateFromChild node child now defaultMaxRetries).waits }
          { acc' with
            retry := acc'.retry ++ (stateFromChild node child now' defaultMaxRetries).retry
            waits := acc'.waits ++ (stateFromChild node child now' defaultMaxRetries).waits } :=
        ⟨hagree.states, hagree.routes, hagree.inactive, hagree.enqueue⟩
      apply settle_agree hreads hclosed hagree' hnode h h'
    · rename_i hchild
      rw [hchild] at h'
      apply planChildless_agree hreads hclosed hagree hmem hnode h h'
  · have hne : ∀ other, D other → node.id ≠ other := by
      rintro other hother rfl
      apply hnode hother
    have hframed := planNode_framed hknown h
    have hframed' := planNode_framed hknown' h'
    constructor
    · intro other hother
      rw [hframed.states _ (hne other hother), hframed'.states _ (hne other hother),
        hagree.states other hother]
    · intro other trigger hother
      rw [hframed.routes _ _ (hne other hother), hframed'.routes _ _ (hne other hother),
        hagree.routes other trigger hother]
    · intro other hother
      rw [hframed.inactive _ (hne other hother), hframed'.inactive _ (hne other hother),
        hagree.inactive other hother]
    · intro other hother
      rw [hframed.enqueue _ (hne other hother), hframed'.enqueue _ (hne other hother),
        hagree.enqueue other hother]

theorem planNodes_agree_from (hreads : ReadsUpstream rt spec.nodes spec.edges)
    (hclosed : ParentClosed spec.edges D)
    (hchildren : ∀ nodeId, D nodeId → children.get? nodeId = children'.get? nodeId)
    {order : List WorkflowNode} (horder : ∀ node ∈ order, node ∈ spec.nodes)
    (hknown : RoutesKnown spec.edges acc) (hknown' : RoutesKnown spec.edges acc')
    (hagree : Agree D acc acc')
    (h : planNodes rt vars spec.nodes spec.edges defaultMaxRetries children now order acc = .ok r)
    (h' : planNodes rt vars spec.nodes spec.edges defaultMaxRetries children' now' order acc'
      = .ok r') :
  Agree D r r'
  := by
  induction order generalizing acc acc' with
  | nil =>
      obtain rfl := Outcome.pure_eq_ok.mp h
      obtain rfl := Outcome.pure_eq_ok.mp h'
      apply hagree
  | cons node rest ih =>
      rw [planNodes, List.foldlM_cons] at h h'
      obtain ⟨acc₁, hnode, h⟩ := Outcome.bind_eq_ok.mp h
      obtain ⟨acc₁', hnode', h'⟩ := Outcome.bind_eq_ok.mp h'
      have hmem := horder node List.mem_cons_self
      apply ih (fun n hn => horder n (List.mem_cons_of_mem _ hn))
        (planNode_routesKnown hmem hknown hnode) (planNode_routesKnown hmem hknown' hnode') _ h h'
      apply planNode_agree hreads hclosed hchildren hmem hknown hknown' hagree hnode hnode'

theorem routesKnown_empty :
  RoutesKnown spec.edges {}
  := by
  intro edge _ _ state hstate
  cases hstate

/-- What the pass finds about a set of nodes with their ancestors depends only on the children
of those nodes. -/
theorem planNodes_agree (hreads : ReadsUpstream rt spec.nodes spec.edges)
    (hclosed : ParentClosed spec.edges D)
    (hchildren : ∀ nodeId, D nodeId → children.get? nodeId = children'.get? nodeId)
    {order : List WorkflowNode} (horder : ∀ node ∈ order, node ∈ spec.nodes)
    (h : planNodes rt vars spec.nodes spec.edges defaultMaxRetries children now order {} = .ok r)
    (h' : planNodes rt vars spec.nodes spec.edges defaultMaxRetries children' now' order {}
      = .ok r') :
  Agree D r r'
  := by
  apply planNodes_agree_from hreads hclosed hchildren horder routesKnown_empty
    routesKnown_empty _ h h'
  exact ⟨fun _ _ => rfl, fun _ _ _ => rfl, fun _ _ => Iff.rfl, fun _ _ => Iff.rfl⟩

end Passes

end Workflow

import DataOpsStudio.Workflow.Spec
import Mathlib.Data.List.Sort
import Mathlib.Tactic.Linarith

/-!
# The order in which nodes are planned

Nodes are planned parents first.  A node becomes ready when the last edge entering it comes
from a node already in the order; among ready nodes the one declared first is taken.  No
node is taken twice.
-/

namespace Workflow

open Text

/-- The number of edges still to be removed in front of a node. -/
def degree (inDegree : Dict Text ℤ) (nodeId : Text) : ℤ := (inDegree.get? nodeId).getD 0

/-- Removes one edge in front of a node, which is ready when it was the last one. -/
def relax (state : Dict Text ℤ × List Text) (target : Text) : Dict Text ℤ × List Text :=
  let remaining := degree state.1 target - 1
  (state.1.set target remaining, if remaining = 0 then state.2 ++ [target] else state.2)

section Order

variable (nodes : List WorkflowNode) (edges : List WorkflowEdge)

/-- The place of a node in the declaration. -/
def indexById (nodeId : Text) : ℕ := (nodes.map WorkflowNode.id).idxOf nodeId

/-- Ready nodes in the order of their declaration. -/
def sortReady (ready : List Text) : List Text :=
  ready.insertionSort (fun a b => indexById nodes a ≤ indexById nodes b)

/-- Takes ready nodes until none is left. -/
def kahnLoop : ℕ → Dict Text ℤ → List Text → List Text → Except Text (List Text)
  | 0, _, _, _ => .error "out of fuel".toList
  | _ + 1, _, [], order => .ok order
  | fuel + 1, inDegree, current :: ready, order =>
      let relaxed := (downstream edges current).foldl relax (inDegree, ready)
      kahnLoop fuel relaxed.1 (sortReady nodes relaxed.2) (order ++ [current])

/-- The number of edges in front of every node. -/
def initialInDegree : Dict Text ℤ :=
  Dict.ofList (nodes.map (fun node => (node.id, ((parents edges node.id).length : ℤ))))

/-- The nodes without an edge in front of them. -/
def initialReady : List Text :=
  sortReady nodes
    ((nodes.map WorkflowNode.id).filter
      (fun nodeId => degree (initialInDegree nodes edges) nodeId = 0))

/-- The identifiers of the nodes, parents first. -/
def topologicalIds : Except Text (List Text) :=
  kahnLoop nodes edges (nodes.length + 1) (initialInDegree nodes edges)
    (initialReady nodes edges) []

/-- The node of an identifier, which the mapping of nodes must have. -/
def lookupNode (nodeId : Text) : Except Text WorkflowNode :=
  match nodeById? nodes nodeId with
  | some node => .ok node
  | none => .error "KeyError".toList

/-- The nodes, parents first. -/
def topologicalNodes : Except Text (List WorkflowNode) := do
  let order ← topologicalIds nodes edges
  if order.length = nodes.length then
    order.mapM (lookupNode nodes)
  else .error "cycle_detected: workflow spec must be a DAG".toList

end Order

/-! ### No node is taken twice -/

theorem degree_set (inDegree : Dict Text ℤ) (nodeId other : Text) (d : ℤ) :
  degree (inDegree.set nodeId d) other = if nodeId = other then d else degree inDegree other
  := by
  rw [degree, Dict.get?_set]
  by_cases h : nodeId = other
  · rw [if_pos h, if_pos (beq_iff_eq.mpr h), Option.getD_some]
  · rw [if_neg h, if_neg (by simpa using h), degree]

/-- Removing edges, one for each target in a list, lowers the degrees by the number of times
the targets occur, and makes ready the nodes whose degree becomes zero by it. -/
theorem foldl_relax (targets : List Text) (inDegree : Dict Text ℤ) (ready : List Text)
    (h : ∀ nodeId, (targets.count nodeId : ℤ) ≤ degree inDegree nodeId) :
  (∀ nodeId, degree (targets.foldl relax (inDegree, ready)).1 nodeId
      = degree inDegree nodeId - targets.count nodeId)
    ∧ ∃ newly, (targets.foldl relax (inDegree, ready)).2 = ready ++ newly ∧ newly.Nodup
      ∧ ∀ nodeId ∈ newly, 0 < degree inDegree nodeId
        ∧ degree inDegree nodeId = targets.count nodeId
  := by
  induction targets generalizing inDegree ready with
  | nil =>
      constructor
      · simp
      · use []
        simp
  | cons target rest ih =>
      have hdegree : ∀ nodeId, degree (relax (inDegree, ready) target).1 nodeId
          = if target = nodeId then degree inDegree target - 1 else degree inDegree nodeId := by
        intro nodeId
        apply degree_set
      have hcount : ∀ nodeId, ((target :: rest).count nodeId : ℤ)
          = rest.count nodeId + if target = nodeId then 1 else 0 := by
        intro nodeId
        rw [List.count_cons]
        by_cases ht : target = nodeId
        · simp [ht]
        · simp [ht]
      have hrest : ∀ nodeId, (rest.count nodeId : ℤ)
          ≤ degree (relax (inDegree, ready) target).1 nodeId := by
        intro nodeId
        have := h nodeId
        rw [hcount] at this
        rw [hdegree]
        split at this
        · rename_i ht
          rw [if_pos ht, ht]
          linarith
        · rename_i ht
          rw [if_neg ht]
          linarith
      obtain ⟨hdeg, newly, hready, hnodup, hnewly⟩ :=
        ih (relax (inDegree, ready) target).1 (relax (inDegree, ready) target).2 hrest
      rw [List.foldl_cons]
      constructor
      · intro nodeId
        rw [hdeg nodeId, hdegree, hcount]
        split
        · rename_i ht
          rw [ht]
          omega
        · omega
      · by_cases hzero : degree inDegree target - 1 = 0
        · use target :: newly
          have hrestzero : rest.count target = 0 := by
            have := h target
            rw [hcount, if_pos rfl] at this
            have hnonneg : (0 : ℤ) ≤ rest.count target := Int.natCast_nonneg _
            have : (rest.count target : ℤ) = 0 := by linarith
            exact_mod_cast this
          refine ⟨?_, ?_, ?_⟩
          · rw [hready]
            simp [relax, hzero]
          · apply List.nodup_cons.mpr
            refine ⟨?_, hnodup⟩
            intro hmem
            have := (hnewly target hmem).1
            rw [hdegree, if_pos rfl, hzero] at this
            apply lt_irrefl _ this
          · intro nodeId hmem
            rw [hcount]
            obtain rfl | hmem := List.mem_cons.mp hmem
            · rw [if_pos rfl, hrestzero]
              constructor
              · linarith
              · push_cast
                linarith
            · have hne : target ≠ nodeId := by
                rintro rfl
                have := (hnewly target hmem).1
                rw [hdegree, if_pos rfl, hzero] at this
                apply lt_irrefl _ this
              have := hnewly nodeId hmem
              rw [hdegree, if_neg hne] at this
              rw [if_neg hne, add_zero]
              apply this
        · use newly
          refine ⟨?_, hnodup, ?_⟩
          · rw [hready]
            simp [relax, hzero]
          · intro nodeId hmem
            have hnode := hnewly nodeId hmem
            rw [hdegree] at hnode
            rw [hcount]
            split at hnode
            · rename_i ht
              rw [if_pos ht, ← ht] at *
              constructor
              · linarith [hnode.1]
              · linarith [hnode.2]
            · rename_i ht
              rw [if_neg ht, add_zero]
              apply hnode

section Nodup

variable {nodes : List WorkflowNode} {edges : List WorkflowEdge}

/-- The edges in front of a node that do not come from the order. -/
def openEdges (edges : List WorkflowEdge) (order : List Text) (nodeId : Text) : ℕ :=
  (edges.filter (fun edge => edge.target == nodeId && !order.contains edge.source)).length

/-- Taking a node removes the edges that leave it. -/
theorem openEdges_append {order : List Text} {current : Text} (h : current ∉ order)
    (nodeId : Text) :
  openEdges edges order nodeId
    = openEdges edges (order ++ [current]) nodeId + (downstream edges current).count nodeId
  := by
  rw [openEdges, openEdges, downstream]
  induction edges with
  | nil => rfl
  | cons edge rest ih =>
      by_cases ht : edge.target = nodeId
      · by_cases hs : edge.source = current
        · simp [ht, hs, h] at ih ⊢
          omega
        · by_cases ho : edge.source ∈ order
          · simp [ht, hs, ho] at ih ⊢
            omega
          · simp [ht, hs, ho] at ih ⊢
            omega
      · by_cases hs : edge.source = current
        · simp [ht, hs] at ih ⊢
          omega
        · simp [ht, hs] at ih ⊢
          omega

/-- What the loop keeps: no node is both taken and ready, or either of them twice; the
degree of a node counts the edges in front of it that do not come from a taken node; and a
node that is taken or ready has none. -/
structure KahnInvariant (edges : List WorkflowEdge) (inDegree : Dict Text ℤ)
    (ready order : List Text) : Prop where
  nodup : (order ++ ready).Nodup
  degree_eq : ∀ nodeId, degree inDegree nodeId = openEdges edges order nodeId
  degree_zero : ∀ nodeId ∈ order ++ ready, degree inDegree nodeId = 0

theorem KahnInvariant.step {inDegree : Dict Text ℤ} {current : Text} {ready order : List Text}
    (h : KahnInvariant edges inDegree (current :: ready) order) :
  KahnInvariant edges ((downstream edges current).foldl relax (inDegree, ready)).1
    (sortReady nodes ((downstream edges current).foldl relax (inDegree, ready)).2)
    (order ++ [current])
  := by
  have hcurrent : current ∉ order := by
    have := List.nodup_append.mp h.nodup
    intro hmem
    apply this.2.2 current hmem current List.mem_cons_self rfl
  have hcount : ∀ nodeId, ((downstream edges current).count nodeId : ℤ)
      ≤ degree inDegree nodeId := by
    intro nodeId
    rw [h.degree_eq, openEdges_append hcurrent]
    push_cast
    linarith [Int.natCast_nonneg (openEdges edges (order ++ [current]) nodeId)]
  obtain ⟨hdegree, newly, hready, hnewlyNodup, hnewly⟩ :=
    foldl_relax (downstream edges current) inDegree ready hcount
  have hdegree' : ∀ nodeId,
      degree ((downstream edges current).foldl relax (inDegree, ready)).1 nodeId
        = openEdges edges (order ++ [current]) nodeId := by
    intro nodeId
    rw [hdegree, h.degree_eq, openEdges_append hcurrent]
    push_cast
    omega
  have hperm : (sortReady nodes ((downstream edges current).foldl relax (inDegree, ready)).2).Perm
      (ready ++ newly) := by
    rw [hready]
    apply List.perm_insertionSort
  have hmem : ∀ nodeId ∈ (order ++ [current]) ++ (ready ++ newly),
      nodeId ∈ order ++ current :: ready ∨ nodeId ∈ newly := by
    intro nodeId
    simp only [List.mem_append, List.mem_cons, List.not_mem_nil, or_false]
    tauto
  constructor
  · apply (List.Perm.append_left (order ++ [current]) hperm).nodup_iff.mpr
    have hsplit : (order ++ [current]) ++ (ready ++ newly) = (order ++ current :: ready) ++ newly := by
      simp
    rw [hsplit]
    apply List.nodup_append.mpr
    refine ⟨h.nodup, hnewlyNodup, ?_⟩
    rintro a ha b hb rfl
    have hpos := (hnewly a hb).1
    rw [h.degree_zero a ha] at hpos
    apply lt_irrefl _ hpos
  · apply hdegree'
  · intro nodeId hnode
    have hnode' := (List.Perm.append_left (order ++ [current]) hperm).mem_iff.mp hnode
    rw [hdegree]
    obtain hold | hnew := hmem nodeId hnode'
    · have hzero := h.degree_zero nodeId hold
      have hle := hcount nodeId
      linarith [Int.natCast_nonneg ((downstream edges current).count nodeId)]
    · rw [(hnewly nodeId hnew).2]
      omega

theorem kahnLoop_nodup {fuel : ℕ} {inDegree : Dict Text ℤ} {ready order result : List Text}
    (h : KahnInvariant edges inDegree ready order)
    (hloop : kahnLoop nodes edges fuel inDegree ready order = .ok result) :
  result.Nodup
  := by
  induction fuel generalizing inDegree ready order with
  | zero => cases hloop
  | succ fuel ih =>
      obtain _ | ⟨current, ready⟩ := ready
      · rw [kahnLoop] at hloop
        obtain rfl := Except.ok.inj hloop
        have := h.nodup
        rw [List.append_nil] at this
        apply this
      · rw [kahnLoop] at hloop
        apply ih h.step hloop

end Nodup

/-! ### Parents come first -/

section ParentsFirst

variable {nodes : List WorkflowNode} {edges : List WorkflowEdge}

/-- In front of every node of an order are the sources of the edges that enter it. -/
def ParentsFirst (edges : List WorkflowEdge) (order : List Text) : Prop :=
  ∀ before nodeId rest, order = before ++ nodeId :: rest →
    ∀ edge ∈ edges, edge.target = nodeId → edge.source ∈ before

/-- A node without open edges can be taken next. -/
theorem ParentsFirst.append {order : List Text} {current : Text} (h : ParentsFirst edges order)
    (hopen : openEdges edges order current = 0) :
  ParentsFirst edges (order ++ [current])
  := by
  intro before nodeId rest hsplit edge hedge htarget
  obtain hrest | ⟨front, last, hrest⟩ := rest.eq_nil_or_concat
  · rw [hrest] at hsplit
    obtain ⟨rfl, hcurrent⟩ := List.append_inj' hsplit rfl
    obtain rfl := (List.cons.inj hcurrent).1
    rw [openEdges, List.length_eq_zero_iff, List.filter_eq_nil_iff] at hopen
    have hclosed := hopen edge hedge
    simpa [htarget] using hclosed
  · rw [hrest, List.concat_eq_append, ← List.cons_append, ← List.append_assoc] at hsplit
    obtain ⟨horder, -⟩ := List.append_inj' hsplit rfl
    exact h before nodeId front horder edge hedge htarget

theorem kahnLoop_parentsFirst {fuel : ℕ} {inDegree : Dict Text ℤ}
    {ready order result : List Text} (h : KahnInvariant edges inDegree ready order)
    (hfirst : ParentsFirst edges order)
    (hloop : kahnLoop nodes edges fuel inDegree ready order = .ok result) :
  ParentsFirst edges result
  := by
  induction fuel generalizing inDegree ready order with
  | zero => cases hloop
  | succ fuel ih =>
      obtain _ | ⟨current, ready⟩ := ready
      · rw [kahnLoop] at hloop
        obtain rfl := Except.ok.inj hloop
        exact hfirst
      · rw [kahnLoop] at hloop
        refine ih h.step (hfirst.append ?_) hloop
        have hzero := h.degree_zero current (List.mem_append_right _ List.mem_cons_self)
        rw [h.degree_eq] at hzero
        exact Int.natCast_eq_zero.mp hzero

end ParentsFirst

section Accepted

variable {rt : WhenRuntime} (spec : WorkflowSpec rt)

theorem degree_initialInDegree (nodeId : Text) :
  degree (initialInDegree spec.nodes spec.edges) nodeId = openEdges spec.edges [] nodeId
  := by
  have hopen : openEdges spec.edges [] nodeId = (parents spec.edges nodeId).length := by
    simp [openEdges, parents]
  rw [degree, hopen]
  cases hget : (initialInDegree spec.nodes spec.edges).get? nodeId with
  | some d =>
      obtain ⟨node, -, hitem⟩ := List.mem_map.mp (Dict.mem_of_get?_ofList hget)
      obtain ⟨rfl, rfl⟩ := Prod.mk.inj hitem
      rfl
  | none =>
      have hempty : parents spec.edges nodeId = [] := by
        apply List.eq_nil_iff_forall_not_mem.mpr
        intro parent hparent
        obtain ⟨edge, hedge, -⟩ := List.mem_map.mp hparent
        obtain ⟨hedge, htarget⟩ := List.mem_filter.mp hedge
        have hmem := spec.target_mem hedge
        rw [eq_of_beq htarget] at hmem
        obtain ⟨d, hd⟩ : ∃ d, (initialInDegree spec.nodes spec.edges).get? nodeId = some d := by
          apply Dict.exists_get?_ofList
          rw [List.map_map]
          apply hmem
        rw [hget] at hd
        cases hd
      rw [hempty]
      rfl

theorem kahnInvariant_initial :
  KahnInvariant spec.edges (initialInDegree spec.nodes spec.edges)
    (initialReady spec.nodes spec.edges) []
  := by
  constructor
  · rw [List.nil_append]
    apply (List.perm_insertionSort _ _).nodup_iff.mpr
    apply List.Nodup.filter
    apply spec.nodup_ids
  · apply degree_initialInDegree
  · intro nodeId hmem
    rw [List.nil_append] at hmem
    have hfilter := (List.perm_insertionSort _ _).mem_iff.mp hmem
    simpa using (List.mem_filter.mp hfilter).2

theorem lookupNode_eq_ok {nodes : List WorkflowNode} {nodeId : Text} {node : WorkflowNode}
    (h : lookupNode nodes nodeId = .ok node) :
  node.id = nodeId ∧ node ∈ nodes
  := by
  rw [lookupNode] at h
  split at h
  · rename_i found hfound
    obtain rfl := Except.ok.inj h
    constructor
    · have hbeq := List.find?_some hfound
      simpa using hbeq
    · apply List.mem_of_find?_eq_some hfound
  · cases h

theorem lookupNodes_eq_ok {nodes order : List WorkflowNode} {ids : List Text}
    (h : List.Forall₂ (fun nodeId node => lookupNode nodes nodeId = .ok node) ids order) :
  order.map WorkflowNode.id = ids ∧ ∀ node ∈ order, node ∈ nodes
  := by
  induction h with
  | nil => simp
  | cons hnode _ ih =>
      obtain ⟨hid, hmem⟩ := lookupNode_eq_ok hnode
      constructor
      · rw [List.map_cons, hid, ih.1]
      · intro node hnode
        obtain rfl | hnode := List.mem_cons.mp hnode
        · apply hmem
        · apply ih.2 node hnode

/-- The order holds every node at most once, and only nodes of the workflow. -/
theorem topologicalNodes_nodup {order : List WorkflowNode}
    (h : topologicalNodes spec.nodes spec.edges = .ok order) :
  (order.map WorkflowNode.id).Nodup ∧ ∀ node ∈ order, node ∈ spec.nodes
  := by
  obtain ⟨ids, hids, h⟩ := Outcome.bind_eq_ok.mp h
  split at h
  · obtain ⟨hmap, hmem⟩ := lookupNodes_eq_ok (Outcome.mapM_eq_ok.mp h)
    constructor
    · rw [hmap]
      apply kahnLoop_nodup (kahnInvariant_initial spec) hids
    · apply hmem
  · cases h

/-- In front of every node of the order are the sources of the edges that enter it. -/
theorem topologicalNodes_parentsFirst {order : List WorkflowNode}
    (h : topologicalNodes spec.nodes spec.edges = .ok order) :
  ParentsFirst spec.edges (order.map WorkflowNode.id)
  := by
  obtain ⟨ids, hids, h⟩ := Outcome.bind_eq_ok.mp h
  split at h
  · obtain ⟨hmap, -⟩ := lookupNodes_eq_ok (Outcome.mapM_eq_ok.mp h)
    rw [hmap]
    refine kahnLoop_parentsFirst (kahnInvariant_initial spec) ?_ hids
    intro before nodeId rest hsplit
    cases before <;> cases hsplit
  · cases h

end Accepted

end Workflow

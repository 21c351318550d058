import DataOpsStudio.Library.Templates
import DataOpsStudio.Workflow.Plain
import DataOpsStudio.Workflow.Traversals

/-!
# Workflows in a line

Each node of the workflow but the last is followed by the next one.  The checks of such a workflow
come down to those of the nodes on their own and of the references in their payloads.  In a run the
nodes take turns: there is a job for a node only when the jobs of all nodes before it have
succeeded, so that at most one job of the run has not succeeded.
-/

namespace Workflow

open Text Graph

/-- The edges from each node of a list to the next. -/
def chainEdges (nodes : List WorkflowNode) : List WorkflowEdge :=
  (nodes.zip nodes.tail).map (fun p => { source := p.1.id, target := p.2.id })

section Order

variable {nodes : List WorkflowNode}

theorem mem_chainEdges_iff {edge : WorkflowEdge} :
  edge ∈ chainEdges nodes ↔ ∃ i a b, (nodes.map WorkflowNode.id)[i]? = some a
    ∧ (nodes.map WorkflowNode.id)[i + 1]? = some b
    ∧ edge = { source := a, target := b }
  := by
  rw [chainEdges, List.mem_map]
  constructor
  · rintro ⟨p, hp, rfl⟩
    obtain ⟨i, hi⟩ := List.mem_iff_getElem?.mp hp
    obtain ⟨hfst, hsnd⟩ := List.getElem?_zip_eq_some.mp hi
    rw [List.getElem?_tail] at hsnd
    exact ⟨i, p.1.id, p.2.id, by rw [List.getElem?_map, hfst, Option.map_some],
      by rw [List.getElem?_map, hsnd, Option.map_some], rfl⟩
  · rintro ⟨i, a, b, ha, hb, rfl⟩
    rw [List.getElem?_map, Option.map_eq_some_iff] at ha hb
    obtain ⟨source, hsource, rfl⟩ := ha
    obtain ⟨target, htarget, rfl⟩ := hb
    refine ⟨(source, target), ?_, rfl⟩
    rw [List.mem_iff_getElem?]
    use i
    rw [List.getElem?_zip_eq_some, List.getElem?_tail]
    exact ⟨hsource, htarget⟩

theorem isParent_chainEdges_iff {a b : Text} :
  IsParent (chainEdges nodes) a b ↔ ∃ i, (nodes.map WorkflowNode.id)[i]? = some a
    ∧ (nodes.map WorkflowNode.id)[i + 1]? = some b
  := by
  constructor
  · rintro ⟨edge, hedge, rfl, rfl⟩
    obtain ⟨i, a, b, ha, hb, rfl⟩ := mem_chainEdges_iff.mp hedge
    exact ⟨i, ha, hb⟩
  · rintro ⟨i, ha, hb⟩
    exact ⟨{ source := a, target := b }, mem_chainEdges_iff.mpr ⟨i, a, b, ha, hb, rfl⟩, rfl, rfl⟩

/-- One node comes before another along the edges if it stands before it in the list. -/
theorem isAncestor_chainEdges_iff (hnodup : (nodes.map WorkflowNode.id).Nodup) {a b : Text} :
  IsAncestor (chainEdges nodes) a b ↔ ∃ i j : ℕ, i < j ∧ (nodes.map WorkflowNode.id)[i]? = some a
    ∧ (nodes.map WorkflowNode.id)[j]? = some b
  := by
  constructor
  · intro h
    induction h with
    | single hparent =>
        obtain ⟨i, ha, hb⟩ := isParent_chainEdges_iff.mp hparent
        exact ⟨i, i + 1, Nat.lt_succ_self i, ha, hb⟩
    | tail _ hparent ih =>
        obtain ⟨i, j, hlt, ha, hmiddle⟩ := ih
        obtain ⟨k, hmiddle', hb⟩ := isParent_chainEdges_iff.mp hparent
        have hj : j < (nodes.map WorkflowNode.id).length := (List.getElem?_eq_some_iff.mp hmiddle).1
        obtain rfl := (List.getElem?_inj hj hnodup).mp (hmiddle.trans hmiddle'.symm)
        exact ⟨i, j + 1, Nat.lt_succ_of_lt hlt, ha, hb⟩
  · rintro ⟨i, j, hlt, ha, hb⟩
    induction j generalizing b with
    | zero => exact (Nat.not_lt_zero i hlt).elim
    | succ j ih =>
        have hj : j + 1 < (nodes.map WorkflowNode.id).length := (List.getElem?_eq_some_iff.mp hb).1
        have hmiddle := List.getElem?_eq_getElem (Nat.lt_of_succ_lt hj)
        have hparent := isParent_chainEdges_iff.mpr ⟨j, hmiddle, hb⟩
        obtain hlt | rfl := Nat.lt_succ_iff_lt_or_eq.mp hlt
        · exact Relation.TransGen.tail (ih hlt hmiddle) hparent
        · obtain rfl := Option.some.inj (ha.symm.trans hmiddle)
          exact Relation.TransGen.single hparent

theorem acyclic_chainEdges (hnodup : (nodes.map WorkflowNode.id).Nodup) :
  Acyclic (IsParent (chainEdges nodes))
  := by
  intro a ha
  obtain ⟨i, j, hlt, hi, hj⟩ := (isAncestor_chainEdges_iff hnodup).mp ha
  have hlength := (List.getElem?_eq_some_iff.mp hi).1
  have heq := (List.getElem?_inj hlength hnodup).mp (hi.trans hj.symm)
  exact Nat.ne_of_lt hlt heq

theorem edgesDeclared_chainEdges :
  EdgesDeclared nodes (chainEdges nodes)
  := by
  intro edge hedge
  obtain ⟨i, a, b, ha, hb, rfl⟩ := mem_chainEdges_iff.mp hedge
  exact ⟨List.mem_of_getElem? ha, List.mem_of_getElem? hb⟩

/-- The edges have different sources. -/
theorem nodup_source_chainEdges (hnodup : (nodes.map WorkflowNode.id).Nodup) :
  ((chainEdges nodes).map WorkflowEdge.source).Nodup
  := by
  have hsources : (chainEdges nodes).map WorkflowEdge.source
      = ((nodes.zip nodes.tail).map Prod.fst).map WorkflowNode.id := by
    rw [chainEdges, List.map_map, List.map_map]
    rfl
  rw [hsources]
  have hsublist : ((nodes.zip nodes.tail).map Prod.fst).Sublist nodes := by
    rw [List.zip_eq_zip_take_min, List.map_fst_zip]
    · exact List.take_sublist _ _
    · simp
  exact (hsublist.map WorkflowNode.id).nodup hnodup

end Order

/-! ### The checks -/

/-- A node that may be followed by another without a route or a condition. -/
structure IsLink (node : WorkflowNode) : Prop where
  valid : node.validate = .ok ()
  kind : node.jobKind ≠ .branch
  notify : node.jobKind ≠ .notify
  onFailure : node.onFailure ≠ .branch
  when : node.when = none

section Checks

variable {rt : WhenRuntime} {nodes : List WorkflowNode} {edges : List WorkflowEdge}

theorem plain_chainEdges (hlinks : ∀ node ∈ nodes, IsLink node) :
  Plain nodes (chainEdges nodes)
  := by
  refine ⟨fun node hnode => (hlinks node hnode).kind,
    fun node hnode => (hlinks node hnode).onFailure,
    ?_⟩
  intro edge hedge
  obtain ⟨_, _, _, _, _, rfl⟩ := mem_chainEdges_iff.mp hedge
  rfl

theorem validateNodeIds_eq_ok {seen : List Text} (hnodup : (nodes.map WorkflowNode.id).Nodup)
    (hnew : ∀ node ∈ nodes, node.id ∉ seen) :
  validateNodeIds rt seen nodes = .ok ()
  := by
  induction nodes generalizing seen with
  | nil => rfl
  | cons node rest ih =>
      obtain ⟨hnotin, hrest⟩ := List.nodup_cons.mp hnodup
      rw [List.forall_mem_cons] at hnew
      rw [validateNodeIds, Outcome.bind_eq_ok]
      refine ⟨(), require_eq_ok.mpr (by simpa using hnew.1), ih hrest ?_⟩
      intro other hother hseen
      obtain heq | hseen := List.mem_cons.mp hseen
      · apply hnotin
        rw [← heq]
        exact List.mem_map_of_mem hother
      · exact hnew.2 other hother hseen

theorem validateEdgeKeys_eq_ok {nodeIds : List Text} {seen : List (Text × Text × Trigger)}
    (hmem : ∀ edge ∈ edges, edge.source ∈ nodeIds ∧ edge.target ∈ nodeIds)
    (hloop : ∀ edge ∈ edges, edge.source ≠ edge.target)
    (hnodup : (edges.map WorkflowEdge.key).Nodup) (hnew : ∀ edge ∈ edges, edge.key ∉ seen) :
  validateEdgeKeys rt nodeIds seen edges = .ok ()
  := by
  induction edges generalizing seen with
  | nil => rfl
  | cons edge rest ih =>
      obtain ⟨hnotin, hrest⟩ := List.nodup_cons.mp hnodup
      rw [List.forall_mem_cons] at hmem hloop hnew
      simp only [validateEdgeKeys, Outcome.bind_eq_ok, require_eq_ok]
      refine ⟨(), by simpa using hmem.1.1, (), by simpa using hmem.1.2, (),
        by simpa using hloop.1, (), by simpa using hnew.1, ih hmem.2 hloop.2 hrest ?_⟩
      intro other hother hseen
      obtain heq | hseen := List.mem_cons.mp hseen
      · apply hnotin
        rw [← heq]
        exact List.mem_map_of_mem hother
      · exact hnew.2 other hother hseen

theorem validateEdgeKeys_chainEdges (hnodup : (nodes.map WorkflowNode.id).Nodup) :
  validateEdgeKeys rt (nodes.map WorkflowNode.id) [] (chainEdges nodes) = .ok ()
  := by
  apply validateEdgeKeys_eq_ok edgesDeclared_chainEdges
  · intro edge hedge hloop
    apply acyclic_chainEdges hnodup edge.source
    exact Relation.TransGen.single ⟨edge, hedge, rfl, hloop.symm⟩
  · apply List.Nodup.of_map Prod.fst
    rw [List.map_map]
    exact nodup_source_chainEdges hnodup
  · intro edge _ hseen
    cases hseen

theorem findCycle_chainEdges (hnodup : (nodes.map WorkflowNode.id).Nodup) :
  findCycle nodes (chainEdges nodes) = .ok none
  := by
  obtain ⟨answer, hfind, hanswer⟩ := findCycle_spec (@edgesDeclared_chainEdges nodes)
  obtain ⟨rfl, -⟩ | ⟨cycle, -, hcycle⟩ := hanswer
  · exact hfind
  · exact absurd (acyclic_chainEdges hnodup) hcycle.not_acyclic

theorem validateNodeRoutes_chainEdges {node : WorkflowNode} (hlink : IsLink node) :
  validateNodeRoutes rt node (outgoingEdges (chainEdges nodes) node.id) = .ok ()
  := by
  have hplain : ∀ edge ∈ outgoingEdges (chainEdges nodes) node.id,
      edge.trigger = .success ∧ edge.when = none ∧ edge.isDefault = false := by
    intro edge hedge
    obtain ⟨_, _, _, _, _, rfl⟩ := mem_chainEdges_iff.mp (List.mem_filter.mp hedge).1
    exact ⟨rfl, rfl, rfl⟩
  rw [validateNodeRoutes, Outcome.bind_eq_ok]
  refine ⟨(), ?_, ?_⟩
  · rw [validateSuccessRoutes, if_neg hlink.kind, require_eq_ok, List.all_eq_true]
    intro edge hedge
    obtain ⟨-, hwhen, hdefault⟩ := hplain edge (List.mem_filter.mp hedge).1
    rw [hwhen, hdefault]
    rfl
  · rw [validateFailureRoutes, if_neg hlink.onFailure, require_eq_ok, List.isEmpty_iff,
      List.filter_eq_nil_iff]
    intro edge hedge
    rw [(hplain edge hedge).1]
    simp

/-- The checks of nodes in a line come down to those of the references in their payloads. -/
theorem validateSpec_chainEdges (hne : nodes ≠ []) (hlength : nodes.length ≤ maxWorkflowNodes)
    (hnodup : (nodes.map WorkflowNode.id).Nodup) (hlinks : ∀ node ∈ nodes, IsLink node)
    {ancestors : AncestorCache}
    (hancestors : workflowAncestors nodes (chainEdges nodes) = .ok ancestors) :
  validateSpec rt nodes (chainEdges nodes) [] Dict.empty = .ok () ↔
    ∀ node ∈ nodes, validateOutputReferences nodes ((ancestors.get? node.id).getD [])
      (.dict node.payload.items) = .ok ()
  := by
  have hwhen : ∀ allowedNodes, validateOutputReferences nodes allowedNodes (whenObject none)
      = .ok () := fun _ => rfl
  have hedges : ∀ edge ∈ chainEdges nodes, edge.validate = .ok ()
      ∧ validateOutputReferences nodes ((ancestors.get? edge.source).getD [] ++ [edge.source])
        (whenObject edge.when) = .ok () := by
    intro edge hedge
    obtain ⟨_, _, _, _, _, rfl⟩ := mem_chainEdges_iff.mp hedge
    exact ⟨rfl, hwhen _⟩
  have hnotify : ∀ node ∈ nodes, validateNotifyNode rt [] node = .ok () := by
    intro node hnode
    rw [validateNotifyNode, if_neg (hlinks node hnode).notify]
  have hvars : validateWorkflowVariables Dict.empty = .ok Dict.empty := rfl
  simp only [validateSpec, validateDag, Outcome.bind_eq_ok, require_eq_ok, forM_eq_ok, hvars]
  constructor
  · rintro ⟨_, -, _, -, _, -, _, -, _, -, _, -, _, -, cycle, hcycle, h⟩
    obtain rfl := Except.ok.inj ((findCycle_chainEdges hnodup).symm.trans hcycle)
    obtain ⟨found, hfound, h⟩ := Outcome.bind_eq_ok.mp h
    obtain rfl := Except.ok.inj (hancestors.symm.trans hfound)
    obtain ⟨_, h, -⟩ := Outcome.bind_eq_ok.mp h
    intro node hnode
    obtain ⟨_, hpayload, -⟩ := Outcome.bind_eq_ok.mp (forM_eq_ok.mp h node hnode)
    exact hpayload
  · intro h
    refine ⟨(), by simpa using hne, (), by simpa using hlength, (),
      fun node hnode => (hlinks node hnode).valid, (), fun edge hedge => (hedges edge hedge).1,
      _, rfl, (), validateNodeIds_eq_ok hnodup (fun _ _ => List.not_mem_nil), (),
      validateEdgeKeys_chainEdges hnodup, none, findCycle_chainEdges hnodup, ?_⟩
    simp only [Outcome.bind_eq_ok, forM_eq_ok]
    refine ⟨ancestors, hancestors, (), ?_, (), fun edge hedge => (hedges edge hedge).2, (),
      fun node hnode => validateNodeRoutes_chainEdges (hlinks node hnode), (), rfl, hnotify⟩
    intro node hnode
    rw [(hlinks node hnode).when]
    exact ⟨(), h node hnode, hwhen _⟩

/-! ### References -/

/-- An expression that refers to no output passes the check. -/
theorem validateOutputReference_of_not_mark {allowedNodes : List Text} {e : Text}
    (h : nodesMark.isPrefixOf e = false) :
  validateOutputReference nodes allowedNodes e = .ok ()
  := by
  rw [validateOutputReference, h]
  rfl

/-- Where no node comes before, no reference to an output passes the check. -/
theorem validateOutputReferences_nil_iff {value : PyObject} :
  validateOutputReferences nodes [] value = .ok () ↔
    ∀ e ∈ iterPlaceholderExpressions value, nodesMark.isPrefixOf e = false
  := by
  rw [validateOutputReferences, forM_eq_ok]
  constructor
  · intro h e he
    by_contra hmark
    rw [Bool.not_eq_false] at hmark
    have hchecked := h e he
    rw [validateOutputReference, hmark] at hchecked
    simp only [Bool.not_true, Bool.false_eq_true, if_false] at hchecked
    split at hchecked
    case h_1 => cases hchecked
    case h_2 =>
      split at hchecked
      case h_1 => cases hchecked
      case h_2 =>
        obtain ⟨_, -, hchecked⟩ := Outcome.bind_eq_ok.mp hchecked
        cases hchecked
  · intro h e he
    exact validateOutputReference_of_not_mark (h e he)

/-- No node of a line comes before the first one. -/
theorem ancestors_head_chainEdges {first : WorkflowNode} {rest : List WorkflowNode}
    (hnodup : ((first :: rest).map WorkflowNode.id).Nodup) (upstream : Text) :
  ¬ IsAncestor (chainEdges (first :: rest)) upstream first.id
  := by
  intro h
  obtain ⟨i, j, hlt, -, hj⟩ := (isAncestor_chainEdges_iff hnodup).mp h
  have hlength : 0 < ((first :: rest).map WorkflowNode.id).length := Nat.succ_pos _
  have hfirst : ((first :: rest).map WorkflowNode.id)[0]? = some first.id := rfl
  have hzero := (List.getElem?_inj hlength hnodup).mp (hfirst.trans hj.symm)
  omega

/-- If the payloads of nodes in a line all have the same references, the workflow is accepted
exactly if there are none. -/
theorem accepted_chainEdges_iff (hne : nodes ≠ []) (hlength : nodes.length ≤ maxWorkflowNodes)
    (hnodup : (nodes.map WorkflowNode.id).Nodup) (hlinks : ∀ node ∈ nodes, IsLink node)
    (hsame : ∀ node ∈ nodes, ∀ other ∈ nodes, ∀ e ∈ itemsExpressions node.payload.items,
      nodesMark.isPrefixOf e = true → e ∈ itemsExpressions other.payload.items) :
  validateSpec rt nodes (chainEdges nodes) [] Dict.empty = .ok () ↔
    ∀ node ∈ nodes, ∀ e ∈ itemsExpressions node.payload.items, nodesMark.isPrefixOf e = false
  := by
  obtain ⟨ancestors, hancestors, hexact⟩ :=
    workflowAncestors_exact edgesDeclared_chainEdges (acyclic_chainEdges hnodup)
  rw [validateSpec_chainEdges hne hlength hnodup hlinks hancestors]
  constructor
  · intro h
    obtain ⟨first, rest, rfl⟩ := List.exists_cons_of_ne_nil hne
    have hfirst := h first List.mem_cons_self
    obtain ⟨found, hfound, hmem⟩ := hexact first List.mem_cons_self
    obtain rfl : found = [] := by
      rw [List.eq_nil_iff_forall_not_mem]
      intro upstream hupstream
      exact ancestors_head_chainEdges hnodup upstream ((hmem upstream).mp hupstream)
    rw [hfound, Option.getD_some, validateOutputReferences_nil_iff] at hfirst
    intro node hnode e he
    by_contra hmark
    rw [Bool.not_eq_false] at hmark
    have hin := hsame node hnode first List.mem_cons_self e he hmark
    rw [hfirst e hin] at hmark
    cases hmark
  · intro h node hnode
    rw [validateOutputReferences, forM_eq_ok]
    intro e he
    exact validateOutputReference_of_not_mark (h node hnode e he)

end Checks

/-! ### Payloads without placeholders -/

section Rendering

variable {vars : Variables} {outputs : NodeOutputMap}

theorem interpolateStr_of_placeholders_eq_nil {s : Text} (h : placeholders s = []) :
  interpolateStr s vars outputs = .ok (.str s)
  := by
  have hexact : exactPlaceholder? s = none := by
    rw [exactPlaceholder?, pieces_of_placeholders_eq_nil h]
    split
    case h_1 expression hpieces =>
      obtain ⟨c, -, hc⟩ := List.mem_map.mp (hpieces ▸ List.mem_cons_self)
      cases hc
    case h_2 => rfl
  rw [interpolateStr, hexact, substitute_of_placeholders_eq_nil _ h]
  rfl

/-- An object without placeholders is rendered to itself. -/
theorem interpolateValue_of_expressions_eq_nil (value : PyObject) :
  iterPlaceholderExpressions value = [] → interpolateValue vars outputs value = .ok value
  := by
  apply @PyObject.rec
    (fun value => iterPlaceholderExpressions value = [] →
      interpolateValue vars outputs value = .ok value)
    (fun elements => elementsExpressions elements = [] →
      interpolateElements vars outputs elements = .ok elements)
    (fun items => itemsExpressions items = [] →
      interpolateItems vars outputs items = .ok items)
    (fun item => iterPlaceholderExpressions item.2 = [] →
      interpolateValue vars outputs item.2 = .ok item.2)
  · intro _
    rfl
  · intro b _
    rfl
  · intro n _
    rfl
  · intro text finite _
    rfl
  · intro s h
    rw [iterPlaceholderExpressions, List.map_eq_nil_iff] at h
    exact interpolateStr_of_placeholders_eq_nil h
  · intro elements ih h
    rw [iterPlaceholderExpressions] at h
    rw [interpolateValue, ih h]
    rfl
  · intro items ih h
    rw [iterPlaceholderExpressions] at h
    rw [interpolateValue, ih h]
    rfl
  · intro _
    rfl
  · intro element rest ih ihrest h
    rw [elementsExpressions, List.append_eq_nil_iff] at h
    rw [interpolateElements, ih h.1, ihrest h.2]
    rfl
  · intro _
    rfl
  · intro item rest ih ihrest h
    rw [itemsExpressions, List.append_eq_nil_iff] at h
    rw [interpolateItems, ih h.1, ihrest h.2]
    rfl
  · intro key value ih
    exact ih

/-- A payload without placeholders is rendered to itself. -/
theorem interpolatePayload_of_expressions_eq_nil {payload : Dict Text PyObject}
    (h : itemsExpressions payload.items = []) :
  interpolatePayload payload vars outputs = .ok payload
  := by
  have hvalue := @interpolateValue_of_expressions_eq_nil vars outputs (.dict payload.items)
    (by rw [iterPlaceholderExpressions, h])
  obtain ⟨items, hitems, heq⟩ := Outcome.map_eq_ok.mp hvalue
  obtain rfl := PyObject.dict.inj heq
  rw [interpolatePayload, hitems]
  exact congrArg Except.ok (Dict.ofList_items payload)

end Rendering

/-! ### Runs -/

section Runs

variable {rt : WhenRuntime} {spec : WorkflowSpec rt} {vars : Variables} {defaultMaxRetries : ℕ}
  {s : RunState}

theorem readsUpstream_chain (hedges : spec.edges = chainEdges spec.nodes)
    (hlinks : ∀ node ∈ spec.nodes, IsLink node) :
  ReadsUpstream rt spec.nodes spec.edges
  := by
  refine ⟨?_, fun node hnode read hread => spec.payload_reads_ancestors hnode hread, ?_⟩
  · intro node hnode read hread
    rw [(hlinks node hnode).when] at hread
    cases hread
  · intro edge hedge read hread
    rw [hedges] at hedge
    obtain ⟨_, _, _, _, _, rfl⟩ := mem_chainEdges_iff.mp hedge
    cases hread

/-- The jobs of nodes in a line take turns. -/
structure TakeTurns (nodeIds : List Text) (rows : List JobRow) : Prop where
  nodup : (rows.map JobRow.nodeId).Nodup
  before : ∀ row ∈ rows, ∃ i : ℕ, nodeIds[i]? = some row.nodeId ∧ ∀ j < i, ∀ nodeId,
    nodeIds[j]? = some nodeId → ∃ other ∈ rows, other.nodeId = nodeId ∧ other.status = .success

/-- All jobs but one have succeeded. -/
theorem TakeTurns.unique {nodeIds : List Text} {rows : List JobRow} (h : TakeTurns nodeIds rows)
    {row other : JobRow} (hrow : row ∈ rows) (hother : other ∈ rows)
    (hrowStatus : row.status ≠ .success) (hotherStatus : other.status ≠ .success) :
  row = other
  := by
  have hlast : ∀ {row : JobRow} {i j : ℕ}, row ∈ rows → row.status ≠ .success →
      nodeIds[i]? = some row.nodeId → (∀ k < j, ∀ nodeId, nodeIds[k]? = some nodeId →
        ∃ found ∈ rows, found.nodeId = nodeId ∧ found.status = .success) → ¬ i < j := by
    intro row i j hrow hstatus hi hbefore hlt
    obtain ⟨found, hfound, hnode, hsuccess⟩ := hbefore i hlt row.nodeId hi
    obtain rfl := List.inj_on_of_nodup_map h.nodup hfound hrow hnode
    exact hstatus hsuccess
  obtain ⟨i, hi, hbeforeRow⟩ := h.before row hrow
  obtain ⟨j, hj, hbeforeOther⟩ := h.before other hother
  obtain hij | rfl | hji := Nat.lt_trichotomy i j
  · exact absurd hij (hlast hrow hrowStatus hi hbeforeOther)
  · obtain hnode := Option.some.inj (hi.symm.trans hj)
    exact List.inj_on_of_nodup_map h.nodup hrow hother hnode
  · exact absurd hji (hlast hother hotherStatus hj hbeforeRow)

theorem takeTurns_of_reachable (hedges : spec.edges = chainEdges spec.nodes)
    (hlinks : ∀ node ∈ spec.nodes, IsLink node)
    (h : (runSystem spec vars defaultMaxRetries).Reachable s) :
  TakeTurns (spec.nodes.map WorkflowNode.id) s.rows
  := by
  have hinv := runInvariant_of_reachable (readsUpstream_chain hedges hlinks) h
  have hplain : Plain spec.nodes spec.edges := by
    rw [hedges]
    exact plain_chainEdges hlinks
  refine ⟨hinv.wellKept.nodes_nodup, ?_⟩
  intro row hrow
  obtain ⟨node, hnode, _, _, _, -, hid, -⟩ := isBuilt_of_reachable h row hrow
  have hmem : row.nodeId ∈ spec.nodes.map WorkflowNode.id := by
    rw [hid]
    exact List.mem_map_of_mem hnode
  obtain ⟨i, hi⟩ := List.mem_iff_getElem?.mp hmem
  refine ⟨i, hi, ?_⟩
  intro j hlt nodeId hj
  apply (parentsSucceeded_of_reachable hplain h).ancestor hrow
  rw [hedges, isAncestor_chainEdges_iff spec.nodup_ids]
  exact ⟨j, i, hlt, hj, hi⟩

end Runs

end Workflow

import DataOpsStudio.Workflow.Locality

/-!
# What an accepted workflow refers to

The checks of a workflow look at the placeholders of payloads and conditions as they are written.
In an accepted workflow they refer to outputs of ancestors only; the condition of an edge may also
refer to the source of the edge.  A payload is rendered as it is written.  A condition is evaluated
after its syntactic sugar has been rewritten, inside placeholders, too, and what it refers to then
has not been checked.
-/

namespace Workflow

open Text

/-! ### Ancestors -/

section Ancestors

variable {edges : List WorkflowEdge}

/-- Every node of a cached list is an ancestor. -/
def AncestorCache.Sound (edges : List WorkflowEdge) (cache : AncestorCache) : Prop :=
  ∀ nodeId found, cache.get? nodeId = some found → ∀ upstream ∈ found,
    IsAncestor edges upstream nodeId

theorem isParent_of_mem_parents {parent nodeId : Text} (h : parent ∈ parents edges nodeId) :
  IsParent edges parent nodeId
  := by
  obtain ⟨edge, hedge, rfl⟩ := List.mem_map.mp h
  obtain ⟨hmem, htarget⟩ := List.mem_filter.mp hedge
  exact ⟨edge, hmem, rfl, eq_of_beq htarget⟩

/-- The search for ancestors finds ancestors. -/
theorem collect_sound {fuel : ℕ} {nodeId : Text} {cache cache' : AncestorCache}
    {found : List Text} (hcache : cache.Sound edges)
    (h : collect edges fuel nodeId cache = .ok (found, cache')) :
  (∀ upstream ∈ found, IsAncestor edges upstream nodeId) ∧ cache'.Sound edges
  := by
  induction fuel generalizing nodeId cache cache' found with
  | zero => cases h
  | succ fuel ih =>
      rw [collect] at h
      split at h
      case h_1 known hknown =>
          obtain ⟨rfl, rfl⟩ := Prod.mk.inj (Except.ok.inj h)
          exact ⟨hcache nodeId known hknown, hcache⟩
      case h_2 =>
          obtain ⟨⟨all, filled⟩, hfold, h⟩ := Outcome.bind_eq_ok.mp h
          obtain ⟨rfl, rfl⟩ := Prod.mk.inj (Outcome.pure_eq_ok.mp h)
          obtain ⟨hall, hfilled⟩ := Outcome.foldlM_invariant
            (fun acc : List Text × AncestorCache =>
              (∀ upstream ∈ acc.1, IsAncestor edges upstream nodeId) ∧ acc.2.Sound edges)
            ⟨by nofun, hcache⟩
            (by
              rintro ⟨before, known⟩ parent after hparent ⟨hbefore, hknown⟩ hstep
              obtain ⟨⟨upstream, kept⟩, hcollect, hstep⟩ := Outcome.bind_eq_ok.mp hstep
              obtain rfl := Outcome.pure_eq_ok.mp hstep
              obtain ⟨hupstream, hkept⟩ := ih hknown hcollect
              have hedge := isParent_of_mem_parents hparent
              refine ⟨?_, hkept⟩
              intro node hnode
              obtain hnode | hnode := List.mem_append.mp hnode
              · exact hbefore node hnode
              · obtain rfl | hnode := List.mem_cons.mp hnode
                · exact .single hedge
                · exact (hupstream node hnode).tail hedge)
            hfold
          refine ⟨hall, ?_⟩
          intro other known hknown
          rw [Dict.get?_set] at hknown
          split at hknown
          case isTrue heq =>
              obtain rfl := Option.some.inj hknown
              obtain rfl := eq_of_beq heq
              exact hall
          case isFalse => exact hfilled other known hknown

theorem workflowAncestors_sound {nodes : List WorkflowNode} {cache : AncestorCache}
    (h : workflowAncestors nodes edges = .ok cache) :
  cache.Sound edges
  := by
  refine Outcome.foldlM_invariant (fun cache : AncestorCache => cache.Sound edges) ?_ ?_ h
  · intro nodeId found hfound
    cases (Dict.get?_empty nodeId).symm.trans hfound
  · intro cache node cache' _ hcache hstep
    obtain ⟨⟨found, filled⟩, hcollect, hstep⟩ := Outcome.bind_eq_ok.mp hstep
    obtain rfl := Outcome.pure_eq_ok.mp hstep
    exact (collect_sound hcache hcollect).2

end Ancestors

/-! ### Checked references -/

/-- A reference that passes the check names an allowed node. -/
theorem mem_of_validateOutputReference {nodes : List WorkflowNode} {allowedNodes : List Text}
    {expression nodeId : Text}
    (h : validateOutputReference nodes allowedNodes expression = .ok ())
    (hstrip : strip expression = expression) (hread : referencedNode expression = some nodeId) :
  nodeId ∈ allowedNodes
  := by
  obtain ⟨⟨named, field⟩, hparse, rfl⟩ := Option.map_eq_some_iff.mp hread
  have hmark : nodesMark.isPrefixOf expression = true := by
    rw [parseNodeOutputReference, hstrip] at hparse
    split at hparse
    case isTrue hmark => exact hmark
    case isFalse => cases hparse
  rw [validateOutputReference, hmark, hparse] at h
  dsimp only at h
  rw [if_neg (by simp)] at h
  split at h
  case h_1 => cases h
  case h_2 =>
      obtain ⟨_, -, h⟩ := Outcome.bind_eq_ok.mp h
      exact List.contains_iff_mem.mp (require_eq_ok.mp h)

mutual

/-- The expressions of an object are stripped. -/
theorem strip_of_mem_expressions (value : PyObject) {e : Text}
    (he : e ∈ iterPlaceholderExpressions value) :
  strip e = e
  := by
  match value with
  | .str s =>
      rw [iterPlaceholderExpressions] at he
      obtain ⟨raw, -, rfl⟩ := List.mem_map.mp he
      exact strip_strip raw
  | .list elements =>
      rw [iterPlaceholderExpressions] at he
      exact strip_of_mem_elements elements he
  | .dict items =>
      rw [iterPlaceholderExpressions] at he
      exact strip_of_mem_items items he

theorem strip_of_mem_elements (elements : List PyObject) {e : Text}
    (he : e ∈ elementsExpressions elements) :
  strip e = e
  := by
  match elements with
  | element :: rest =>
      rw [elementsExpressions, List.mem_append] at he
      obtain he | he := he
      · exact strip_of_mem_expressions element he
      · exact strip_of_mem_elements rest he

theorem strip_of_mem_items (items : List (Text × PyObject)) {e : Text}
    (he : e ∈ itemsExpressions items) :
  strip e = e
  := by
  match items with
  | (key, value) :: rest =>
      rw [itemsExpressions, List.mem_append] at he
      obtain he | he := he
      · exact strip_of_mem_expressions value he
      · exact strip_of_mem_items rest he

end

/-- What the references of an object name is allowed, when they pass the check. -/
theorem mem_of_validateOutputReferences {nodes : List WorkflowNode} {allowedNodes : List Text}
    {value : PyObject} (h : validateOutputReferences nodes allowedNodes value = .ok ())
    {e nodeId : Text} (he : e ∈ iterPlaceholderExpressions value)
    (hread : referencedNode e = some nodeId) :
  nodeId ∈ allowedNodes
  := by
  have hchecked := forM_eq_ok.mp h e he
  exact mem_of_validateOutputReference hchecked (strip_of_mem_expressions value he) hread

namespace WorkflowSpec

variable {rt : WhenRuntime} (spec : WorkflowSpec rt)

/-- The checks of the references of an accepted workflow have passed. -/
theorem references_checked :
  ∃ ancestors : AncestorCache, ancestors.Sound spec.edges ∧ ∀ node ∈ spec.nodes,
    validateOutputReferences spec.nodes ((ancestors.get? node.id).getD [])
      (.dict node.payload.items) = .ok ()
  := by
  obtain ⟨_, -, h⟩ := Outcome.bind_eq_ok.mp spec.accepted
  obtain ⟨_, -, h⟩ := Outcome.bind_eq_ok.mp h
  obtain ⟨_, -, h⟩ := Outcome.bind_eq_ok.mp h
  obtain ⟨_, -, h⟩ := Outcome.bind_eq_ok.mp h
  obtain ⟨_, -, h⟩ := Outcome.bind_eq_ok.mp h
  obtain ⟨_, -, h⟩ := Outcome.bind_eq_ok.mp h
  obtain ⟨_, -, h⟩ := Outcome.bind_eq_ok.mp h
  obtain ⟨cycle, -, h⟩ := Outcome.bind_eq_ok.mp h
  obtain _ | cycle := cycle
  · obtain ⟨ancestors, hancestors, h⟩ := Outcome.bind_eq_ok.mp h
    obtain ⟨_, hnodes, -⟩ := Outcome.bind_eq_ok.mp h
    refine ⟨ancestors, workflowAncestors_sound hancestors, ?_⟩
    intro node hnode
    obtain ⟨_, hpayload, -⟩ := Outcome.bind_eq_ok.mp (forM_eq_ok.mp hnodes node hnode)
    exact hpayload
  · cases h

/-- The payload of a node reads outputs of its ancestors only. -/
theorem payload_reads_ancestors {node : WorkflowNode} (hnode : node ∈ spec.nodes) {read : Text}
    (hread : read ∈ payloadReferences node.payload) :
  IsAncestor spec.edges read node.id
  := by
  obtain ⟨ancestors, hsound, hchecked⟩ := spec.references_checked
  obtain ⟨e, he, href⟩ := List.mem_filterMap.mp hread
  have hmem : e ∈ iterPlaceholderExpressions (.dict node.payload.items) := by
    rw [iterPlaceholderExpressions]
    exact he
  have hallowed := mem_of_validateOutputReferences (hchecked node hnode) hmem href
  cases hfound : ancestors.get? node.id with
  | none =>
      rw [hfound] at hallowed
      cases hallowed
  | some found =>
      rw [hfound] at hallowed
      exact hsound node.id found hfound read hallowed

/-- Conditions still read upstream when their sugar has been rewritten: that of a node reads
outputs of ancestors, and that of an edge also those of its source. -/
structure ConditionsReadUpstream : Prop where
  node_when : ∀ node ∈ spec.nodes, ∀ read ∈ whenReferences rt node.when,
    IsAncestor spec.edges read node.id
  edge_when : ∀ edge ∈ spec.edges, ∀ read ∈ whenReferences rt edge.when,
    read = edge.source ∨ IsAncestor spec.edges read edge.source

variable {spec} in
theorem ConditionsReadUpstream.readsUpstream (h : spec.ConditionsReadUpstream) :
  ReadsUpstream rt spec.nodes spec.edges
  := ⟨h.node_when, fun _ hnode _ hread => spec.payload_reads_ancestors hnode hread, h.edge_when⟩

end WorkflowSpec

end Workflow

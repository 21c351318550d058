import DataOpsStudio.Lineage.Trace
import DataOpsStudio.Readers.Columns
import DataOpsStudio.Workflow.Chain
import DataOpsStudio.Workflow.Names

/-!
# Comparing along a trace

The columns that a column is traced back to are compared between two environments one after the
other, by a workflow with one comparison for each.  The workflow can be built exactly if there are
keys and not too many columns, all names are safe, and the other texts of the request refer to no
output.  In a run a column is compared only when the comparisons of all columns before it have
succeeded, and each comparison is the one that was asked for.
-/

namespace Lineage

open Text Workflow

/-! ### Names -/

/-- The most comparisons of a workflow. -/
def traceCompareMaxHops : ℤ := 20

/-- How long a comparison may take. -/
def defaultNodeTimeoutSeconds : ℕ := 1800

/-- Whether a text may stand for a table or a column. -/
def isSafeName : Text → Bool
  | [] => false
  | c :: s => (c.isAlpha || c == '_') && s.all (fun d => d.isAlphanum || ['_', '.', '$'].contains d)

def validateIdentifier (rt : WhenRuntime) (kind value : Text) : Except Text Unit :=
  require (isSafeName value) ("unsafe_".toList ++ kind ++ ": ".toList ++ rt.shown value)

/-- The schema and the table of a qualified name, unless the schema is given. -/
def splitQualifiedTable (table : Text) (schemaName : Option Text) : Option Text × Text :=
  match schemaName with
  | some schema => (some schema, table)
  | none =>
      match rpartition '.' table with
      | some (left, right) => (some left, right)
      | none => (none, table)

/-- The names without repetitions, each where it comes first. -/
def firstOccurrences (names : List Text) : List Text :=
  names.foldl
    (fun ordered name => if ordered.contains name then ordered else ordered ++ [name]) []

/-! ### The workflow -/

/-- What is to be compared along a trace. -/
structure TraceCompareRequest where
  sourceId : Text
  targetId : Text
  keyColumns : List Text
  schemaName : Option Text := none
  maxHops : ℤ := 10

namespace TraceCompareRequest

variable (request : TraceCompareRequest)

/-- The table of a datasource. -/
def compareRef (schema : Option Text) (table : Text) : Dict Text PyObject :=
  let ref := Dict.ofList [("kind".toList, .str "table".toList), ("table_name".toList, .str table)]
  match schema with
  | some (c :: name) => ref.set "schema_name".toList (.str (c :: name))
  | _ => ref

/-- A column of a comparison, of which only the name is known. -/
def columnObject (name : Text) : PyObject :=
  .dict
    [("name".toList, .str name), ("type".toList, .str "unknown".toList),
      ("driver_type".toList, .none), ("nullable".toList, .bool true),
      ("primary_key".toList, .bool (request.keyColumns.contains name)),
      ("comment".toList, .none)]

/-- The columns of a comparison: the keys and the traced column. -/
def nodeColumns (column : Text) : List PyObject :=
  (firstOccurrences (request.keyColumns ++ [column])).map request.columnObject

/-- The payload of the comparison of a column. -/
def payload (hop : TraceChainNode) : Dict Text PyObject :=
  let (schema, table) := splitQualifiedTable hop.table request.schemaName
  Dict.ofList
    [("source_id".toList, .str request.sourceId), ("target_id".toList, .str request.targetId),
      ("source_ref".toList, .dict (compareRef schema table).items),
      ("target_ref".toList, .dict (compareRef schema table).items),
      ("columns".toList, .list (request.nodeColumns hop.column)),
      ("compare_rules".toList,
        .dict [("key_columns".toList, .list (request.keyColumns.map PyObject.str))]),
      ("run_limits".toList, .dict [])]

end TraceCompareRequest

/-- The comparison of a column. -/
structure TraceCompareNode where
  nodeId : Text
  depth : ℤ
  table : Text
  column : Text
  keyColumns : List Text
  payload : Dict Text PyObject

def hopId (i : ℕ) : Text := "hop".toList ++ natText i

section Build

variable (rt : WhenRuntime)

def buildTraceCompareNode (request : TraceCompareRequest) (hop : TraceChainNode × ℕ) :
    Except Text TraceCompareNode := do
  validateIdentifier rt "table".toList hop.1.table
  validateIdentifier rt "column".toList hop.1.column
  return {
    nodeId := hopId hop.2
    depth := hop.1.depth
    table := hop.1.table
    column := hop.1.column
    keyColumns := request.keyColumns
    payload := request.payload hop.1 }

def buildTraceCompareNodes (request : TraceCompareRequest) (chain : List TraceChainNode) :
    Except Text (List TraceCompareNode) := do
  require (!request.keyColumns.isEmpty)
    "key_columns_required: 逐跳对比需至少一个 join 主键列".toList
  require (!chain.isEmpty) "no_upstream_lineage: 焦点字段无上游血缘,无可对比的跳".toList
  let cap := max 1 (min request.maxHops traceCompareMaxHops)
  require (decide ((chain.length : ℤ) ≤ cap))
    ("too_many_hops: 链长 ".toList ++ natText chain.length ++ " 超过上限 ".toList ++ intText cap
      ++ "(缩小 max_hops 或收窄追溯深度)".toList)
  request.keyColumns.forM (validateIdentifier rt "key_column".toList)
  chain.zipIdx.mapM (buildTraceCompareNode rt request)

/-- The node of a workflow that makes a comparison. -/
def TraceCompareNode.workflowNode (timeoutSeconds : ℕ) (node : TraceCompareNode) :
    WorkflowNode where
  id := node.nodeId
  jobKind := .compareRun
  payload := node.payload
  timeoutSeconds := timeoutSeconds

def buildTraceCompareSpec (nodes : List TraceCompareNode) (timeoutSeconds : ℕ) :
    Except Text (WorkflowSpec rt) :=
  if nodes.isEmpty then .error "no_upstream_lineage: 无节点可组装 workflow".toList
  else
    let workflowNodes := nodes.map (TraceCompareNode.workflowNode timeoutSeconds)
    match h : validateSpec rt workflowNodes (chainEdges workflowNodes) [] Dict.empty with
    | .error message => .error message
    | .ok () => .ok { nodes := workflowNodes, edges := chainEdges workflowNodes, accepted := h }

/-- The workflow that compares along a chain. -/
def traceCompareWorkflow (request : TraceCompareRequest) (chain : List TraceChainNode) :
    Except Text (WorkflowSpec rt) := do
  let nodes ← buildTraceCompareNodes rt request chain
  buildTraceCompareSpec rt nodes defaultNodeTimeoutSeconds

end Build

/-! ### What the comparisons refer to -/

/-- The texts of a request that are not checked. -/
def TraceCompareRequest.freeTexts (request : TraceCompareRequest) : List Text :=
  [request.sourceId, request.targetId] ++ request.schemaName.toList

theorem placeholders_of_not_mem {s : Text} (h : '{' ∉ s) :
  placeholders s = []
  := by
  rw [placeholders_eq_nil_iff]
  intro t ht
  exact absurd (ht.subset (List.mem_cons_of_mem _ List.mem_cons_self)) h

theorem not_mem_of_isSafeName {s : Text} (h : isSafeName s = true) :
  '{' ∉ s
  := by
  intro hmem
  cases s with
  | nil => cases hmem
  | cons c s =>
      rw [isSafeName, Bool.and_eq_true, List.all_eq_true] at h
      obtain rfl | hmem := List.mem_cons.mp hmem
      · exact absurd h.1 (by decide)
      · exact absurd (h.2 _ hmem) (by decide)

theorem rpartition_eq_some {c : Char} {s left right : Text}
    (h : rpartition c s = some (left, right)) :
  s = left ++ c :: right
  := by
  rw [rpartition] at h
  split at h
  case h_1 => cases h
  case h_2 after d before hspan =>
    obtain ⟨rfl, rfl⟩ := Prod.mk.inj (Option.some.inj h)
    rw [List.span_eq_takeWhile_dropWhile] at hspan
    obtain ⟨hafter, hbefore⟩ := Prod.mk.inj hspan
    have hne : s.reverse.dropWhile (fun e => decide (e ≠ c)) ≠ [] := by
      rw [hbefore]
      exact List.cons_ne_nil _ _
    have hd : d = c := by
      have hhead := List.head_dropWhile_not _ hne
      simpa only [hbefore, List.head_cons, decide_eq_false_iff_not, not_not] using hhead
    have hsplit := List.takeWhile_append_dropWhile (p := fun e => decide (e ≠ c)) (l := s.reverse)
    rw [hafter, hbefore, hd] at hsplit
    rw [← List.reverse_reverse s, ← hsplit]
    simp

theorem mem_firstOccurrences {names : List Text} {name : Text} :
  name ∈ firstOccurrences names ↔ name ∈ names
  := by
  have hfold : ∀ ordered : List Text,
      name ∈ names.foldl
        (fun ordered name => if ordered.contains name then ordered else ordered ++ [name]) ordered
          ↔ name ∈ ordered ∨ name ∈ names := by
    induction names with
    | nil => simp
    | cons other rest ih =>
        intro ordered
        rw [List.foldl_cons, ih, List.mem_cons]
        split
        case isTrue hmem =>
          rw [List.contains_iff_mem] at hmem
          constructor
          · tauto
          · rintro (h | rfl | h)
            · exact .inl h
            · exact .inl hmem
            · exact .inr h
        case isFalse =>
          rw [List.mem_append, List.mem_singleton]
          tauto
  rw [firstOccurrences, hfold]
  simp

namespace TraceCompareRequest

variable {request : TraceCompareRequest} {hop : TraceChainNode}

theorem itemsExpressions_payload :
  itemsExpressions (request.payload hop).items
    = iterPlaceholderExpressions (.str request.sourceId)
      ++ (iterPlaceholderExpressions (.str request.targetId)
        ++ (itemsExpressions (compareRef (splitQualifiedTable hop.table request.schemaName).1
            (splitQualifiedTable hop.table request.schemaName).2).items
          ++ (itemsExpressions (compareRef (splitQualifiedTable hop.table request.schemaName).1
              (splitQualifiedTable hop.table request.schemaName).2).items
            ++ (elementsExpressions (request.nodeColumns hop.column)
              ++ elementsExpressions (request.keyColumns.map PyObject.str)))))
  := by
  have hitems : (request.payload hop).items
      = [("source_id".toList, .str request.sourceId), ("target_id".toList, .str request.targetId),
        ("source_ref".toList, .dict (compareRef (splitQualifiedTable hop.table request.schemaName).1
            (splitQualifiedTable hop.table request.schemaName).2).items),
        ("target_ref".toList, .dict (compareRef (splitQualifiedTable hop.table request.schemaName).1
            (splitQualifiedTable hop.table request.schemaName).2).items),
        ("columns".toList, .list (request.nodeColumns hop.column)),
        ("compare_rules".toList,
          .dict [("key_columns".toList, .list (request.keyColumns.map PyObject.str))]),
        ("run_limits".toList, .dict [])] := rfl
  rw [hitems]
  simp only [itemsExpressions, iterPlaceholderExpressions, List.append_nil]

theorem mem_expressions_compareRef {schema : Option Text} {table e : Text} (htable : '{' ∉ table) :
  e ∈ itemsExpressions (compareRef schema table).items ↔
    ∃ name ∈ schema, e ∈ (placeholders name).map strip
  := by
  have hnone : placeholders table = [] := placeholders_of_not_mem htable
  obtain _ | _ | ⟨c, name⟩ := schema
  · have hitems : (compareRef none table).items
        = [("kind".toList, .str "table".toList), ("table_name".toList, .str table)] := rfl
    rw [hitems]
    simp only [itemsExpressions, iterPlaceholderExpressions, hnone]
    constructor
    · intro h
      cases h
    · rintro ⟨name, hname, -⟩
      cases hname
  · have hitems : (compareRef (some []) table).items
        = [("kind".toList, .str "table".toList), ("table_name".toList, .str table)] := rfl
    rw [hitems]
    simp only [itemsExpressions, iterPlaceholderExpressions, hnone]
    constructor
    · intro h
      cases h
    · rintro ⟨name, hname, h⟩
      obtain rfl := Option.some.inj hname
      cases h
  · have hitems : (compareRef (some (c :: name)) table).items
        = [("kind".toList, .str "table".toList), ("table_name".toList, .str table),
          ("schema_name".toList, .str (c :: name))] := rfl
    have hkind : placeholders "table".toList = [] := rfl
    rw [hitems]
    simp only [itemsExpressions, iterPlaceholderExpressions, hnone, hkind, List.map_nil,
      List.nil_append, List.append_nil]
    constructor
    · intro h
      exact ⟨_, rfl, h⟩
    · rintro ⟨name', hname, h⟩
      obtain rfl := Option.some.inj hname
      exact h

theorem elementsExpressions_eq_nil {α : Type} {f : α → PyObject} {l : List α}
    (h : ∀ a ∈ l, iterPlaceholderExpressions (f a) = []) :
  elementsExpressions (l.map f) = []
  := by
  induction l with
  | nil => rfl
  | cons a l ih =>
      rw [List.forall_mem_cons] at h
      rw [List.map_cons, elementsExpressions, h.1, ih h.2]
      rfl

theorem expressions_of_isSafeName {s : Text} (h : isSafeName s = true) :
  iterPlaceholderExpressions (.str s) = []
  := by
  rw [iterPlaceholderExpressions, placeholders_of_not_mem (not_mem_of_isSafeName h)]
  rfl

theorem expressions_nodeColumns (hkeys : ∀ key ∈ request.keyColumns, isSafeName key = true)
    {column : Text} (hcolumn : isSafeName column = true) :
  elementsExpressions (request.nodeColumns column) = []
  := by
  apply elementsExpressions_eq_nil
  intro name hname
  rw [mem_firstOccurrences, List.mem_append, List.mem_singleton] at hname
  have hsafe : isSafeName name = true := by
    obtain hname | rfl := hname
    · exact hkeys name hname
    · exact hcolumn
  have hnone := placeholders_of_not_mem (not_mem_of_isSafeName hsafe)
  have htype : placeholders "unknown".toList = [] := rfl
  rw [columnObject, iterPlaceholderExpressions]
  simp only [itemsExpressions, iterPlaceholderExpressions, hnone, htype, List.map_nil,
    List.append_nil]

theorem splitQualifiedTable_spec {table : Text} {schemaName : Option Text} (htable : '{' ∉ table) :
  '{' ∉ (splitQualifiedTable table schemaName).2
    ∧ ((splitQualifiedTable table schemaName).1 = schemaName
      ∨ schemaName = none ∧ ∀ schema ∈ (splitQualifiedTable table schemaName).1, '{' ∉ schema)
  := by
  cases schemaName with
  | some schema => exact ⟨htable, .inl rfl⟩
  | none =>
      cases hsplit : rpartition '.' table with
      | none =>
          simp only [splitQualifiedTable, hsplit]
          exact ⟨htable, .inl trivial⟩
      | some parts =>
          obtain rfl := rpartition_eq_some hsplit
          rw [List.mem_append, List.mem_cons, not_or, not_or] at htable
          simp only [splitQualifiedTable, hsplit]
          refine ⟨htable.2.2, .inr ⟨trivial, ?_⟩⟩
          intro schema hschema
          obtain rfl := Option.some.inj hschema
          exact htable.1

/-- The payload of a comparison refers to what the unchecked texts of the request refer to. -/
theorem mem_expressions_payload (hkeys : ∀ key ∈ request.keyColumns, isSafeName key = true)
    (htable : isSafeName hop.table = true) (hcolumn : isSafeName hop.column = true) {e : Text} :
  e ∈ itemsExpressions (request.payload hop).items ↔
    ∃ value ∈ request.freeTexts, e ∈ (placeholders value).map strip
  := by
  obtain ⟨hsplit, hschema⟩ := @splitQualifiedTable_spec hop.table request.schemaName
    (not_mem_of_isSafeName htable)
  have hkeyTexts : elementsExpressions (request.keyColumns.map PyObject.str) = [] :=
    elementsExpressions_eq_nil (fun key hkey => expressions_of_isSafeName (hkeys key hkey))
  have href : (∃ name ∈ (splitQualifiedTable hop.table request.schemaName).1,
      e ∈ (placeholders name).map strip) ↔
      ∃ name ∈ request.schemaName, e ∈ (placeholders name).map strip := by
    obtain heq | ⟨hnone, hsafe⟩ := hschema
    · rw [heq]
    · constructor
      · rintro ⟨name, hname, h⟩
        rw [placeholders_of_not_mem (hsafe name hname)] at h
        cases h
      · rintro ⟨name, hname, -⟩
        rw [hnone] at hname
        cases hname
  rw [itemsExpressions_payload, expressions_nodeColumns hkeys hcolumn, hkeyTexts]
  simp only [List.mem_append, mem_expressions_compareRef hsplit, href, List.append_nil,
    iterPlaceholderExpressions, freeTexts, List.mem_cons, List.not_mem_nil, or_false,
    Option.mem_toList]
  constructor
  · rintro (h | h | ⟨name, hname, h⟩ | ⟨name, hname, h⟩)
    · exact ⟨_, .inl (.inl rfl), h⟩
    · exact ⟨_, .inl (.inr rfl), h⟩
    · exact ⟨name, .inr hname, h⟩
    · exact ⟨name, .inr hname, h⟩
  · rintro ⟨value, (rfl | rfl) | hname, h⟩
    · exact .inl h
    · exact .inr (.inl h)
    · exact .inr (.inr (.inl ⟨value, hname, h⟩))

end TraceCompareRequest

/-! ### What can be built -/

/-- What a request has to be for the comparisons of a chain to be made. -/
structure TraceCompareRequest.Fits (request : TraceCompareRequest) (chain : List TraceChainNode) :
    Prop where
  keyColumns_ne : request.keyColumns ≠ []
  chain_ne : chain ≠ []
  length_le : (chain.length : ℤ) ≤ max 1 (min request.maxHops traceCompareMaxHops)
  keys : ∀ key ∈ request.keyColumns, isSafeName key = true
  names : ∀ hop ∈ chain, isSafeName hop.table = true ∧ isSafeName hop.column = true

section Build

variable {rt : WhenRuntime} {request : TraceCompareRequest} {chain : List TraceChainNode}

/-- The comparison of a column at a place of the chain. -/
def compareNode (request : TraceCompareRequest) (hop : TraceChainNode × ℕ) : TraceCompareNode where
  nodeId := hopId hop.2
  depth := hop.1.depth
  table := hop.1.table
  column := hop.1.column
  keyColumns := request.keyColumns
  payload := request.payload hop.1

theorem buildTraceCompareNode_eq_ok {hop : TraceChainNode × ℕ} {node : TraceCompareNode} :
  buildTraceCompareNode rt request hop = .ok node ↔
    (isSafeName hop.1.table = true ∧ isSafeName hop.1.column = true)
      ∧ node = compareNode request hop
  := by
  simp only [buildTraceCompareNode, validateIdentifier, Outcome.bind_eq_ok, require_eq_ok,
    Outcome.pure_eq_ok]
  constructor
  · rintro ⟨_, htable, _, hcolumn, rfl⟩
    exact ⟨⟨htable, hcolumn⟩, rfl⟩
  · rintro ⟨⟨htable, hcolumn⟩, rfl⟩
    exact ⟨(), htable, (), hcolumn, rfl⟩

theorem mapM_buildTraceCompareNode_eq_ok {hops : List (TraceChainNode × ℕ)}
    {nodes : List TraceCompareNode} :
  hops.mapM (buildTraceCompareNode rt request) = .ok nodes ↔
    (∀ hop ∈ hops, isSafeName hop.1.table = true ∧ isSafeName hop.1.column = true)
      ∧ nodes = hops.map (compareNode request)
  := by
  induction hops generalizing nodes with
  | nil =>
      rw [List.mapM_nil, Outcome.pure_eq_ok]
      constructor
      · rintro rfl
        exact ⟨fun _ hhop => (List.not_mem_nil hhop).elim, rfl⟩
      · rintro ⟨-, rfl⟩
        rfl
  | cons hop hops ih =>
      simp only [List.mapM_cons, Outcome.bind_eq_ok, Outcome.pure_eq_ok, ih,
        buildTraceCompareNode_eq_ok, List.forall_mem_cons, List.map_cons]
      constructor
      · rintro ⟨_, ⟨hsafe, rfl⟩, _, ⟨hrest, rfl⟩, rfl⟩
        exact ⟨⟨hsafe, hrest⟩, rfl⟩
      · rintro ⟨⟨hsafe, hrest⟩, rfl⟩
        exact ⟨_, ⟨hsafe, rfl⟩, _, ⟨hrest, rfl⟩, rfl⟩

theorem buildTraceCompareNodes_eq_ok {nodes : List TraceCompareNode} :
  buildTraceCompareNodes rt request chain = .ok nodes ↔
    request.Fits chain ∧ nodes = chain.zipIdx.map (compareNode request)
  := by
  have hnames : (∀ hop ∈ chain.zipIdx, isSafeName hop.1.table = true ∧
      isSafeName hop.1.column = true) ↔
      ∀ hop ∈ chain, isSafeName hop.table = true ∧ isSafeName hop.column = true := by
    have hfst := List.forall_mem_map (f := Prod.fst) (l := chain.zipIdx)
      (P := fun hop : TraceChainNode => isSafeName hop.table = true ∧ isSafeName hop.column = true)
    rw [List.zipIdx_map_fst] at hfst
    exact hfst.symm
  simp only [buildTraceCompareNodes, Outcome.bind_eq_ok, require_eq_ok, forM_eq_ok,
    mapM_buildTraceCompareNode_eq_ok, hnames, validateIdentifier, Bool.not_eq_true',
    List.isEmpty_eq_false_iff, decide_eq_true_eq]
  constructor
  · rintro ⟨_, hkeyColumns, _, hchain, _, hlength, _, hkeys, hnames, rfl⟩
    exact ⟨⟨hkeyColumns, hchain, hlength, hkeys, hnames⟩, rfl⟩
  · rintro ⟨⟨hkeyColumns, hchain, hlength, hkeys, hnames⟩, rfl⟩
    exact ⟨(), hkeyColumns, (), hchain, (), hlength, (), hkeys, hnames, rfl⟩

/-- The nodes of the workflow. -/
def workflowNodes (request : TraceCompareRequest) (chain : List TraceChainNode)
    (timeoutSeconds : ℕ) : List WorkflowNode :=
  chain.zipIdx.map (fun hop => (compareNode request hop).workflowNode timeoutSeconds)

theorem getElem?_workflowNodes {timeoutSeconds i : ℕ} :
  (workflowNodes request chain timeoutSeconds)[i]?
    = chain[i]?.map (fun hop => (compareNode request (hop, i)).workflowNode timeoutSeconds)
  := by
  rw [workflowNodes, List.getElem?_map, List.getElem?_zipIdx, Option.map_map, Nat.zero_add]
  rfl

theorem hopId_injective {i j : ℕ} (h : hopId i = hopId j) :
  i = j
  := Readers.natText_injective (List.append_cancel_left h)

theorem nodup_workflowNodes {timeoutSeconds : ℕ} :
  ((workflowNodes request chain timeoutSeconds).map WorkflowNode.id).Nodup
  := by
  have hids : (workflowNodes request chain timeoutSeconds).map WorkflowNode.id
      = (List.range chain.length).map hopId := by
    rw [workflowNodes, List.map_map, List.range_eq_range', ← List.zipIdx_map_snd 0 chain,
      List.map_map]
    rfl
  rw [hids]
  exact List.nodup_range.map (fun _ _ => hopId_injective)

theorem isLink_workflowNodes {timeoutSeconds : ℕ} (htimeout : 1 ≤ timeoutSeconds) :
  ∀ node ∈ workflowNodes request chain timeoutSeconds, IsLink node
  := by
  intro node hnode
  obtain ⟨⟨hop, i⟩, -, rfl⟩ := List.mem_map.mp hnode
  refine ⟨?_, NodeKind.noConfusion, NodeKind.noConfusion, OnFailure.noConfusion, rfl⟩
  have hid : (strip (hopId i)).isEmpty = false := by
    have hmem : 'h' ∈ strip (hopId i) := mem_strip List.mem_cons_self rfl
    rw [List.isEmpty_eq_false_iff]
    exact List.ne_nil_of_mem hmem
  simp only [WorkflowNode.validate, Outcome.bind_eq_ok, require_eq_ok]
  exact ⟨(), by rw [Bool.not_eq_true']; exact hid, (), decide_eq_true htimeout, (), rfl, rfl⟩

theorem map_workflowNode_compareNode (timeoutSeconds : ℕ) :
  (chain.zipIdx.map (compareNode request)).map (TraceCompareNode.workflowNode timeoutSeconds)
    = workflowNodes request chain timeoutSeconds
  := List.map_map

/-- The texts that are not checked refer to no output. -/
def TraceCompareRequest.NoReferences (request : TraceCompareRequest) : Prop :=
  ∀ value ∈ request.freeTexts, ∀ e ∈ placeholders value, nodesMark.isPrefixOf (strip e) = false

theorem accepted_workflowNodes_iff {timeoutSeconds : ℕ} (htimeout : 1 ≤ timeoutSeconds)
    (hfits : request.Fits chain) :
  validateSpec rt (workflowNodes request chain timeoutSeconds)
      (chainEdges (workflowNodes request chain timeoutSeconds)) [] Dict.empty = .ok () ↔
    request.NoReferences
  := by
  have hexpressions : ∀ node ∈ workflowNodes request chain timeoutSeconds, ∀ e,
      e ∈ itemsExpressions node.payload.items ↔
        ∃ value ∈ request.freeTexts, e ∈ (placeholders value).map strip := by
    intro node hnode e
    obtain ⟨⟨hop, i⟩, hhop, rfl⟩ := List.mem_map.mp hnode
    obtain ⟨htable, hcolumn⟩ := hfits.names hop (List.fst_mem_of_mem_zipIdx hhop)
    exact TraceCompareRequest.mem_expressions_payload hfits.keys htable hcolumn
  have hlength : (workflowNodes request chain timeoutSeconds).length = chain.length := by
    rw [workflowNodes, List.length_map, List.length_zipIdx]
  have hne : workflowNodes request chain timeoutSeconds ≠ [] := by
    rw [← List.length_pos_iff, hlength, List.length_pos_iff]
    exact hfits.chain_ne
  have hle := hfits.length_le
  rw [accepted_chainEdges_iff hne _ nodup_workflowNodes (isLink_workflowNodes htimeout)]
  · constructor
    · intro h value hvalue e he
      obtain ⟨node, hnode⟩ := List.exists_mem_of_ne_nil _ hne
      exact h node hnode (strip e)
        ((hexpressions node hnode _).mpr ⟨value, hvalue, List.mem_map_of_mem he⟩)
    · intro h node hnode e he
      obtain ⟨value, hvalue, he⟩ := (hexpressions node hnode e).mp he
      obtain ⟨raw, hraw, rfl⟩ := List.mem_map.mp he
      exact h value hvalue raw hraw
  · intro node hnode other hother e he _
    exact (hexpressions other hother e).mpr ((hexpressions node hnode e).mp he)
  · rw [hlength, maxWorkflowNodes]
    rw [traceCompareMaxHops] at hle
    omega

theorem buildTraceCompareSpec_eq_ok {nodes : List TraceCompareNode} {timeoutSeconds : ℕ}
    {spec : WorkflowSpec rt} (h : buildTraceCompareSpec rt nodes timeoutSeconds = .ok spec) :
  spec.nodes = nodes.map (TraceCompareNode.workflowNode timeoutSeconds)
    ∧ spec.edges = chainEdges (nodes.map (TraceCompareNode.workflowNode timeoutSeconds))
  := by
  rw [buildTraceCompareSpec] at h
  split at h
  case isTrue => cases h
  case isFalse =>
    dsimp only at h
    split at h
    case h_1 => cases h
    case h_2 =>
      obtain rfl := Except.ok.inj h
      exact ⟨rfl, rfl⟩

theorem exists_buildTraceCompareSpec_iff {nodes : List TraceCompareNode} (hne : nodes ≠ [])
    {timeoutSeconds : ℕ} :
  (∃ spec, buildTraceCompareSpec rt nodes timeoutSeconds = .ok spec) ↔
    validateSpec rt (nodes.map (TraceCompareNode.workflowNode timeoutSeconds))
      (chainEdges (nodes.map (TraceCompareNode.workflowNode timeoutSeconds))) [] Dict.empty
      = .ok ()
  := by
  rw [buildTraceCompareSpec, if_neg (by simpa using hne)]
  dsimp only
  split
  case h_1 message herror =>
    constructor
    · rintro ⟨spec, hspec⟩
      cases hspec
    · intro hok
      cases herror.symm.trans hok
  case h_2 hok => exact ⟨fun _ => hok, fun _ => ⟨_, rfl⟩⟩

theorem traceCompareWorkflow_eq_ok {spec : WorkflowSpec rt}
    (h : traceCompareWorkflow rt request chain = .ok spec) :
  request.Fits chain
    ∧ spec.nodes = workflowNodes request chain defaultNodeTimeoutSeconds
    ∧ spec.edges = chainEdges spec.nodes
  := by
  obtain ⟨nodes, hnodes, hspec⟩ := Outcome.bind_eq_ok.mp h
  obtain ⟨hfits, rfl⟩ := buildTraceCompareNodes_eq_ok.mp hnodes
  obtain ⟨hnodes, hedges⟩ := buildTraceCompareSpec_eq_ok hspec
  rw [← hnodes] at hedges
  rw [map_workflowNode_compareNode] at hnodes
  exact ⟨hfits, hnodes, hedges⟩

end Build

/-- The workflow of a chain can be built exactly if there are keys and columns, not too many of
them, all names are safe, and the texts that are not checked refer to no output. -/
theorem traceCompareWorkflow_built_iff (rt : WhenRuntime) (request : TraceCompareRequest)
    (chain : List TraceChainNode) :
  (∃ spec, traceCompareWorkflow rt request chain = .ok spec) ↔
    request.Fits chain ∧ request.NoReferences
  := by
  have htimeout : 1 ≤ defaultNodeTimeoutSeconds := by
    rw [defaultNodeTimeoutSeconds]
    omega
  constructor
  · rintro ⟨spec, h⟩
    obtain ⟨nodes, hnodes, hspec⟩ := Outcome.bind_eq_ok.mp h
    obtain ⟨hfits, rfl⟩ := buildTraceCompareNodes_eq_ok.mp hnodes
    have hne : chain.zipIdx.map (compareNode request) ≠ [] := by simpa using hfits.chain_ne
    have haccepted := (exists_buildTraceCompareSpec_iff hne).mp ⟨spec, hspec⟩
    rw [map_workflowNode_compareNode, accepted_workflowNodes_iff htimeout hfits] at haccepted
    exact ⟨hfits, haccepted⟩
  · rintro ⟨hfits, hreferences⟩
    have hne : chain.zipIdx.map (compareNode request) ≠ [] := by simpa using hfits.chain_ne
    have haccepted :=
      (@accepted_workflowNodes_iff rt request chain _ htimeout hfits).mpr hreferences
    rw [← map_workflowNode_compareNode] at haccepted
    obtain ⟨spec, hspec⟩ := (exists_buildTraceCompareSpec_iff hne).mpr haccepted
    exact ⟨spec, Outcome.bind_eq_ok.mpr ⟨_, buildTraceCompareNodes_eq_ok.mpr ⟨hfits, rfl⟩, hspec⟩⟩

/-! ### Runs -/

/-- The job of a comparison is given the payload of the comparison. -/
theorem buildWorkflowChildJob_compareNode {request : TraceCompareRequest}
    {hop : TraceChainNode} {i timeoutSeconds : ℕ} {vars : Variables} {outputs : NodeOutputMap}
    {jobId : Text} {built : JobRow} (hnone : itemsExpressions (request.payload hop).items = [])
    (h : buildWorkflowChildJob vars outputs
      ((compareNode request (hop, i)).workflowNode timeoutSeconds) jobId = .ok built) :
  built.payload = (request.payload hop).set "workflow_node_id".toList (.str (hopId i))
  := by
  have hrendered : interpolatePayload (request.payload hop) vars outputs
      = .ok (request.payload hop) := interpolatePayload_of_expressions_eq_nil hnone
  have hkind : ((compareNode request (hop, i)).workflowNode timeoutSeconds).jobKind
      = .compareRun := rfl
  obtain ⟨rendered, hpayload, h⟩ := Outcome.bind_eq_ok.mp h
  obtain rfl := Except.ok.inj (hrendered.symm.trans hpayload)
  obtain ⟨payload, hselected, h⟩ := Outcome.bind_eq_ok.mp h
  obtain rfl := Outcome.pure_eq_ok.mp h
  rw [withSelectedTarget, if_neg (by rw [hkind]; exact NodeKind.noConfusion)] at hselected
  obtain rfl := Except.ok.inj hselected
  rw [withResultSetId, if_neg (by rw [hkind]; simp)]
  rfl

/-- A column that is traced back one hop. -/
def traceRequest : TraceCompareRequest where
  sourceId := "blue".toList
  targetId := "green".toList
  keyColumns := ["id".toList]

@[inherit_doc traceRequest]
def tracedChain : List TraceChainNode :=
  [{ depth := 0, table := "orders".toList, column := "total".toList },
    { depth := 1, table := "lines".toList, column := "price".toList }]

def tracedSpec : WorkflowSpec bareRuntime where
  nodes := workflowNodes traceRequest tracedChain defaultNodeTimeoutSeconds
  edges := chainEdges (workflowNodes traceRequest tracedChain defaultNodeTimeoutSeconds)
  accepted := rfl

/-- The job of the first comparison. -/
def tracedJob : JobRow where
  nodeId := hopId 0
  jobId := 'a' :: hopId 0
  kind := .compareRun
  payload := (traceRequest.payload
    { depth := 0, table := "orders".toList, column := "total".toList }).set
      "workflow_node_id".toList (.str (hopId 0))

end Lineage

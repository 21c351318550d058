import DataOpsStudio.Workflow.Interpolate

/-!
# Workflow specifications

A workflow is a graph of nodes with edges that are followed on success or on failure.  A
specification is accepted when its nodes and edges are well formed, the graph has no cycle,
placeholders refer to outputs of nodes upstream only, and the edges that leave a node make
a route for each of its outcomes.  `WorkflowSpec` is the type of accepted specifications.
-/

namespace Workflow

open Text

/-! ### Nodes and edges -/

/-- How often and after how many seconds a failed node is tried again. -/
structure RetryPolicy where
  maxRetries : ℕ
  backoffSeconds : ℕ
  maxRetries_le : maxRetries ≤ 5 := by decide
  backoffSeconds_le : backoffSeconds ≤ 3600 := by decide

/-- What a final failure of a node means for the run. -/
inductive OnFailure where
  | abort
  | continued
  | branch
deriving DecidableEq

/-- The outcome of its source on which an edge is followed. -/
inductive Trigger where
  | success
  | failure
deriving DecidableEq

/-- The text of an outcome. -/
def Trigger.value : Trigger → Text
  | success => "success".toList
  | failure => "failure".toList

/-- A node of a workflow. -/
structure WorkflowNode where
  id : Text
  jobKind : NodeKind
  payload : Dict Text PyObject := Dict.empty
  retryPolicy : Option RetryPolicy := none
  timeoutSeconds : ℕ := 60
  onFailure : OnFailure := .abort
  when : Option Text := none

/-- An edge of a workflow. -/
structure WorkflowEdge where
  source : Text
  target : Text
  trigger : Trigger := .success
  when : Option Text := none
  isDefault : Bool := false
deriving DecidableEq

/-- A target of notifications, by its identifier. -/
structure NotifyTarget where
  id : Text

/-- The representation of a text in a message. -/
def WhenRuntime.shown (rt : WhenRuntime) (s : Text) : Text := Text.repr rt.isPrintable s

/-- The kind of a node by its name. -/
def validateJobKind (rt : WhenRuntime) (value : Text) : Except Text NodeKind :=
  if value = "sql_query".toList then .ok .sqlQuery
  else if value = "sql_explain".toList then .ok .sqlExplain
  else if value = "compare_run".toList then .ok .compareRun
  else if value = "lineage_analyze".toList then .ok .lineageAnalyze
  else if value = "export_excel".toList then .ok .exportExcel
  else if value = "notify".toList then .ok .notify
  else if value = "sleep".toList then .ok .sleep
  else if value = "branch".toList then .ok .branch
  else if value = "scenario_materialize".toList ∨ value = "scenario_run_all".toList then
    .error ("unsupported_node_kind: job_kind ".toList ++ rt.shown value
      ++ " 在 R7 白名单内但首版暂不支持(SUPPORTED_WORKFLOW_NODE_KINDS_V1)".toList)
  else
    .error ("forbidden_node_kind: job_kind ".toList ++ rt.shown value
      ++ " 不在 R7 白名单 ALLOWED_WORKFLOW_NODE_KINDS 内(契约 §4 R7,永不开放)".toList)

/-- Raises a message unless a condition holds. -/
def require (condition : Bool) (message : Text) : Except Text Unit :=
  if condition then .ok () else .error message

/-- A condition is absent, or it is not blank and not too long. -/
def validateWhen (message : Text) : Option Text → Except Text Unit
  | none => .ok ()
  | some value => do
      require (decide (value.length ≤ maxWhenLength))
        "String should have at most 512 characters".toList
      require (!(strip value).isEmpty) message

/-- Whether the payload of a sleeping node is the number of seconds to sleep. -/
def isSleepPayload (payload : Dict Text PyObject) : Bool :=
  match payload.get? "duration_seconds".toList with
  | some (.int n) =>
      payload.keys.all (fun key => key == "duration_seconds".toList) && decide (1 ≤ n)
        && decide (n ≤ 86400)
  | _ => false

/-- The targets of a notifying node: between one and ten different texts, none blank. -/
def targetIds? (payload : Dict Text PyObject) : Option (List Text) :=
  match payload.get? "target_ids".toList with
  | some (.list elements) =>
      let ids := elements.filterMap PyObject.str?
      if decide (ids.length = elements.length) && decide (1 ≤ ids.length)
          && decide (ids.length ≤ 10) && ids.all (fun id => !(strip id).isEmpty)
          && decide ids.Nodup then
        some ids
      else none
  | _ => none

/-- Whether an optional text of a payload is absent or not too long. -/
def isShortText (payload : Dict Text PyObject) (field : Text) (bound : ℕ) : Bool :=
  match payload.get? field with
  | none => true
  | some .none => true
  | some (.str s) => decide (s.length ≤ bound)
  | some _ => false

/-- The longest text of definitions inside a payload. -/
def maxWorkflowDdlTextChars : ℕ := 65536

/-- What the payload of a node of a kind may hold. -/
def validateIntrinsicPayload (node : WorkflowNode) : Except Text Unit :=
  match node.jobKind with
  | .branch =>
      require node.payload.items.isEmpty
        "invalid_branch_payload: branch 节点 payload 必须为空".toList
  | .sleep =>
      require (isSleepPayload node.payload)
        "invalid_sleep_payload: sleep 节点只接受 1..86400 的 duration_seconds".toList
  | .lineageAnalyze =>
      require (isShortText node.payload "ddl_text".toList maxWorkflowDdlTextChars)
        ("invalid_lineage_analyze_payload: ddl_text 必须是字符串且不超过 65536 字符".toList
          ++ "(workflow spec 内联存储,上限比交互式解析更紧)".toList)
  | .notify => do
      require (node.payload.keys.all
          (fun key => key == "target_ids".toList || key == "message".toList))
        "invalid_notify_payload: notify 节点含未知字段".toList
      require (targetIds? node.payload).isSome
        "invalid_notify_payload: target_ids 必须是 1..10 个唯一非空字符串".toList
      require (isShortText node.payload "message".toList 512)
        "invalid_notify_payload: message 最长 512 字符".toList
  | _ => .ok ()

/-- The checks of a node on its own. -/
def WorkflowNode.validate (node : WorkflowNode) : Except Text Unit := do
  require (!(strip node.id).isEmpty) "invalid_node_id: 节点 id 不能为空".toList
  require (decide (1 ≤ node.timeoutSeconds))
    "Input should be greater than or equal to 1".toList
  validateWhen "invalid_when: when 条件不能为空白字符串(不写请传 null)".toList node.when
  validateIntrinsicPayload node

/-- The checks of an edge on its own. -/
def WorkflowEdge.validate (edge : WorkflowEdge) : Except Text Unit :=
  validateWhen "invalid_edge_when: 边条件不能为空白字符串(不写请传 null)".toList edge.when

/-! ### Variables -/

/-- The names of the variables every run has. -/
def builtinVariableNames : List Text := ["today", "now", "year", "month", "day"].map String.toList

/-- The most variables of a workflow, the longest value and the longest list. -/
def maxWorkflowVariables : ℕ := 32

@[inherit_doc maxWorkflowVariables]
def maxVariableValueLength : ℕ := 512

@[inherit_doc maxWorkflowVariables]
def maxVariableListLength : ℕ := 256

/-- Whether a character may stand in the value of a variable. -/
def isVariableValueChar (c : Char) : Bool := c.isAlphanum || ['_', '.', ':', '-'].contains c

/-- The checks of one text of a variable. -/
def validateScalarValue (name value : Text) : Except Text Unit := do
  require (decide (value.length ≤ maxVariableValueLength))
    ("variable_value_too_long: ".toList ++ name)
  require (value.all isVariableValueChar && !occursIn "--".toList value)
    ("unsafe_variable_value: ".toList ++ name)

/-- An element of a list variable. -/
def validateElement (name : Text) : PyObject → Except Text Text
  | .str element => do
      validateScalarValue name element
      return element
  | _ => .error ("invalid_variable_value: ".toList ++ name)

/-- The value of one variable. -/
def validateVariable (name : Text) (value : PyObject) : Except Text VariableValue := do
  require (isIdentifier name) ("invalid_variable_name: ".toList ++ name)
  require (!builtinVariableNames.contains name)
    ("variable_name_collides_builtin: ".toList ++ name)
  match value with
  | .str s =>
      validateScalarValue name s
      return .str s
  | .list elements =>
      require (decide (elements.length ≤ maxVariableListLength))
        ("variable_list_too_long: ".toList ++ name)
      let texts ← elements.mapM (validateElement name)
      return .list texts
  | _ => .error ("invalid_variable_value: ".toList ++ name)

/-- The variables of a workflow, or of the request that triggers it. -/
def validateWorkflowVariables (vars : Dict Text PyObject) : Except Text Variables := do
  require (decide (vars.items.length ≤ maxWorkflowVariables))
    "too_many_variables: 变量数量超过上限 32".toList
  let validated ← vars.items.mapM fun item => do
    let value ← validateVariable item.1 item.2
    return (item.1, value)
  return Dict.ofList validated

/-! ### The graph -/

section Graph

variable (nodes : List WorkflowNode) (edges : List WorkflowEdge)

/-- The nodes that the edges leaving a node lead to, edge by edge. -/
def downstream (nodeId : Text) : List Text :=
  (edges.filter (fun edge => edge.source == nodeId)).map WorkflowEdge.target

/-- The nodes that the edges entering a node come from, edge by edge. -/
def parents (nodeId : Text) : List Text :=
  (edges.filter (fun edge => edge.target == nodeId)).map WorkflowEdge.source

/-- The edges that leave a node. -/
def outgoingEdges (nodeId : Text) : List WorkflowEdge :=
  edges.filter (fun edge => edge.source == nodeId)

/-- The edges that enter a node. -/
def incomingEdges (nodeId : Text) : List WorkflowEdge :=
  edges.filter (fun edge => edge.target == nodeId)

/-- The node of an identifier. -/
def nodeById? (nodeId : Text) : Option WorkflowNode :=
  nodes.find? (fun node => node.id == nodeId)

/-- How far the search for a cycle has come with a node. -/
inductive Color where
  | white
  | gray
  | black
deriving DecidableEq

/-- The state of the search for a cycle: the colours, the node each node was reached from, and
the path that is being explored, with the number of edges already followed from each node. -/
structure CycleSearch where
  color : Dict Text Color
  parent : Dict Text Text
  stack : List (Text × ℕ)

/-- The path from `stop` to `walker` along the nodes they were reached from. -/
def pathBack (parent : Dict Text Text) (stop : Text) : ℕ → Text → List Text → Option (List Text)
  | 0, _, _ => none
  | fuel + 1, walker, path =>
      if walker = stop then some path
      else
        match parent.get? walker with
        | none => none
        | some previous => pathBack parent stop fuel previous (previous :: path)

/-- What one round of the search comes to: a cycle, or the next state. -/
def searchRound (search : CycleSearch) (current : Text) (next : ℕ) (rest : List (Text × ℕ)) :
    Except Text (List Text ⊕ CycleSearch) :=
  match (downstream edges current)[next]? with
  | none => .ok (.inr { search with color := search.color.set current .black, stack := rest })
  | some neighbor =>
      let stack := (current, next + 1) :: rest
      match search.color.get? neighbor with
      | none => .error "KeyError".toList
      | some .white =>
          .ok (.inr
            { color := search.color.set neighbor .gray
              parent := search.parent.set neighbor current
              stack := (neighbor, 0) :: stack })
      | some .gray =>
          match pathBack search.parent neighbor (nodes.length + 1) current [current] with
          | none => .error "KeyError".toList
          | some cycle => .ok (.inl cycle)
      | some .black => .ok (.inr { search with stack := stack })

/-- Explores until a cycle is found or the path is empty. -/
def exploreFrom : ℕ → CycleSearch → Except Text (List Text ⊕ CycleSearch)
  | 0, _ => .error "out of fuel".toList
  | fuel + 1, search =>
      match search.stack with
      | [] => .ok (.inr search)
      | (current, next) :: rest => do
          match ← searchRound nodes edges search current next rest with
          | .inl cycle => .ok (.inl cycle)
          | .inr search => exploreFrom fuel search

/-- The rounds a search can take: every node is entered and left once, and every edge is
followed once. -/
def searchFuel : ℕ := nodes.length + edges.length + 1

/-- Explores from every node that no earlier search has reached. -/
def findCycleFrom : List Text → CycleSearch → Except Text (Option (List Text))
  | [], _ => .ok none
  | start :: rest, search =>
      if search.color.get? start = some .white then do
        let opened :=
          { search with color := search.color.set start .gray, stack := [(start, 0)] }
        match ← exploreFrom nodes edges (searchFuel nodes edges) opened with
        | .inl cycle => .ok (some cycle)
        | .inr search => findCycleFrom rest search
      else findCycleFrom rest search

/-- A cycle of the graph, if there is one. -/
def findCycle : Except Text (Option (List Text)) :=
  findCycleFrom nodes edges (nodes.map WorkflowNode.id)
    { color := Dict.ofList (nodes.map (fun node => (node.id, Color.white)))
      parent := Dict.empty
      stack := [] }

/-- The ancestors found so far, by node. -/
abbrev AncestorCache := Dict Text (List Text)

/-- The ancestors of a node, and the cache with them. -/
def collect : ℕ → Text → AncestorCache → Except Text (List Text × AncestorCache)
  | 0, _, _ => .error "RecursionError".toList
  | fuel + 1, nodeId, cache =>
      match cache.get? nodeId with
      | some found => .ok (found, cache)
      | none => do
          let (found, cache) ← (parents edges nodeId).foldlM
            (fun (acc : List Text × AncestorCache) parent => do
              let (upstream, cache) ← collect fuel parent acc.2
              return (acc.1 ++ parent :: upstream, cache))
            ([], cache)
          return (found, cache.set nodeId found)

/-- The ancestors of every node. -/
def workflowAncestors : Except Text AncestorCache :=
  nodes.foldlM
    (fun cache node => do
      let (_, cache) ← collect edges (nodes.length + 1) node.id cache
      return cache)
    Dict.empty

end Graph

/-! ### Checks of the whole workflow -/

section Checks

variable (rt : WhenRuntime) (nodes : List WorkflowNode) (edges : List WorkflowEdge)

/-- No two nodes have the same identifier. -/
def validateNodeIds : List Text → List WorkflowNode → Except Text Unit
  | _, [] => .ok ()
  | seen, node :: rest => do
      require (!seen.contains node.id)
        ("duplicate_node_id: 节点 id ".toList ++ rt.shown node.id ++ " 重复".toList)
      validateNodeIds (node.id :: seen) rest

/-- What identifies an edge. -/
def WorkflowEdge.key (edge : WorkflowEdge) : Text × Text × Trigger :=
  (edge.source, edge.target, edge.trigger)

/-- Edges lead from one node to another, and no two have the same key. -/
def validateEdgeKeys (nodeIds : List Text) :
    List (Text × Text × Trigger) → List WorkflowEdge → Except Text Unit
  | _, [] => .ok ()
  | seen, edge :: rest => do
      require (nodeIds.contains edge.source)
        ("unknown_edge_node: 边 source ".toList ++ rt.shown edge.source
          ++ " 不是已声明节点".toList)
      require (nodeIds.contains edge.target)
        ("unknown_edge_node: 边 target ".toList ++ rt.shown edge.target
          ++ " 不是已声明节点".toList)
      require (edge.source != edge.target)
        ("self_loop: 节点 ".toList ++ rt.shown edge.source ++ " 不允许自环".toList)
      require (!seen.contains edge.key)
        ("duplicate_edge: ".toList ++ rt.shown edge.source ++ "->".toList
          ++ rt.shown edge.target ++ " trigger=".toList ++ rt.shown edge.trigger.value
          ++ " 重复".toList)
      validateEdgeKeys nodeIds (edge.key :: seen) rest

/-- A reference to an output names a node upstream and a field of it. -/
def validateOutputReference (allowedNodes : List Text) (expression : Text) : Except Text Unit :=
  if !nodesMark.isPrefixOf expression then .ok ()
  else
    match parseNodeOutputReference expression with
    | none => .error "invalid_node_output_reference".toList
    | some (nodeId, field) =>
        match nodeById? nodes nodeId with
        | none => .error "unknown_node_output".toList
        | some referenced => do
            require ((nodeOutputFieldsByKind referenced.jobKind).contains field)
              "forbidden_node_output_field".toList
            require (allowedNodes.contains nodeId) "non_upstream_node_output".toList

/-- The references of an object name nodes upstream. -/
def validateOutputReferences (allowedNodes : List Text) (value : PyObject) : Except Text Unit :=
  (iterPlaceholderExpressions value).forM (validateOutputReference nodes allowedNodes)

/-- A condition as an object. -/
def whenObject : Option Text → PyObject
  | none => .none
  | some expression => .str expression

/-- The edges of a route are followed in order until one applies: every edge but the default
one has a condition, and there is one default. -/
def validateFirstMatchRoutes (nodeId : Text) (route : List WorkflowEdge) (minimumEdges : ℕ)
    (errorCode : Text) : Except Text Unit :=
  require
    (decide (minimumEdges ≤ route.length)
      && decide ((route.filter WorkflowEdge.isDefault).length = 1)
      && route.all (fun edge => edge.when.isNone == edge.isDefault))
    (errorCode ++ ": 节点 ".toList ++ rt.shown nodeId ++ " 路由边数量/条件/default 配置非法".toList)

/-- The edges followed on success: a route when the node is a branch, and edges without a
condition otherwise. -/
def validateSuccessRoutes (node : WorkflowNode) (successEdges : List WorkflowEdge) :
    Except Text Unit :=
  if node.jobKind = .branch then
    validateFirstMatchRoutes rt node.id successEdges 2 "invalid_branch_routes".toList
  else
    require (successEdges.all (fun edge => edge.when.isNone && !edge.isDefault))
      ("conditional_edge_requires_branch: 普通节点 ".toList ++ rt.shown node.id
        ++ " 的 success 边不能设置 when/is_default".toList)

/-- The edges followed on failure: a route when the node branches on failure, and no edge
otherwise. -/
def validateFailureRoutes (node : WorkflowNode) (failureEdges : List WorkflowEdge) :
    Except Text Unit :=
  if node.onFailure = .branch then do
    require (!failureEdges.isEmpty)
      ("missing_failure_route: 节点 ".toList ++ rt.shown node.id
        ++ " on_failure='branch' 但无 failure 边".toList)
    validateFirstMatchRoutes rt node.id failureEdges 1 "invalid_failure_routes".toList
  else
    require failureEdges.isEmpty
      ("failure_edge_requires_branch: 节点 ".toList ++ rt.shown node.id
        ++ " 只有 on_failure='branch' 才能声明 failure 边".toList)

/-- The edges that leave a node make a route for each outcome it may branch on. -/
def validateNodeRoutes (node : WorkflowNode) (outgoing : List WorkflowEdge) :
    Except Text Unit := do
  validateSuccessRoutes rt node (outgoing.filter (fun edge => edge.trigger = .success))
  validateFailureRoutes rt node (outgoing.filter (fun edge => edge.trigger = .failure))

/-- No two targets of notifications have the same identifier. -/
def validateNotifyTargets : List Text → List NotifyTarget → Except Text Unit
  | _, [] => .ok ()
  | seen, target :: rest => do
      require (!seen.contains target.id)
        ("duplicate_notify_target_id: 通知目标 id ".toList ++ rt.shown target.id
          ++ " 重复".toList)
      validateNotifyTargets (target.id :: seen) rest

/-- A notifying node names declared targets. -/
def validateNotifyNode (notifyIds : List Text) (node : WorkflowNode) : Except Text Unit :=
  if node.jobKind = .notify then
    ((targetIds? node.payload).getD []).forM fun targetId =>
      require (notifyIds.contains targetId)
        ("unknown_notify_target: notify 节点 ".toList ++ rt.shown node.id
          ++ " 引用未知目标 ".toList ++ rt.shown targetId)
  else .ok ()

/-- The checks of the graph of a workflow. -/
def validateDag (notifications : List NotifyTarget) : Except Text Unit := do
  validateNodeIds rt [] nodes
  validateEdgeKeys rt (nodes.map WorkflowNode.id) [] edges
  match ← findCycle nodes edges with
  | some cycle =>
      .error ("cycle_detected: DAG 存在环,环上节点: ".toList ++ join " -> ".toList cycle)
  | none => do
      let ancestors ← workflowAncestors nodes edges
      nodes.forM fun node => do
        let upstream := (ancestors.get? node.id).getD []
        validateOutputReferences nodes upstream (.dict node.payload.items)
        validateOutputReferences nodes upstream (whenObject node.when)
      edges.forM fun edge =>
        validateOutputReferences nodes ((ancestors.get? edge.source).getD [] ++ [edge.source])
          (whenObject edge.when)
      nodes.forM fun node => validateNodeRoutes rt node (outgoingEdges edges node.id)
      validateNotifyTargets rt [] notifications
      nodes.forM (validateNotifyNode rt (notifications.map NotifyTarget.id))

/-- The most nodes of a workflow. -/
def maxWorkflowNodes : ℕ := 50

/-- The checks of a workflow. -/
def validateSpec (notifications : List NotifyTarget) (vars : Dict Text PyObject) :
    Except Text Unit := do
  require (!nodes.isEmpty) "List should have at least 1 item after validation".toList
  require (decide (nodes.length ≤ maxWorkflowNodes))
    "List should have at most 50 items after validation".toList
  nodes.forM WorkflowNode.validate
  edges.forM WorkflowEdge.validate
  let _ ← validateWorkflowVariables vars
  validateDag rt nodes edges notifications

end Checks

/-- An accepted workflow. -/
structure WorkflowSpec (rt : WhenRuntime) where
  nodes : List WorkflowNode
  edges : List WorkflowEdge := []
  notifications : List NotifyTarget := []
  vars : Dict Text PyObject := Dict.empty
  accepted : validateSpec rt nodes edges notifications vars = .ok ()

/-! ### What the checks give -/

theorem require_eq_ok {condition : Bool} {message : Text} {u : Unit} :
  require condition message = .ok u ↔ condition = true
  := by
  rw [require]
  split
  · rename_i h
    simp [h]
  · rename_i h
    simp [h]

/-- Checks of all elements of a list pass when each of them passes. -/
theorem forM_eq_ok {α : Type} {f : α → Except Text Unit} {l : List α} {u : Unit} :
  l.forM f = .ok u ↔ ∀ a ∈ l, f a = .ok ()
  := by
  induction l with
  | nil => simp [List.forM_nil, Outcome.pure_eq_ok]
  | cons a l ih =>
      change (f a >>= fun _ => l.forM f) = .ok u ↔ _
      rw [Outcome.bind_eq_ok]
      constructor
      · rintro ⟨_, ha, hl⟩ b hb
        obtain rfl | hb := List.mem_cons.mp hb
        · apply ha
        · apply ih.mp hl b hb
      · intro h
        use (), h a List.mem_cons_self
        apply ih.mpr
        intro b hb
        apply h b (List.mem_cons_of_mem _ hb)

theorem nodup_of_validateNodeIds {rt : WhenRuntime} {seen : List Text}
    {nodes : List WorkflowNode} (h : validateNodeIds rt seen nodes = .ok ()) :
  (nodes.map WorkflowNode.id).Nodup ∧ ∀ node ∈ nodes, node.id ∉ seen
  := by
  induction nodes generalizing seen with
  | nil => simp
  | cons node rest ih =>
      obtain ⟨_, hnode, hrest⟩ := Outcome.bind_eq_ok.mp h
      obtain ⟨hnodup, hnew⟩ := ih hrest
      have hseen : node.id ∉ seen := by simpa using require_eq_ok.mp hnode
      constructor
      · apply List.nodup_cons.mpr
        refine ⟨?_, hnodup⟩
        intro hmem
        obtain ⟨other, hother, hid⟩ := List.mem_map.mp hmem
        apply hnew other hother
        rw [hid]
        apply List.mem_cons_self
      · intro other hother
        obtain rfl | hother := List.mem_cons.mp hother
        · apply hseen
        · intro hmem
          apply hnew other hother (List.mem_cons_of_mem _ hmem)

theorem mem_of_validateEdgeKeys {rt : WhenRuntime} {nodeIds : List Text}
    {seen : List (Text × Text × Trigger)} {edges : List WorkflowEdge}
    (h : validateEdgeKeys rt nodeIds seen edges = .ok ()) :
  ∀ edge ∈ edges, edge.source ∈ nodeIds ∧ edge.target ∈ nodeIds
  := by
  induction edges generalizing seen with
  | nil => simp
  | cons edge rest ih =>
      obtain ⟨_, hsource, h⟩ := Outcome.bind_eq_ok.mp h
      obtain ⟨_, htarget, h⟩ := Outcome.bind_eq_ok.mp h
      obtain ⟨_, -, h⟩ := Outcome.bind_eq_ok.mp h
      obtain ⟨_, -, hrest⟩ := Outcome.bind_eq_ok.mp h
      intro other hother
      obtain rfl | hother := List.mem_cons.mp hother
      · constructor
        · simpa using require_eq_ok.mp hsource
        · simpa using require_eq_ok.mp htarget
      · apply ih hrest other hother

/-- A node without a route for its failure has no edge for it. -/
theorem onFailure_of_validateNodeRoutes {rt : WhenRuntime} {node : WorkflowNode}
    {outgoing : List WorkflowEdge} (h : validateNodeRoutes rt node outgoing = .ok ())
    {edge : WorkflowEdge} (hedge : edge ∈ outgoing) (htrigger : edge.trigger = .failure) :
  node.onFailure = .branch
  := by
  obtain ⟨_, -, h⟩ := Outcome.bind_eq_ok.mp h
  by_contra hne
  rw [validateFailureRoutes, if_neg hne] at h
  have hempty := require_eq_ok.mp h
  rw [List.isEmpty_iff] at hempty
  have hmem : edge ∈ outgoing.filter (fun edge => edge.trigger = .failure) := by
    apply List.mem_filter.mpr
    exact ⟨hedge, by simpa using htrigger⟩
  rw [hempty] at hmem
  cases hmem

namespace WorkflowSpec

variable {rt : WhenRuntime} (spec : WorkflowSpec rt)

/-- What the checks of the graph consist of. -/
theorem validateDag_parts :
  validateNodeIds rt [] spec.nodes = .ok ()
    ∧ validateEdgeKeys rt (spec.nodes.map WorkflowNode.id) [] spec.edges = .ok ()
    ∧ ∀ node ∈ spec.nodes, validateNodeRoutes rt node (outgoingEdges spec.edges node.id) = .ok ()
  := by
  obtain ⟨_, -, h⟩ := Outcome.bind_eq_ok.mp spec.accepted
  obtain ⟨_, -, h⟩ := Outcome.bind_eq_ok.mp h
  obtain ⟨_, -, h⟩ := Outcome.bind_eq_ok.mp h
  obtain ⟨_, -, h⟩ := Outcome.bind_eq_ok.mp h
  obtain ⟨_, -, h⟩ := Outcome.bind_eq_ok.mp h
  obtain ⟨_, hids, h⟩ := Outcome.bind_eq_ok.mp h
  obtain ⟨_, hedges, h⟩ := Outcome.bind_eq_ok.mp h
  obtain ⟨cycle, -, h⟩ := Outcome.bind_eq_ok.mp h
  obtain _ | cycle := cycle
  · obtain ⟨ancestors, -, h⟩ := Outcome.bind_eq_ok.mp h
    obtain ⟨_, -, h⟩ := Outcome.bind_eq_ok.mp h
    obtain ⟨_, -, h⟩ := Outcome.bind_eq_ok.mp h
    obtain ⟨_, hroutes, -⟩ := Outcome.bind_eq_ok.mp h
    exact ⟨hids, hedges, forM_eq_ok.mp hroutes⟩
  · cases h

theorem nodup_ids :
  (spec.nodes.map WorkflowNode.id).Nodup
  := (nodup_of_validateNodeIds spec.validateDag_parts.1).1

theorem source_mem {edge : WorkflowEdge} (h : edge ∈ spec.edges) :
  edge.source ∈ spec.nodes.map WorkflowNode.id
  := (mem_of_validateEdgeKeys spec.validateDag_parts.2.1 edge h).1

theorem target_mem {edge : WorkflowEdge} (h : edge ∈ spec.edges) :
  edge.target ∈ spec.nodes.map WorkflowNode.id
  := (mem_of_validateEdgeKeys spec.validateDag_parts.2.1 edge h).2

/-- No node has an empty identifier. -/
theorem id_ne_nil {node : WorkflowNode} (h : node ∈ spec.nodes) :
  node.id ≠ []
  := by
  obtain ⟨_, -, haccepted⟩ := Outcome.bind_eq_ok.mp spec.accepted
  obtain ⟨_, -, haccepted⟩ := Outcome.bind_eq_ok.mp haccepted
  obtain ⟨_, hnodes, -⟩ := Outcome.bind_eq_ok.mp haccepted
  obtain ⟨_, hid, -⟩ := Outcome.bind_eq_ok.mp (forM_eq_ok.mp hnodes node h)
  intro hempty
  rw [require_eq_ok, hempty] at hid
  cases hid

/-- An edge that is followed on failure leaves a node that branches on failure. -/
theorem onFailure_of_failure_edge {edge : WorkflowEdge} {node : WorkflowNode}
    (hedge : edge ∈ spec.edges) (htrigger : edge.trigger = .failure) (hnode : node ∈ spec.nodes)
    (hid : node.id = edge.source) :
  node.onFailure = .branch
  := by
  apply onFailure_of_validateNodeRoutes (spec.validateDag_parts.2.2 node hnode) _ htrigger
  apply List.mem_filter.mpr
  exact ⟨hedge, by simpa using hid.symm⟩

end WorkflowSpec

end Workflow

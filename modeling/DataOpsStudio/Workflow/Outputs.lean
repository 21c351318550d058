import DataOpsStudio.Library.Dict
import DataOpsStudio.Library.Text

/-!
# Outputs of workflow nodes

A finished node exposes a few scalar outputs, drawn from its result through a whitelist
per kind of node.  Expressions and payloads of later nodes refer to them by
`${nodes.<id>.<field>}`.
-/

namespace Workflow

open Text

/-- An object of a payload or of the metadata of a result.  A float carries the text of its
shortest representation and whether it is finite. -/
inductive PyObject where
  | none
  | bool (b : Bool)
  | int (n : ℤ)
  | float (text : Text) (finite : Bool)
  | str (s : Text)
  | list (elements : List PyObject)
  | dict (items : List (Text × PyObject))

namespace PyObject

/-- Whether the object is a number, a text, a truth value or nothing. -/
def isScalar : PyObject → Bool
  | list _ => false
  | dict _ => false
  | _ => true

/-- The text of a scalar. -/
def str? : PyObject → Option Text
  | str s => some s
  | _ => Option.none

/-- What `str` makes of a scalar; the planner applies it to scalars only. -/
def toText : PyObject → Text
  | none => "None".toList
  | bool b => if b then "True".toList else "False".toList
  | int n => intText n
  | float text _ => text
  | str s => s
  | list _ => []
  | dict _ => []

/-- The literal of a scalar. -/
def literal (isPrintable : Char → Bool) : PyObject → Text
  | str s => Text.repr isPrintable s
  | value => value.toText

end PyObject

/-- The kinds of nodes that a workflow supports. -/
inductive NodeKind where
  | sqlQuery
  | sqlExplain
  | compareRun
  | lineageAnalyze
  | exportExcel
  | notify
  | sleep
  | branch
deriving DecidableEq

/-- The outputs of one node, by field. -/
abbrev NodeOutputs := Dict Text PyObject

/-- The outputs of the nodes, by identifier. -/
abbrev NodeOutputMap := Dict Text NodeOutputs

/-- The fields every node exposes. -/
def commonNodeOutputFields : List Text :=
  ["status".toList, "job_id".toList, "error_code".toList]

/-- The fields a node of a kind exposes besides the common ones. -/
def ownOutputFields : NodeKind → List Text
  | .sqlQuery => ["result_set_id".toList, "loaded_rows".toList]
  | .sqlExplain => ["result_set_id".toList, "loaded_rows".toList]
  | .compareRun =>
      ["run_id".toList, "same_count".toList, "only_source_count".toList,
        "only_target_count".toList, "diff_count".toList]
  | .lineageAnalyze =>
      ["run_id".toList, "cached".toList, "table_edge_count".toList,
        "column_edge_count".toList, "parse_error_count".toList]
  | .exportExcel => []
  | .notify => ["sent_count".toList]
  | .sleep => ["duration_seconds".toList]
  | .branch => ["selected_target".toList]

/-- The fields a node of a kind exposes. -/
def nodeOutputFieldsByKind (kind : NodeKind) : List Text :=
  commonNodeOutputFields ++ ownOutputFields kind

/-- The fields some node exposes. -/
def allNodeOutputFields : List Text :=
  [NodeKind.sqlQuery, .sqlExplain, .compareRun, .lineageAnalyze, .exportExcel, .notify, .sleep,
    .branch].flatMap nodeOutputFieldsByKind

/-! ### Outputs of a result -/

/-- The reference to what a job left behind. -/
structure ResultRef where
  metadata : Dict Text PyObject

/-- Copies a field of the metadata that passes a check under a name of its own. -/
def copyField (check : PyObject → Bool) (source : Dict Text PyObject) (field target : Text)
    (outputs : NodeOutputs) : NodeOutputs :=
  match source.get? field with
  | some value => if check value then outputs.set target value else outputs
  | none => outputs

/-- Copies a text that is not empty. -/
def copyString : Dict Text PyObject → Text → Text → NodeOutputs → NodeOutputs :=
  copyField fun value =>
    match value with
    | .str s => !s.isEmpty
    | _ => false

/-- Copies an integer. -/
def copyInt : Dict Text PyObject → Text → Text → NodeOutputs → NodeOutputs :=
  copyField fun value =>
    match value with
    | .int _ => true
    | _ => false

/-- Copies a truth value. -/
def copyBool : Dict Text PyObject → Text → Text → NodeOutputs → NodeOutputs :=
  copyField fun value =>
    match value with
    | .bool _ => true
    | _ => false

/-- The counts of a comparison, each under the name of its bucket. -/
def copyBucketCounts (metadata : Dict Text PyObject) (outputs : NodeOutputs) : NodeOutputs :=
  match metadata.get? "bucket_counts".toList with
  | some (.dict counts) =>
      ["same", "only_source", "only_target", "diff"].foldl
        (fun outputs bucket =>
          copyInt (Dict.ofList counts) bucket.toList (bucket.toList ++ "_count".toList) outputs)
        outputs
  | _ => outputs

/-- The outputs of a node of a kind, from what its job left behind. -/
def extractWorkflowNodeOutputs (kind : NodeKind) : Option ResultRef → NodeOutputs
  | none => Dict.empty
  | some result =>
      let metadata := result.metadata
      match kind with
      | .sqlQuery | .sqlExplain =>
          copyInt metadata "loaded_rows".toList "loaded_rows".toList
            (copyString metadata "result_set_id".toList "result_set_id".toList Dict.empty)
      | .compareRun =>
          copyBucketCounts metadata
            (copyString metadata "run_id".toList "run_id".toList Dict.empty)
      | .lineageAnalyze =>
          ["table_edge_count", "column_edge_count", "parse_error_count"].foldl
            (fun outputs field => copyInt metadata field.toList field.toList outputs)
            (copyBool metadata "cached".toList "cached".toList
              (copyString metadata "lineage_run_id".toList "run_id".toList Dict.empty))
      | .branch => copyString metadata "selected_target".toList "selected_target".toList Dict.empty
      | .sleep => copyInt metadata "duration_seconds".toList "duration_seconds".toList Dict.empty
      | .notify => copyInt metadata "sent_count".toList "sent_count".toList Dict.empty
      | .exportExcel => Dict.empty

/-! ### References to outputs -/

/-- What is in front of the identifier of a node. -/
def nodesMark : Text := "nodes.".toList

/-- The node and the field an expression refers to, if it refers to an output. -/
def parseNodeOutputReference (expression : Text) : Option (Text × Text) :=
  let candidate := strip expression
  if nodesMark.isPrefixOf candidate then
    match rpartition '.' (candidate.drop nodesMark.length) with
    | some (nodeId, field) =>
        if nodeId.isEmpty || !isIdentifier field then none else some (nodeId, field)
    | none => none
  else none

/-- The output an expression refers to. -/
def resolveNodeOutput (expression : Text) (outputs : NodeOutputMap) : Except Text PyObject :=
  match parseNodeOutputReference expression with
  | none => .error "invalid_node_output_reference".toList
  | some (nodeId, field) =>
      if !allNodeOutputFields.contains field then .error "forbidden_node_output_field".toList
      else
        match (outputs.get? nodeId).bind (fun fields => fields.get? field) with
        | none => .error "unresolved_node_output".toList
        | some value =>
            if value.isScalar then .ok value else .error "unsafe_node_output_value".toList

/-- The node an expression refers to an output of. -/
def referencedNode (expression : Text) : Option Text :=
  (parseNodeOutputReference expression).map Prod.fst

/-- What an expression refers to depends only on the outputs of the node it names. -/
theorem resolveNodeOutput_congr {expression : Text} {outputs outputs' : NodeOutputMap}
    (h : ∀ nodeId, referencedNode expression = some nodeId →
      outputs.get? nodeId = outputs'.get? nodeId) :
  resolveNodeOutput expression outputs = resolveNodeOutput expression outputs'
  := by
  rw [resolveNodeOutput, resolveNodeOutput]
  cases href : parseNodeOutputReference expression with
  | none => rfl
  | some reference =>
      have hnode := h reference.1 (by rw [referencedNode, href, Option.map_some])
      simp only [hnode]

mutual

/-- The expressions in the placeholders of an object. -/
def iterPlaceholderExpressions : PyObject → List Text
  | .str s => (placeholders s).map strip
  | .list elements => elementsExpressions elements
  | .dict items => itemsExpressions items
  | _ => []

/-- The expressions in the placeholders of the elements of a list. -/
def elementsExpressions : List PyObject → List Text
  | [] => []
  | element :: rest => iterPlaceholderExpressions element ++ elementsExpressions rest

/-- The expressions in the placeholders of the values of a dictionary. -/
def itemsExpressions : List (Text × PyObject) → List Text
  | [] => []
  | (_, value) :: rest => iterPlaceholderExpressions value ++ itemsExpressions rest

end

end Workflow

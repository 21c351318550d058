import DataOpsStudio.Workflow.When

/-!
# Interpolation of payloads

The texts inside the payload of a node are templates.  A placeholder stands for a variable,
for a variable passed through a filter, or for an output of an earlier node; a text that is
one reference to an output keeps the type of the output.
-/

namespace Workflow

open Text

/-- Whether a text is a number: digits with an optional sign and an optional fraction. -/
def isNumeric (s : Text) : Bool :=
  let unsigned := match s with
    | '-' :: rest => rest
    | _ => s
  match unsigned.span isDecimalDigit with
  | (whole, []) => !whole.isEmpty
  | (whole, '.' :: fraction) => !whole.isEmpty && !fraction.isEmpty && fraction.all isDecimalDigit
  | _ => false

/-- The elements of a variable; a text is its only element. -/
def VariableValue.elements : VariableValue → List Text
  | .str s => [s]
  | .list elements => elements

/-- An element of a list of constants: a number as it is, a text in single quotes. -/
def formatSqlElement (element : Text) : Text :=
  if isNumeric element then element
  else "'".toList ++ replace "'".toList "''".toList element ++ "'".toList

/-- The constants of a variable, as the inside of an `IN (…)`. -/
def formatSqlIn (value : VariableValue) : Text :=
  if value.elements.isEmpty then "NULL".toList
  else join ", ".toList (value.elements.map formatSqlElement)

/-- The elements of a variable with commas between them. -/
def formatCsv (value : VariableValue) : Text := join ",".toList value.elements

/-- The variable of a name. -/
def resolveVariable (name : Text) (vars : Variables) (expression : Text) :
    Except Text VariableValue :=
  if name.contains '.' || "nodes".toList.isPrefixOf name then
    .error ("unsupported_param_reference: ".toList ++ expression)
  else
    match vars.get? name with
    | none => .error ("unresolved_param_variable: ".toList ++ name)
    | some value => .ok value

/-- What a variable with a filter stands for. -/
def filteredText (vars : Variables) (expression name filter : Text) : Except Text Text :=
  if (parseNodeOutputReference name).isSome then .error "unsupported_node_output_filter".toList
  else if nodesMark.isPrefixOf name then .error "invalid_node_output_reference".toList
  else
    (resolveVariable name vars expression).bind fun value =>
      if filter = "sql_in".toList then .ok (formatSqlIn value)
      else if filter = "csv".toList then .ok (formatCsv value)
      else .error ("unsupported_param_filter: ".toList ++ expression)

/-- What a variable without a filter stands for. -/
def plainText (vars : Variables) (expression : Text) : Except Text Text :=
  if nodesMark.isPrefixOf expression then .error "invalid_node_output_reference".toList
  else
    (resolveVariable expression vars expression).bind fun value =>
      match value with
      | .list _ => .error ("list_variable_requires_filter: ".toList ++ expression)
      | .str s => .ok s

/-- The text a placeholder of a payload stands for. -/
def placeholderText (vars : Variables) (nodeOutputs : NodeOutputMap) (raw : Text) :
    Except Text Text :=
  let expression := strip raw
  if (parseNodeOutputReference expression).isSome then
    (resolveNodeOutput expression nodeOutputs).map PyObject.toText
  else
    match rpartition '|' expression with
    | some (rawName, rawFilter) =>
        filteredText vars expression (strip rawName) (strip rawFilter)
    | none => plainText vars expression

/-- The expression of a text that is one placeholder and nothing else. -/
def exactPlaceholder? (s : Text) : Option Text :=
  match pieces s with
  | [.placeholder expression] => some (strip expression)
  | _ => none

/-- What a text of a payload is rendered to. -/
def interpolateStr (s : Text) (vars : Variables) (nodeOutputs : NodeOutputMap) :
    Except Text PyObject :=
  match (exactPlaceholder? s).filter (fun e => (parseNodeOutputReference e).isSome) with
  | some expression => resolveNodeOutput expression nodeOutputs
  | none => (substitute (placeholderText vars nodeOutputs) s).map PyObject.str

mutual

/-- What an object of a payload is rendered to. -/
def interpolateValue (vars : Variables) (nodeOutputs : NodeOutputMap) :
    PyObject → Except Text PyObject
  | .str s => interpolateStr s vars nodeOutputs
  | .dict items => (interpolateItems vars nodeOutputs items).map PyObject.dict
  | .list elements => (interpolateElements vars nodeOutputs elements).map PyObject.list
  | value => .ok value

/-- What the elements of a list are rendered to. -/
def interpolateElements (vars : Variables) (nodeOutputs : NodeOutputMap) :
    List PyObject → Except Text (List PyObject)
  | [] => .ok []
  | element :: rest =>
      (interpolateValue vars nodeOutputs element).bind fun rendered =>
        (interpolateElements vars nodeOutputs rest).map (rendered :: ·)

/-- What the items of a dictionary are rendered to. -/
def interpolateItems (vars : Variables) (nodeOutputs : NodeOutputMap) :
    List (Text × PyObject) → Except Text (List (Text × PyObject))
  | [] => .ok []
  | (key, value) :: rest =>
      (interpolateValue vars nodeOutputs value).bind fun rendered =>
        (interpolateItems vars nodeOutputs rest).map ((key, rendered) :: ·)

end

/-- A payload with its placeholders rendered. -/
def interpolatePayload (payload : Dict Text PyObject) (vars : Variables)
    (nodeOutputs : NodeOutputMap) : Except Text (Dict Text PyObject) :=
  (interpolateItems vars nodeOutputs payload.items).map Dict.ofList

/-! ### What a payload reads -/

/-- The nodes whose outputs a payload reads. -/
def payloadReferences (payload : Dict Text PyObject) : List Text :=
  (itemsExpressions payload.items).filterMap referencedNode

section Congruence

variable {vars : Variables} {outputs outputs' : NodeOutputMap}

/-- Two collections of outputs agree on the nodes that some expressions refer to. -/
def AgreeOn (outputs outputs' : NodeOutputMap) (expressions : List Text) : Prop :=
  ∀ e ∈ expressions, ∀ nodeId, referencedNode e = some nodeId →
    outputs.get? nodeId = outputs'.get? nodeId

theorem interpolateStr_congr {s : Text}
    (h : AgreeOn outputs outputs' ((placeholders s).map strip)) :
  interpolateStr s vars outputs = interpolateStr s vars outputs'
  := by
  have hresolve : ∀ e ∈ placeholders s,
      resolveNodeOutput (strip e) outputs = resolveNodeOutput (strip e) outputs' := by
    intro e he
    apply resolveNodeOutput_congr
    intro nodeId hnode
    apply h (strip e) _ nodeId hnode
    apply List.mem_map_of_mem he
  have hsubstitute : substitute (placeholderText vars outputs) s
      = substitute (placeholderText vars outputs') s := by
    apply substitute_congr
    intro e he
    simp only [placeholderText, hresolve e he]
  rw [interpolateStr, interpolateStr, hsubstitute]
  cases hexact : (exactPlaceholder? s).filter (fun e => (parseNodeOutputReference e).isSome) with
  | none => rfl
  | some expression =>
      obtain ⟨hexpression, -⟩ := Option.filter_eq_some_iff.mp hexact
      rw [exactPlaceholder?] at hexpression
      split at hexpression
      · rename_i e hpieces
        obtain rfl := Option.some.inj hexpression
        apply hresolve
        rw [placeholders, hpieces]
        apply List.mem_singleton.mpr rfl
      · cases hexpression

mutual

theorem interpolateValue_congr (value : PyObject)
    (h : AgreeOn outputs outputs' (iterPlaceholderExpressions value)) :
  interpolateValue vars outputs value = interpolateValue vars outputs' value
  := by
  match value with
  | .str s =>
      rw [interpolateValue, interpolateValue]
      apply interpolateStr_congr
      rw [iterPlaceholderExpressions] at h
      apply h
  | .dict items =>
      rw [iterPlaceholderExpressions] at h
      rw [interpolateValue, interpolateItems_congr items h, interpolateValue]
  | .list elements =>
      rw [iterPlaceholderExpressions] at h
      rw [interpolateValue, interpolateElements_congr elements h, interpolateValue]
  | .none => rfl
  | .bool b => rfl
  | .int n => rfl
  | .float text finite => rfl

theorem interpolateElements_congr (elements : List PyObject)
    (h : AgreeOn outputs outputs' (elementsExpressions elements)) :
  interpolateElements vars outputs elements
    = interpolateElements vars outputs' elements
  := by
  match elements with
  | [] => rfl
  | element :: rest =>
      rw [elementsExpressions] at h
      rw [interpolateElements, interpolateElements,
        interpolateValue_congr element (fun e he => h e (List.mem_append_left _ he)),
        interpolateElements_congr rest (fun e he => h e (List.mem_append_right _ he))]

theorem interpolateItems_congr (items : List (Text × PyObject))
    (h : AgreeOn outputs outputs' (itemsExpressions items)) :
  interpolateItems vars outputs items = interpolateItems vars outputs' items
  := by
  match items with
  | [] => rfl
  | (key, value) :: rest =>
      rw [itemsExpressions] at h
      rw [interpolateItems, interpolateItems,
        interpolateValue_congr value (fun e he => h e (List.mem_append_left _ he)),
        interpolateItems_congr rest (fun e he => h e (List.mem_append_right _ he))]

end

/-- What a payload is rendered to depends only on the outputs of the nodes it reads. -/
theorem interpolatePayload_congr {payload : Dict Text PyObject}
    (h : ∀ nodeId ∈ payloadReferences payload, outputs.get? nodeId = outputs'.get? nodeId) :
  interpolatePayload payload vars outputs = interpolatePayload payload vars outputs'
  := by
  rw [interpolatePayload, interpolatePayload, interpolateItems_congr payload.items]
  intro e he nodeId hnode
  apply h nodeId
  apply List.mem_filterMap.mpr
  use e, he

end Congruence

end Workflow

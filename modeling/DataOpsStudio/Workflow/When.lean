import DataOpsStudio.Workflow.Outputs

/-!
# Conditions

A condition of a node or of an edge is a text.  Its syntactic sugar is rewritten, its
placeholders are replaced by literals, the result is parsed as an expression of the
language, and the tree is evaluated if every construct of it is on a whitelist.  What the
interpreter does with constants, and its parser, are parameters.
-/

namespace Workflow

open Text

/-- A value of a variable. -/
inductive VariableValue where
  | str (s : Text)
  | list (elements : List Text)
deriving DecidableEq

/-- The variables of a run, frozen when it is triggered. -/
abbrev Variables := Dict Text VariableValue

/-! ### Trees -/

/-- The connectives. -/
inductive BoolOp where
  | and
  | or
deriving DecidableEq

/-- The operators with one operand. -/
inductive UnaryOp where
  | not
  | uSub
  | uAdd
  | invert
deriving DecidableEq

/-- The comparison operators. -/
inductive CmpOp where
  | eq
  | notEq
  | lt
  | ltE
  | gt
  | gtE
  | is
  | isNot
  | isIn
  | notIn
deriving DecidableEq

/-- The tree of an expression.  A construct that no condition may use is kept by name only. -/
inductive PyExpr (Const : Type) where
  | constant (value : Const)
  | boolOp (op : BoolOp) (values : List (PyExpr Const))
  | unaryOp (op : UnaryOp) (operand : PyExpr Const)
  | compare (left : PyExpr Const) (comparisons : List (CmpOp × PyExpr Const))
  | other (name : Text)

/-- What is used of the interpreter: its constants, how they are tested, signed and
compared (a comparison may raise), its parser of expressions, and two properties of
characters. -/
structure WhenRuntime where
  Const : Type
  ofBool : Bool → Const
  truthy : Const → Bool
  signed : UnaryOp → Const → Option Const
  compare : CmpOp → Const → Const → Except Text Bool
  parse : Text → Except Text (PyExpr Const)
  isWord : Char → Bool
  isPrintable : Char → Bool

/-- The name of a connective. -/
def BoolOp.name : BoolOp → Text
  | and => "And".toList
  | or => "Or".toList

/-- The name of an operator with one operand. -/
def UnaryOp.name : UnaryOp → Text
  | not => "Not".toList
  | uSub => "USub".toList
  | uAdd => "UAdd".toList
  | invert => "Invert".toList

/-- The name of a comparison operator. -/
def CmpOp.name : CmpOp → Text
  | eq => "Eq".toList
  | notEq => "NotEq".toList
  | lt => "Lt".toList
  | ltE => "LtE".toList
  | gt => "Gt".toList
  | gtE => "GtE".toList
  | is => "Is".toList
  | isNot => "IsNot".toList
  | isIn => "In".toList
  | notIn => "NotIn".toList

/-- The levels of two neighbouring trees, side by side. -/
def beside : List (List Text) → List (List Text) → List (List Text)
  | [], right => right
  | left, [] => left
  | l :: left, r :: right => (l ++ r) :: beside left right

mutual

/-- The names of the constructs of a tree, level by level. -/
def levels {Const : Type} : PyExpr Const → List (List Text)
  | .constant _ => [["Constant".toList]]
  | .boolOp op values => ["BoolOp".toList] :: beside [[op.name]] (levelsOfValues values)
  | .unaryOp op operand => ["UnaryOp".toList] :: beside [[op.name]] (levels operand)
  | .compare left comparisons =>
      ["Compare".toList]
        :: beside (levels left)
          (beside [operatorNames comparisons] (levelsOfComparisons comparisons))
  | .other name => [[name]]

/-- The levels of the operands of a connective. -/
def levelsOfValues {Const : Type} : List (PyExpr Const) → List (List Text)
  | [] => []
  | value :: rest => beside (levels value) (levelsOfValues rest)

/-- The levels of the right-hand sides of a chain of comparisons. -/
def levelsOfComparisons {Const : Type} : List (CmpOp × PyExpr Const) → List (List Text)
  | [] => []
  | (_, value) :: rest => beside (levels value) (levelsOfComparisons rest)

/-- The names of the operators of a chain of comparisons. -/
def operatorNames {Const : Type} : List (CmpOp × PyExpr Const) → List Text
  | [] => []
  | (op, _) :: rest => op.name :: operatorNames rest

end

/-- The constructs a condition may use. -/
def allowedAstNodes : List Text :=
  ["Expression", "BoolOp", "UnaryOp", "Compare", "Constant", "Load", "And", "Or", "Not", "Eq",
    "NotEq", "Lt", "LtE", "Gt", "GtE", "USub", "UAdd"].map String.toList

/-- The first construct, level by level, that a condition may not use. -/
def forbiddenConstruct? {Const : Type} (tree : PyExpr Const) : Option Text :=
  (levels tree).flatten.find? (fun name => !allowedAstNodes.contains name)

/-! ### Evaluation -/

section Evaluation

variable (rt : WhenRuntime)

/-- Compares two constants. -/
def compareConstants (op : CmpOp) (left right : rt.Const) : Except Text Bool :=
  match op with
  | .eq | .notEq | .lt | .ltE | .gt | .gtE =>
      match rt.compare op left right with
      | .ok result => .ok result
      | .error message => .error ("incomparable_when_operands: ".toList ++ message)
  | _ => .error ("forbidden_when_construct: 不允许的比较运算 ".toList ++ op.name)

mutual

/-- The value of a tree. -/
def evalNode : PyExpr rt.Const → Except Text rt.Const
  | .constant value => .ok value
  | .boolOp op values => evalValues op (rt.ofBool (op = .and)) values
  | .unaryOp op operand =>
      match evalNode operand with
      | .error message => .error message
      | .ok value =>
          if op = .not then .ok (rt.ofBool (!rt.truthy value))
          else
            match if op = .uSub ∨ op = .uAdd then rt.signed op value else none with
            | some result => .ok result
            | none =>
                .error ("invalid_when_operand: 一元运算 ".toList ++ op.name
                  ++ " 的操作数非法".toList)
  | .compare left comparisons =>
      match evalNode left with
      | .error message => .error message
      | .ok value => evalComparisons value comparisons
  | .other name => .error ("forbidden_when_construct: 不允许的构造 ".toList ++ name)

/-- The value of a connective: that of the first operand that decides it, or of the last. -/
def evalValues (op : BoolOp) (value : rt.Const) :
    List (PyExpr rt.Const) → Except Text rt.Const
  | [] => .ok value
  | child :: rest =>
      match evalNode child with
      | .error message => .error message
      | .ok result =>
          if op = .and ∧ rt.truthy result = false ∨ op = .or ∧ rt.truthy result = true then
            .ok result
          else evalValues op result rest

/-- The value of a chain of comparisons: false at the first that fails. -/
def evalComparisons (left : rt.Const) :
    List (CmpOp × PyExpr rt.Const) → Except Text rt.Const
  | [] => .ok (rt.ofBool true)
  | (op, comparator) :: rest =>
      match evalNode comparator with
      | .error message => .error message
      | .ok right =>
          match compareConstants rt op left right with
          | .error message => .error message
          | .ok false => .ok (rt.ofBool false)
          | .ok true => evalComparisons right rest

end

/-- Replaces `!` by `not`, unless it is part of a comparison. -/
def rewriteBang (s : Text) : Text :=
  rewrite
    (fun before t =>
      match t with
      | '!' :: rest =>
          if (before.map (fun c => ['=', '!', '<', '>'].contains c)).getD false then none
          else if rest.head? = some '=' then none
          else some (1, " not ".toList)
      | _ => none)
    0 none s

/-- Replaces a word where it stands alone. -/
def rewriteWord (word replacement : Text) (s : Text) : Text :=
  rewrite
    (fun before t =>
      if word.isPrefixOf t && !(before.map rt.isWord).getD false
          && !((t.drop word.length).head?.map rt.isWord).getD false then
        some (word.length, replacement)
      else none)
    0 none s

/-- A condition without its syntactic sugar. -/
def sugared (expression : Text) : Text :=
  rewriteWord rt "false".toList "False".toList
    (rewriteWord rt "true".toList "True".toList
      (rewriteWord rt "null".toList "None".toList
        (rewriteBang
          (replace "||".toList " or ".toList (replace "&&".toList " and ".toList expression)))))

/-- The literal a placeholder of a condition stands for. -/
def whenLiteral (vars : Variables) (nodeOutputs : NodeOutputMap) (expression : Text) :
    Except Text Text :=
  let name := strip expression
  if (parseNodeOutputReference name).isSome then
    (resolveNodeOutput name nodeOutputs).map (PyObject.literal rt.isPrintable)
  else if nodesMark.isPrefixOf name then .error "invalid_node_output_reference".toList
  else
    match vars.get? name with
    | none =>
        .error ("unknown_when_variable: 未知变量 ".toList ++ Text.repr rt.isPrintable name)
    | some (.list _) =>
        .error ("list_variable_in_when: when 不支持 list 变量 ".toList
          ++ Text.repr rt.isPrintable name)
    | some (.str value) => .ok (Text.repr rt.isPrintable value)

/-- The longest condition. -/
def maxWhenLength : ℕ := 512

/-- The truth value of a condition that has been rendered. -/
def evaluateRendered (rendered : Text) : Except Text Bool :=
  match rt.parse (strip rendered) with
  | .error message => .error ("invalid_when_syntax: ".toList ++ message)
  | .ok tree =>
      match forbiddenConstruct? tree with
      | some name => .error ("forbidden_when_construct: 不允许的构造 ".toList ++ name)
      | none => (evalNode rt tree).map rt.truthy

/-- The truth value of a condition; without a condition it is true. -/
def evaluateWhen (expression : Option Text) (vars : Variables)
    (nodeOutputs : NodeOutputMap) : Except Text Bool :=
  match expression with
  | none => .ok true
  | some expression =>
      if (strip expression).isEmpty then .ok true
      else if maxWhenLength < expression.length then
        .error ("when_too_long: when 表达式超过 512 字符".toList)
      else
        (substitute (whenLiteral rt vars nodeOutputs) (sugared rt expression)).bind
          (evaluateRendered rt)

/-! ### What a condition reads -/

/-- The nodes whose outputs a condition reads. -/
def whenReferences : Option Text → List Text
  | none => []
  | some expression =>
      (placeholders (sugared rt expression)).filterMap (fun e => referencedNode (strip e))

/-- The value of a condition depends only on the outputs of the nodes it reads. -/
theorem evaluateWhen_congr {expression : Option Text} {vars : Variables}
    {outputs outputs' : NodeOutputMap}
    (h : ∀ nodeId ∈ whenReferences rt expression,
      outputs.get? nodeId = outputs'.get? nodeId) :
  evaluateWhen rt expression vars outputs = evaluateWhen rt expression vars outputs'
  := by
  obtain _ | expression := expression
  · rfl
  have hliteral : substitute (whenLiteral rt vars outputs) (sugared rt expression)
      = substitute (whenLiteral rt vars outputs') (sugared rt expression) := by
    apply substitute_congr
    intro e he
    have hresolve : resolveNodeOutput (strip e) outputs = resolveNodeOutput (strip e) outputs' := by
      apply resolveNodeOutput_congr
      intro nodeId hnode
      apply h nodeId
      apply List.mem_filterMap.mpr
      use e, he
    simp only [whenLiteral, hresolve]
  simp only [evaluateWhen, hliteral]

end Evaluation

end Workflow

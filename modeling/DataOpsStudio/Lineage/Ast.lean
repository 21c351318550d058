import DataOpsStudio.Library.Text

/-!
# Syntax trees of statements

The trees that the parser of SQL gives, as far as the analysis of lineage looks at them: columns,
tables, queries in parentheses, common table expressions and set operations, and any other node with
its arguments.  A clause that may be missing is a list.
-/

namespace Lineage

open Text

/-! ### Trees -/

/-- What a node is, apart from those with a constructor of their own. -/
inductive Kind where
  | aggFunc
  | cast
  | func
  | plain
deriving DecidableEq

/-- A syntax tree.  A column has an identity, since one column may occur several times. -/
inductive Expr where
  | column (id : ℕ) (tableAlias name : Text)
  | aliased (this : Expr) (aliasName : Text)
  | table (db name aliasName : Text) (joins : List Expr)
  | subquery (this : Expr) (aliasName : Text) (rest : List Expr)
  | cte (this : Expr) (aliasName : Text)
  | select (expressions fromClause joins whereClause group rest : List Expr)
  | setOperation (this expression : Expr) (rest : List Expr)
  | join (this : Expr) (on : List Expr)
  | other (kind : Kind) (name : Text) (args : List Expr)

/-- Rows of nodes side by side. -/
def besides {α : Type} : List (List α) → List (List α) → List (List α)
  | [], rows => rows
  | rows, [] => rows
  | row :: rows, row' :: rows' => (row ++ row') :: besides rows rows'

mutual

/-- The nodes of a tree, level by level. -/
def Expr.levels : Expr → List (List Expr)
  | .column id tableAlias name => [[.column id tableAlias name]]
  | .aliased this aliasName => [.aliased this aliasName] :: this.levels
  | .table db name aliasName joins => [.table db name aliasName joins] :: levelsOf joins
  | .subquery this aliasName rest => [.subquery this aliasName rest] :: besides this.levels (levelsOf rest)
  | .cte this aliasName => [.cte this aliasName] :: this.levels
  | .select expressions fromClause joins whereClause group rest =>
      [.select expressions fromClause joins whereClause group rest]
        :: besides (levelsOf expressions) (besides (levelsOf fromClause) (besides (levelsOf joins)
          (besides (levelsOf whereClause) (besides (levelsOf group) (levelsOf rest)))))
  | .setOperation this expression rest =>
      [.setOperation this expression rest]
        :: besides this.levels (besides expression.levels (levelsOf rest))
  | .join this on => [.join this on] :: besides this.levels (levelsOf on)
  | .other kind name args => [.other kind name args] :: levelsOf args

/-- The nodes of some trees, level by level. -/
def levelsOf : List Expr → List (List Expr)
  | [] => []
  | e :: es => besides e.levels (levelsOf es)

end

/-- The nodes of a tree, breadth first. -/
def Expr.walk (e : Expr) : List Expr := e.levels.flatten

/-- The name of a node: its alias, or else its own name. -/
def Expr.aliasOrName : Expr → Text
  | .column _ _ name => name
  | .aliased _ aliasName => aliasName
  | .table _ name aliasName _ => if aliasName = [] then name else aliasName
  | .subquery _ aliasName _ => aliasName
  | .cte _ aliasName => aliasName
  | .other _ name _ => name
  | _ => []

/-! ### Columns -/

/-- A column: its identity, the alias it is qualified by, and its name. -/
structure Column where
  id : ℕ
  tableAlias : Text
  name : Text
deriving DecidableEq

/-- A node as a column. -/
def Expr.column? : Expr → Option Column
  | .column id tableAlias name => some ⟨id, tableAlias, name⟩
  | _ => none

/-- The columns in a tree, breadth first. -/
def Expr.columns (e : Expr) : List Column := e.walk.filterMap Expr.column?

/-! ### Queries -/

/-- `_query_branches`, the branches of the set operations of a query. -/
def Expr.branches : Expr → List Expr
  | .setOperation this expression _ => this.branches ++ expression.branches
  | .subquery this _ _ => this.branches
  | .select expressions fromClause joins whereClause group rest =>
      [.select expressions fromClause joins whereClause group rest]
  | _ => []

/-- The items of a branch. -/
def Expr.expressions : Expr → List Expr
  | .select expressions _ _ _ _ _ => expressions
  | _ => []

/-- `_table_name`, with the schema in front. -/
def tableName (defaultSchema : Option Text) (db name : Text) : Text :=
  let schemaName := if db = [] then defaultSchema.getD [] else db
  if schemaName = [] then name else schemaName ++ ".".toList ++ name

/-! ### Transformations -/

/-- How a value gets to its target. -/
inductive TransformationKind where
  | direct
  | indirect
deriving DecidableEq

/-- What happens to a value on the way. -/
inductive TransformationSubtype where
  | direct
  | aggregation
  | cast
  | transformation
  | expression
  | filter
  | join
deriving DecidableEq

/-- Whether a node is of a kind. -/
def Expr.isKind (kind : Kind) : Expr → Bool
  | .other kind' _ _ => kind == kind'
  | _ => false

/-- An item without its alias. -/
def Expr.unalias : Expr → Expr
  | .aliased this _ => this
  | e => e

/-- `_transformation_subtype`. -/
def transformationSubtype (e : Expr) : TransformationSubtype :=
  let e := e.unalias
  if e.column?.isSome then .direct
  else if e.walk.any (Expr.isKind .aggFunc) then .aggregation
  else if e.walk.any (Expr.isKind .cast) then .cast
  else if e.walk.any (Expr.isKind .func) then .transformation
  else .expression

/-- A mapping of a source column to a target column. -/
structure InsertMapping where
  targetTable : Text
  targetColumn : Text
  sourceTable : Text
  sourceColumn : Text
  statementIndex : ℕ
  transformation : TransformationKind
  transformationSubtype : TransformationSubtype
deriving DecidableEq

/-- `_append_unique`. -/
def appendUnique {α : Type} [DecidableEq α] (items : List α) (item : α) : List α :=
  if item ∈ items then items else items ++ [item]

theorem mem_appendUnique_iff {α : Type} [DecidableEq α] {items : List α} {item other : α} :
  other ∈ appendUnique items item ↔ other ∈ items ∨ other = item
  := by
  rw [appendUnique]
  split
  · rename_i hmem
    constructor
    · exact .inl
    · rintro (h | rfl)
      · exact h
      · exact hmem
  · rw [List.mem_append, List.mem_singleton]

theorem mem_foldl_appendUnique_iff {α : Type} [DecidableEq α] {items new : List α} {other : α} :
  other ∈ new.foldl appendUnique items ↔ other ∈ items ∨ other ∈ new
  := by
  induction new generalizing items with
  | nil =>
      rw [List.foldl_nil]
      exact (or_iff_left List.not_mem_nil).symm
  | cons item new ih => rw [List.foldl_cons, ih, mem_appendUnique_iff, List.mem_cons, or_assoc]

end Lineage

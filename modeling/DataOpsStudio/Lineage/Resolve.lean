import DataOpsStudio.Lineage.Ast

/-!
# Sources of assigned values

The columns of a value that a statement assigns are followed through derived tables and common table
expressions down to the columns of tables.  On every level the first column of the projection in the
first branch is followed alone, and so only those sources are found to which such a straight way
leads.
-/

namespace Lineage

open Text

section Resolve

variable (lower : Text → Text) (defaultSchema : Option Text)

/-! ### Relations -/

/-- `_cte_map`, the common table expressions of a statement by name in lower case. -/
def cteMap (statement : Expr) : List (Text × Expr) :=
  statement.walk.filterMap (fun node =>
    match node with
    | .cte this aliasName => if aliasName = [] then none else some (lower aliasName, this)
    | _ => none)

/-- The common table expression of a name; the last one where there are several. -/
def cte? (ctes : List (Text × Expr)) (name : Text) : Option Expr :=
  (ctes.reverse.find? (fun entry => entry.1 == lower name)).map Prod.snd

/-- The table that a relation is, with its name; nothing for one whose rows a query gives. -/
def physicalTable? (ctes : List (Text × Expr)) : Expr → Option Text
  | .table db name _ _ =>
      if db = [] ∧ (cte? lower ctes name).isSome = true then none
      else some (tableName defaultSchema db name)
  | _ => none

/-- The query that gives the rows of a relation. -/
def innerQuery? (ctes : List (Text × Expr)) : Expr → Option Expr
  | .subquery this _ _ => some this
  | .table _ name _ _ => cte? lower ctes name
  | _ => none

/-- Whether a node is a table. -/
def Expr.isTable : Expr → Bool
  | .table .. => true
  | _ => false

/-- Whether a node is a relation that columns may refer to. -/
def Expr.isRelation : Expr → Bool
  | .table .. => true
  | .subquery _ aliasName _ => aliasName != []
  | _ => false

/-- `_relation_for_alias`, as it is written or else in any case; without an alias the first table. -/
def relationForAlias (scope : Expr) (tableAlias : Text) : Option Expr :=
  let relations := scope.walk.filter Expr.isRelation
  if tableAlias = [] then relations.find? Expr.isTable
  else (relations.find? (fun node => node.aliasOrName == tableAlias)).or
    (relations.find? (fun node => lower node.aliasOrName == lower tableAlias))

/-- Whether an item has a name, in any case. -/
def hasName (name : Text) (item : Expr) : Bool :=
  item.aliasOrName != [] && lower item.aliasOrName == lower name

/-- `_projection_named`. -/
def projectionNamed (branch : Expr) (name : Text) : Option Expr :=
  branch.expressions.find? (hasName lower name)

/-! ### Resolution -/

/-- A column of a table, with the strongest transformation on the way to it. -/
structure Resolved where
  table : Text
  name : Text
  subtype : Option TransformationSubtype

def resolutionDepthLimit : ℕ := 8

/-- The first transformation that is not plain. -/
def strongest (subtype : Option TransformationSubtype) (item : Expr) :
    Option TransformationSubtype :=
  let itemSubtype := transformationSubtype item
  if subtype = none ∧ itemSubtype ≠ .direct then some itemSubtype else subtype

/-- The loop of `_resolve_column_source` with some turns left. -/
def resolveFrom (ctes : List (Text × Expr)) :
    ℕ → Expr → Text → Text → Option TransformationSubtype → Option Resolved
  | 0, _, _, _, _ => none
  | turns + 1, current, tableAlias, name, subtype =>
      match relationForAlias lower current tableAlias with
      | none => none
      | some relation =>
          match physicalTable? lower defaultSchema ctes relation with
          | some table => some ⟨table, name, subtype⟩
          | none =>
              match ((innerQuery? lower ctes relation).map Expr.branches).getD [] with
              | [] => none
              | branch :: _ =>
                  match projectionNamed lower branch name with
                  | none => none
                  | some item =>
                      match item.columns with
                      | [] => none
                      | column :: _ =>
                          resolveFrom ctes turns branch column.tableAlias column.name
                            (strongest subtype item)

/-- `_resolve_column_source`. -/
def resolveColumnSource (ctes : List (Text × Expr)) (scope : Expr) (column : Column) :
    Option Resolved :=
  resolveFrom lower defaultSchema ctes resolutionDepthLimit scope column.tableAlias column.name none

/-! ### Mappings of a value -/

/-- `_predicate_columns`, the columns of the conditions of a query. -/
def predicateColumns : Expr → List (Column × TransformationSubtype)
  | .select _ _ joins whereClause _ _ =>
      whereClause.flatMap (fun clause => clause.columns.map (fun column => (column, .filter)))
        ++ joins.flatMap (fun node =>
          match node with
          | .join _ on => on.flatMap (fun clause => clause.columns.map (fun column => (column, .join)))
          | _ => [])
  | _ => []

/-- The queries in parentheses in a value. -/
def innerSelects (value : Expr) : List Expr :=
  value.walk.filterMap (fun node =>
    match node with
    | .subquery (.select expressions fromClause joins whereClause group rest) _ _ =>
        some (.select expressions fromClause joins whereClause group rest)
    | _ => none)

/-- The columns of the conditions of the queries in a value. -/
def predicatePairs (value : Expr) : List (Column × TransformationSubtype) :=
  (innerSelects value).flatMap predicateColumns

/-- The columns that groups are formed by. -/
def groupColumns : Expr → List Column
  | .select _ _ _ _ group _ => group.flatMap Expr.columns
  | _ => []

/-- The columns that are not sources of a value. -/
def excludedIds (value : Expr) : List ℕ :=
  (predicatePairs value).map (fun pair => pair.1.id)
    ++ ((innerSelects value).flatMap groupColumns).map Column.id

/-- The columns that a value is made of. -/
def valueColumns (value : Expr) : List Column :=
  value.columns.filter (fun column => !(excludedIds value).contains column.id)

/-- A column of a table that a value is assigned to. -/
structure Target where
  table : Text
  column : Text
  statementIndex : ℕ

/-- The mapping of a source that was found; the target itself is no source. -/
def mappingOf (target : Target) (transformation : TransformationKind)
    (subtype : Resolved → TransformationSubtype) (resolved : Resolved) : Option InsertMapping :=
  if resolved.table = target.table then none
  else some {
    targetTable := target.table
    targetColumn := target.column
    sourceTable := resolved.table
    sourceColumn := resolved.name
    statementIndex := target.statementIndex
    transformation := transformation
    transformationSubtype := subtype resolved }

/-- The mappings of the columns of a value. -/
def directMappings (ctes : List (Text × Expr)) (scope value : Expr) (target : Target) :
    List InsertMapping :=
  let valueSubtype := transformationSubtype value
  (valueColumns value).filterMap (fun column =>
    (resolveColumnSource lower defaultSchema ctes scope column).bind (mappingOf target .direct
      (fun resolved =>
        if valueSubtype ≠ .direct then valueSubtype else resolved.subtype.getD valueSubtype)))

/-- `_append_predicate_mappings`, the mappings of the columns of conditions. -/
def predicateMappings (ctes : List (Text × Expr)) (scope : Expr) (target : Target)
    (predicates : List (Column × TransformationSubtype)) : List InsertMapping :=
  predicates.filterMap (fun pair =>
    (resolveColumnSource lower defaultSchema ctes scope pair.1).bind
      (mappingOf target .indirect (fun _ => pair.2)))

/-- `_append_value_mappings`. -/
def appendValueMappings (ctes : List (Text × Expr)) (scope value : Expr) (target : Target)
    (insertMappings : List InsertMapping) : List InsertMapping :=
  (predicateMappings lower defaultSchema ctes scope target (predicatePairs value)).foldl appendUnique
    ((directMappings lower defaultSchema ctes scope value target).foldl appendUnique insertMappings)

/-! ### Sources -/

/-- A column of a table is a source of a column in a scope.  The column belongs to a table, or to the
item of its name, and then the sources of all columns of this item are its sources, and so are those
of the items at the same place in the other branches. -/
inductive IsSource (ctes : List (Text × Expr)) : Expr → Text → Text → Text × Text → Prop where
  | physical {scope relation : Expr} {tableAlias name table : Text}
      (hrelation : relationForAlias lower scope tableAlias = some relation)
      (htable : physicalTable? lower defaultSchema ctes relation = some table) :
      IsSource ctes scope tableAlias name (table, name)
  | derived {scope relation query first branch item : Expr} {rest : List Expr}
      {tableAlias name : Text} {place : ℕ} {column : Column} {source : Text × Text}
      (hrelation : relationForAlias lower scope tableAlias = some relation)
      (htable : physicalTable? lower defaultSchema ctes relation = none)
      (hquery : innerQuery? lower ctes relation = some query)
      (hbranches : query.branches = first :: rest)
      (hplace : first.expressions.findIdx? (hasName lower name) = some place)
      (hbranch : branch ∈ first :: rest)
      (hitem : branch.expressions[place]? = some item)
      (hcolumn : column ∈ item.columns)
      (hsource : IsSource ctes branch column.tableAlias column.name source) :
      IsSource ctes scope tableAlias name source

/-- A source of a column in a scope to which a straight way of so many turns leads: through the first
column of the item in the first branch on every level. -/
inductive IsStraightSource (ctes : List (Text × Expr)) :
    ℕ → Expr → Text → Text → Text × Text → Prop where
  | physical {turns : ℕ} {scope relation : Expr} {tableAlias name table : Text}
      (hrelation : relationForAlias lower scope tableAlias = some relation)
      (htable : physicalTable? lower defaultSchema ctes relation = some table) :
      IsStraightSource ctes (turns + 1) scope tableAlias name (table, name)
  | derived {turns : ℕ} {scope relation query first item : Expr} {rest : List Expr}
      {tableAlias name : Text} {column : Column} {columns : List Column} {source : Text × Text}
      (hrelation : relationForAlias lower scope tableAlias = some relation)
      (htable : physicalTable? lower defaultSchema ctes relation = none)
      (hquery : innerQuery? lower ctes relation = some query)
      (hbranches : query.branches = first :: rest)
      (hitem : first.expressions.find? (hasName lower name) = some item)
      (hcolumns : item.columns = column :: columns)
      (hsource : IsStraightSource ctes turns first column.tableAlias column.name source) :
      IsStraightSource ctes (turns + 1) scope tableAlias name source

/-- The source columns that are recorded for the target of a value are all sources of the columns
that the value is made of, in other tables than the target. -/
def RecordsSources (ctes : List (Text × Expr)) (scope value : Expr) (target : Target) : Prop :=
  ∀ source : Text × Text,
    (∃ mapping ∈ appendValueMappings lower defaultSchema ctes scope value target [],
        mapping.transformation = .direct ∧ (mapping.sourceTable, mapping.sourceColumn) = source)
      ↔ source.1 ≠ target.table ∧ ∃ column ∈ valueColumns value,
          IsSource lower defaultSchema ctes scope column.tableAlias column.name source

/-- To every source of the value leads a straight way from one of its columns, within the limit of
turns. -/
def StraightSources (ctes : List (Text × Expr)) (scope value : Expr) (target : Target) : Prop :=
  ∀ column ∈ valueColumns value, ∀ source : Text × Text, source.1 ≠ target.table →
    IsSource lower defaultSchema ctes scope column.tableAlias column.name source →
      ∃ column' ∈ valueColumns value, IsStraightSource lower defaultSchema ctes
        resolutionDepthLimit scope column'.tableAlias column'.name source

variable {lower : Text → Text} {defaultSchema : Option Text} {ctes : List (Text × Expr)}

theorem getElem?_of_find? {α : Type} {p : α → Bool} {items : List α} {item : α}
    (h : items.find? p = some item) :
  ∃ place, items.findIdx? p = some place ∧ items[place]? = some item
  := by
  induction items with
  | nil => cases h
  | cons a items ih =>
      by_cases ha : p a = true
      · rw [List.find?_cons_of_pos ha] at h
        cases h
        exact ⟨0, by rw [List.findIdx?_cons, if_pos ha], rfl⟩
      · rw [List.find?_cons_of_neg ha] at h
        obtain ⟨place, hplace, hitem⟩ := ih h
        refine ⟨place + 1, ?_, ?_⟩
        · rw [List.findIdx?_cons, if_neg ha, hplace]
          rfl
        · rw [List.getElem?_cons_succ]
          exact hitem

/-- A straight way leads to a source. -/
theorem IsStraightSource.isSource {turns : ℕ} {scope : Expr} {tableAlias name : Text}
    {source : Text × Text}
    (h : IsStraightSource lower defaultSchema ctes turns scope tableAlias name source) :
  IsSource lower defaultSchema ctes scope tableAlias name source
  := by
  induction h with
  | physical hrelation htable => exact .physical hrelation htable
  | derived hrelation htable hquery hbranches hitem hcolumns _ ih =>
      obtain ⟨place, hplace, hget⟩ := getElem?_of_find? hitem
      apply IsSource.derived hrelation htable hquery hbranches hplace List.mem_cons_self hget _ ih
      rw [hcolumns]
      exact List.mem_cons_self

/-- The loop finds the source to which the straight way leads. -/
theorem resolveFrom_spec {turns : ℕ} {scope : Expr} {tableAlias name : Text}
    {subtype : Option TransformationSubtype} {source : Text × Text} :
  (∃ resolved, resolveFrom lower defaultSchema ctes turns scope tableAlias name subtype
        = some resolved ∧ (resolved.table, resolved.name) = source)
    ↔ IsStraightSource lower defaultSchema ctes turns scope tableAlias name source
  := by
  induction turns generalizing scope tableAlias name subtype with
  | zero =>
      constructor
      · rintro ⟨resolved, h, -⟩
        cases h
      · intro h
        cases h
  | succ turns ih =>
      constructor
      · rintro ⟨resolved, h, rfl⟩
        rw [resolveFrom] at h
        split at h
        · cases h
        · rename_i relation hrelation
          split at h
          · rename_i table htable
            cases h
            exact .physical hrelation htable
          · rename_i htable
            split at h
            · cases h
            · rename_i branch rest hbranches
              split at h
              · cases h
              · rename_i item hitem
                split at h
                · cases h
                · rename_i column columns hcolumns
                  cases hquery : innerQuery? lower ctes relation with
                  | none =>
                      rw [hquery] at hbranches
                      cases hbranches
                  | some query =>
                      rw [hquery] at hbranches
                      exact .derived hrelation htable hquery hbranches hitem hcolumns
                        (ih.mp ⟨resolved, h, rfl⟩)
      · intro h
        cases h with
        | physical hrelation htable =>
            refine ⟨⟨_, _, subtype⟩, ?_, rfl⟩
            rw [resolveFrom, hrelation]
            dsimp only
            rw [htable]
        | derived hrelation htable hquery hbranches hitem hcolumns hsource =>
            obtain ⟨resolved, hresolved, hname⟩ := ih.mpr hsource
            refine ⟨resolved, ?_, hname⟩
            rw [resolveFrom, hrelation]
            dsimp only
            rw [htable, hquery]
            dsimp only [Option.map_some, Option.getD_some]
            rw [hbranches]
            dsimp only [projectionNamed]
            rw [hitem]
            dsimp only
            rw [hcolumns]
            exact hresolved

theorem mappingOf_eq_some {target : Target} {transformation : TransformationKind}
    {subtype : Resolved → TransformationSubtype} {resolved : Resolved} {mapping : InsertMapping}
    (h : mappingOf target transformation subtype resolved = some mapping) :
  resolved.table ≠ target.table ∧ mapping.transformation = transformation
    ∧ mapping.sourceTable = resolved.table ∧ mapping.sourceColumn = resolved.name
  := by
  rw [mappingOf] at h
  split at h
  · cases h
  · rename_i htable
    cases h
    exact ⟨htable, rfl, rfl, rfl⟩

theorem exists_mappingOf {target : Target} {resolved : Resolved}
    (h : resolved.table ≠ target.table) (transformation : TransformationKind)
    (subtype : Resolved → TransformationSubtype) :
  ∃ mapping, mappingOf target transformation subtype resolved = some mapping
  := ⟨_, if_neg h⟩

/-- The mappings of the columns of conditions are indirect. -/
theorem indirect_of_mem_predicateMappings {scope : Expr} {target : Target}
    {predicates : List (Column × TransformationSubtype)} {mapping : InsertMapping}
    (h : mapping ∈ predicateMappings lower defaultSchema ctes scope target predicates) :
  mapping.transformation = .indirect
  := by
  obtain ⟨pair, -, hpair⟩ := List.mem_filterMap.mp h
  obtain ⟨resolved, -, hmapping⟩ := Option.bind_eq_some_iff.mp hpair
  exact (mappingOf_eq_some hmapping).2.1

/-- What is recorded are the sources to which a straight way leads. -/
theorem recorded_iff {scope value : Expr} {target : Target} {source : Text × Text} :
  (∃ mapping ∈ appendValueMappings lower defaultSchema ctes scope value target [],
      mapping.transformation = .direct ∧ (mapping.sourceTable, mapping.sourceColumn) = source)
    ↔ source.1 ≠ target.table ∧ ∃ column ∈ valueColumns value,
        IsStraightSource lower defaultSchema ctes resolutionDepthLimit scope column.tableAlias
          column.name source
  := by
  constructor
  · rintro ⟨mapping, hmem, hdirect, rfl⟩
    rw [appendValueMappings, mem_foldl_appendUnique_iff, mem_foldl_appendUnique_iff] at hmem
    rcases hmem with (hmem | hmem) | hmem
    · exact absurd hmem List.not_mem_nil
    · obtain ⟨column, hcolumn, hresolve⟩ := List.mem_filterMap.mp hmem
      obtain ⟨resolved, hresolved, hmapping⟩ := Option.bind_eq_some_iff.mp hresolve
      obtain ⟨htable, -, hsource, hname⟩ := mappingOf_eq_some hmapping
      rw [hsource, hname]
      exact ⟨htable, column, hcolumn, resolveFrom_spec.mp ⟨resolved, hresolved, rfl⟩⟩
    · rw [indirect_of_mem_predicateMappings hmem] at hdirect
      cases hdirect
  · rintro ⟨htable, column, hcolumn, hstraight⟩
    obtain ⟨resolved, hresolved, rfl⟩ := resolveFrom_spec.mpr hstraight
    obtain ⟨mapping, hmapping⟩ := exists_mappingOf htable .direct (fun resolved =>
      if transformationSubtype value ≠ .direct then transformationSubtype value
      else resolved.subtype.getD (transformationSubtype value))
    obtain ⟨-, hdirect, hsource, hname⟩ := mappingOf_eq_some hmapping
    refine ⟨mapping, ?_, hdirect, by rw [hsource, hname]⟩
    rw [appendValueMappings, mem_foldl_appendUnique_iff, mem_foldl_appendUnique_iff]
    apply Or.inl
    apply Or.inr
    apply List.mem_filterMap.mpr
    refine ⟨column, hcolumn, ?_⟩
    rw [resolveColumnSource, hresolved]
    exact hmapping

end Resolve

/-! ### A sum of two columns -/

/-- A table under an alias. -/
def tableNamed (name aliasName : String) : Expr := .table [] name.toList aliasName.toList []

/-- A column that is qualified by an alias. -/
def columnNamed (id : ℕ) (tableAlias name : String) : Expr :=
  .column id tableAlias.toList name.toList

/-- `SELECT o.price + o.fee AS total FROM orders o`. -/
def totalQuery : Expr :=
  .select [.aliased (.other .plain [] [columnNamed 0 "o" "price", columnNamed 1 "o" "fee"])
    "total".toList] [.other .plain [] [tableNamed "orders" "o"]] [] [] [] []

/-- `MERGE INTO target t USING (…) s … SET t.amount = s.total`. -/
def totalMerge : Expr :=
  .other .plain [] [tableNamed "target" "t", .subquery totalQuery "s".toList []]

end Lineage

import DataOpsStudio.Lineage.Resolve

/-!
# Columns of written queries

When the rows of a query are written to a table, the items of the query are matched with the target
columns by position, but the sources of an item are asked for by its output name.  Of several items
with one name the first one answers for all.
-/

namespace Lineage

open Text

/-! ### Lineage nodes -/

/-- A node of the lineage of an output: the table that it is, its name, and what it comes from. -/
inductive Node where
  | mk (table : Option Text) (name : Text) (downstream : List Node)

namespace Node

def table : Node → Option Text
  | .mk table _ _ => table

def name : Node → Text
  | .mk _ name _ => name

def downstream : Node → List Node
  | .mk _ _ downstream => downstream

mutual

/-- The nodes of a lineage. -/
def walk : Node → List Node
  | .mk table name downstream => .mk table name downstream :: walkAll downstream

/-- The nodes of some lineages. -/
def walkAll : List Node → List Node
  | [] => []
  | node :: nodes => node.walk ++ walkAll nodes

end

end Node

/-- `_last_identifier`, the last part of a name without quotes. -/
def lastIdentifier (name : Text) : Text :=
  ((name.filter (fun c => c != '"' && c != '`')).splitOn '.').getLastD []

/-- `_source_columns_from_node`, the columns of tables in a lineage. -/
def sourceColumnsFromNode (node : Node) : List (Text × Text) :=
  node.walk.filterMap (fun current =>
    current.table.bind (fun table =>
      if lastIdentifier current.name = [] then none else some (table, lastIdentifier current.name)))

/-- What a query is asked about its outputs: the lineage of all of them at once, and that of one of
them.  Either may raise. -/
structure Outputs where
  batch : Option (List (Text × Node))
  lineage : Text → Option Node

/-- `_output_lineage_nodes`, the lineages of all outputs unless a name is there twice. -/
def outputLineageNodes (outputs : Outputs) (names : List Text) : Option (List (Text × Node)) :=
  if names = [] ∨ ¬names.Nodup then none
  else outputs.batch.bind (fun nodes =>
    if names.any (fun name => (nodes.lookup name).isNone) then none else some nodes)

/-- The lineage of an output: of all of them, or asked for alone. -/
def outputNode (outputs : Outputs) (nodes : Option (List (Text × Node))) (name : Text) :
    Option Node :=
  (nodes.bind (fun nodes => nodes.lookup name)).or (outputs.lineage name)

/-! ### Mappings -/

/-- What a statement records: mappings, and errors of the lineage. -/
structure WriteReport where
  insertMappings : List InsertMapping
  lineageErrors : ℕ

/-- Records mappings that are not there yet. -/
def WriteReport.append (report : WriteReport) (mappings : List InsertMapping) : WriteReport :=
  { report with insertMappings := mappings.foldl appendUnique report.insertMappings }

/-- Records an error. -/
def WriteReport.fail (report : WriteReport) : WriteReport :=
  { report with lineageErrors := report.lineageErrors + 1 }

/-- Whether a node is a set operation. -/
def Expr.isSetOperation : Expr → Bool
  | .setOperation .. => true
  | _ => false

section Writes

variable (lower : Text → Text) (defaultSchema : Option Text) (ctes : List (Text × Expr))
  (outputs : Outputs)

/-- The mappings of the sources of a lineage. -/
def nodeMappings (target : Target) (subtype : TransformationSubtype) (node : Node) :
    List InsertMapping :=
  (sourceColumnsFromNode node).map (fun source => {
    targetTable := target.table
    targetColumn := target.column
    sourceTable := source.1
    sourceColumn := source.2
    statementIndex := target.statementIndex
    transformation := .direct
    transformationSubtype := subtype })

/-- `_append_output_mappings`. -/
def appendOutputMappings (nodes : Option (List (Text × Node))) (selectItem : Expr) (target : Target)
    (report : WriteReport) : WriteReport :=
  match outputNode outputs nodes selectItem.aliasOrName with
  | none => report.fail
  | some node => report.append (nodeMappings target (transformationSubtype selectItem) node)

/-- `_append_indirect_mappings`. -/
def appendIndirectMappings (selectItem selectExpr : Expr) (target : Target)
    (report : WriteReport) : WriteReport :=
  let outputColumns := selectItem.columns.map (fun column => (column.tableAlias, column.name))
  report.append ((predicateColumns selectExpr).filterMap (fun pair =>
    if outputColumns.contains (pair.1.tableAlias, pair.1.name) then none
    else (resolveColumnSource lower defaultSchema ctes selectExpr pair.1).map (fun resolved => {
      targetTable := target.table
      targetColumn := target.column
      sourceTable := resolved.table
      sourceColumn := resolved.name
      statementIndex := target.statementIndex
      transformation := .indirect
      transformationSubtype := pair.2 })))

/-- The subtype that all items have, or that of an expression. -/
def sharedSubtype (items : List Expr) : TransformationSubtype :=
  match items with
  | [] => .expression
  | item :: _ =>
      if items.all (fun other => transformationSubtype other == transformationSubtype item) then
        transformationSubtype item
      else .expression

/-- The items at a place of the branches. -/
def branchItems (branches : List Expr) (place : ℕ) : List Expr :=
  branches.filterMap (fun branch => branch.expressions[place]?)

/-- The mappings of one column of a set operation: branch by branch where there is one lineage for
each of them, and else of all together. -/
def setOperationMappings (branches : List Expr) (place : ℕ) (target : Target) (node : Node) :
    List InsertMapping :=
  let items := branchItems branches place
  if node.downstream.length = items.length then
    (items.zip node.downstream).flatMap (fun pair =>
      nodeMappings target (transformationSubtype pair.1) pair.2)
  else nodeMappings target (sharedSubtype items) node

/-- The items of the first branch. -/
def firstItems (branches : List Expr) : List Expr := (branches.head?.map Expr.expressions).getD []

/-- One turn of `_append_set_operation_mappings`, for a target column and its place; an error ends
the loop. -/
def setOperationColumn (nodes : Option (List (Text × Node))) (branches : List Expr)
    (targetTable : Text) (statementIndex : ℕ) (report : WriteReport) (column : Option Text × ℕ) :
    Except WriteReport WriteReport :=
  if column.1.getD [] = [] then .ok report
  else
    match (firstItems branches)[column.2]? with
    | none => .ok report
    | some firstItem =>
        match outputNode outputs nodes firstItem.aliasOrName with
        | none => .error report.fail
        | some node =>
            let target := ⟨targetTable, column.1.getD [], statementIndex⟩
            .ok (branches.foldl (fun report branch =>
              match branch.expressions[column.2]? with
              | none => report
              | some item =>
                  appendIndirectMappings lower defaultSchema ctes item branch target report)
              (report.append (setOperationMappings branches column.2 target node)))

/-- `_append_set_operation_mappings`. -/
def appendSetOperationMappings (nodes : Option (List (Text × Node))) (branches : List Expr)
    (targetTable : Text) (targetColumns : List (Option Text)) (statementIndex : ℕ)
    (report : WriteReport) : WriteReport :=
  match targetColumns.zipIdx.foldlM (setOperationColumn lower defaultSchema ctes outputs nodes
    branches targetTable statementIndex) report with
  | .ok report => report
  | .error report => report

/-- One turn of the loop over the items of a query. -/
def selectColumn (nodes : Option (List (Text × Node))) (query : Expr) (targetTable : Text)
    (statementIndex : ℕ) (report : WriteReport) (pair : Expr × Option Text) : WriteReport :=
  if pair.2.getD [] = [] then report
  else
    let target := ⟨targetTable, pair.2.getD [], statementIndex⟩
    appendIndirectMappings lower defaultSchema ctes pair.1 query target
      (appendOutputMappings outputs nodes pair.1 target report)

/-- The mappings of `_analyze_query_write`. -/
def analyzeQueryWrite (query : Expr) (targetTable : Text) (targetColumns : List (Option Text))
    (statementIndex : ℕ) (report : WriteReport) : WriteReport :=
  let branches := query.branches
  let nodes := outputLineageNodes outputs ((firstItems branches).map Expr.aliasOrName)
  if query.isSetOperation then
    if branches = [] then report
    else appendSetOperationMappings lower defaultSchema ctes outputs nodes branches targetTable
      targetColumns statementIndex report
  else
    (query.expressions.zip targetColumns).foldl (selectColumn lower defaultSchema ctes outputs nodes
      query targetTable statementIndex) report

end Writes

/-! ### Sources by position and by name -/

/-- The query of a write: a select or a set operation. -/
def IsWrittenQuery (query : Expr) : Prop := query.isSetOperation = true ∨ query.branches = [query]

/-- A leaf column of the items at a place, of some branch. -/
def IsLeafAt (leaves : Expr → Text × Text → Prop) (query : Expr) (place : ℕ)
    (source : Text × Text) : Prop :=
  ∃ branch ∈ query.branches, ∃ item, branch.expressions[place]? = some item ∧ leaves item source

/-- A lineage is that of the items at a place. -/
structure IsLineageAt (leaves : Expr → Text × Text → Prop) (query : Expr) (place : ℕ)
    (node : Node) : Prop where
  root : node.table = none
  sources : ∀ source, source ∈ sourceColumnsFromNode node ↔ IsLeafAt leaves query place source

/-- The place of the first item with an output name. -/
def firstNamed (query : Expr) (name : Text) : Option ℕ :=
  (firstItems query.branches).findIdx? (fun item => item.aliasOrName == name)

/-- A name is resolved to the first item with this output name, whether it is asked for alone or
with all others. -/
structure ResolvesFirst (outputs : Outputs) (leaves : Expr → Text × Text → Prop) (query : Expr) :
    Prop where
  lineage : ∀ name place, firstNamed query name = some place →
    ∃ node, outputs.lineage name = some node ∧ IsLineageAt leaves query place node
  batch : ∀ nodes, outputs.batch = some nodes → ∀ name node place,
    nodes.lookup name = some node → firstNamed query name = some place →
      IsLineageAt leaves query place node

/-- A target column stands at the place of an item. -/
def IsTargetAt (query : Expr) (targetColumns : List (Option Text)) (place : ℕ) (column : Text) :
    Prop :=
  place < (firstItems query.branches).length ∧ targetColumns[place]? = some (some column)
    ∧ column ≠ []

/-- A source is recorded for a target column. -/
def IsRecorded (report : WriteReport) (column : Text) (source : Text × Text) : Prop :=
  ∃ mapping ∈ report.insertMappings, mapping.transformation = .direct
    ∧ mapping.targetColumn = column ∧ (mapping.sourceTable, mapping.sourceColumn) = source

/-- The first item with the name of the item at a place has a leaf column. -/
def IsLeafOfFirstNamed (leaves : Expr → Text × Text → Prop) (query : Expr) (place : ℕ)
    (source : Text × Text) : Prop :=
  ∃ item first, (firstItems query.branches)[place]? = some item
    ∧ firstNamed query item.aliasOrName = some first ∧ IsLeafAt leaves query first source

/-! ### What is recorded -/

theorem isRecorded_append {report : WriteReport} {mappings : List InsertMapping} {column : Text}
    {source : Text × Text} :
  IsRecorded (report.append mappings) column source ↔ IsRecorded report column source
    ∨ ∃ mapping ∈ mappings, mapping.transformation = .direct
      ∧ mapping.targetColumn = column ∧ (mapping.sourceTable, mapping.sourceColumn) = source
  := by
  constructor
  · rintro ⟨mapping, hmem, h⟩
    rcases mem_foldl_appendUnique_iff.mp hmem with hmem | hmem
    · exact .inl ⟨mapping, hmem, h⟩
    · exact .inr ⟨mapping, hmem, h⟩
  · rintro (⟨mapping, hmem, h⟩ | ⟨mapping, hmem, h⟩)
    · exact ⟨mapping, mem_foldl_appendUnique_iff.mpr (.inl hmem), h⟩
    · exact ⟨mapping, mem_foldl_appendUnique_iff.mpr (.inr hmem), h⟩

theorem isRecorded_nodeMappings {target : Target} {subtype : TransformationSubtype} {node : Node}
    {column : Text} {source : Text × Text} :
  (∃ mapping ∈ nodeMappings target subtype node, mapping.transformation = .direct
      ∧ mapping.targetColumn = column ∧ (mapping.sourceTable, mapping.sourceColumn) = source)
    ↔ target.column = column ∧ source ∈ sourceColumnsFromNode node
  := by
  constructor
  · rintro ⟨mapping, hmem, -, rfl, rfl⟩
    obtain ⟨source, hsource, rfl⟩ := List.mem_map.mp hmem
    exact ⟨rfl, hsource⟩
  · rintro ⟨rfl, hsource⟩
    exact ⟨_, List.mem_map_of_mem hsource, rfl, rfl, rfl⟩

/-- Mappings of conditions record no sources. -/
theorem isRecorded_appendIndirectMappings {lower : Text → Text} {defaultSchema : Option Text}
    {ctes : List (Text × Expr)} {selectItem selectExpr : Expr} {target : Target}
    {report : WriteReport} {column : Text} {source : Text × Text} :
  IsRecorded (appendIndirectMappings lower defaultSchema ctes selectItem selectExpr target report)
      column source
    ↔ IsRecorded report column source
  := by
  rw [appendIndirectMappings, isRecorded_append]
  apply or_iff_left
  rintro ⟨mapping, hmem, hdirect, -⟩
  obtain ⟨pair, -, hpair⟩ := List.mem_filterMap.mp hmem
  split at hpair
  · cases hpair
  · obtain ⟨resolved, -, rfl⟩ := Option.map_eq_some_iff.mp hpair
    cases hdirect

/-! ### Set operations -/

theorem mem_walkAll_iff {node : Node} {nodes : List Node} :
  node ∈ Node.walkAll nodes ↔ ∃ node' ∈ nodes, node ∈ node'.walk
  := by
  induction nodes with
  | nil => exact iff_of_false List.not_mem_nil (by rintro ⟨node', hmem, -⟩; cases hmem)
  | cons first nodes ih =>
      rw [Node.walkAll, List.mem_append, ih]
      constructor
      · rintro (hfirst | ⟨node', hmem, hwalk⟩)
        · exact ⟨first, List.mem_cons_self, hfirst⟩
        · exact ⟨node', List.mem_cons_of_mem first hmem, hwalk⟩
      · rintro ⟨node', hmem, hwalk⟩
        rcases List.mem_cons.mp hmem with rfl | hmem
        · exact .inl hwalk
        · exact .inr ⟨node', hmem, hwalk⟩

/-- A node that is no table has the sources of the nodes that it comes from. -/
theorem mem_sourceColumnsFromNode_iff {node : Node} (h : node.table = none) {source : Text × Text} :
  source ∈ sourceColumnsFromNode node
    ↔ ∃ child ∈ node.downstream, source ∈ sourceColumnsFromNode child
  := by
  obtain ⟨table, name, downstream⟩ := node
  cases h
  rw [sourceColumnsFromNode, Node.walk, List.filterMap_cons]
  change source ∈ List.filterMap _ (Node.walkAll downstream) ↔ _
  rw [List.mem_filterMap]
  constructor
  · rintro ⟨current, hcurrent, hsource⟩
    obtain ⟨child, hchild, hwalk⟩ := mem_walkAll_iff.mp hcurrent
    exact ⟨child, hchild, List.mem_filterMap.mpr ⟨current, hwalk, hsource⟩⟩
  · rintro ⟨child, hchild, hsource⟩
    obtain ⟨current, hcurrent, hsource⟩ := List.mem_filterMap.mp hsource
    exact ⟨current, mem_walkAll_iff.mpr ⟨child, hchild, hcurrent⟩, hsource⟩

theorem exists_mem_zip {α β : Type} {as : List α} {bs : List β} (h : bs.length = as.length) {b : β}
    (hb : b ∈ bs) :
  ∃ a, (a, b) ∈ as.zip bs
  := by
  induction bs generalizing as with
  | nil => cases hb
  | cons b' bs ih =>
      cases as with
      | nil => cases h
      | cons a as =>
          rcases List.mem_cons.mp hb with rfl | hb
          · exact ⟨a, List.mem_cons_self⟩
          · obtain ⟨a', hmem⟩ := ih (Nat.succ.inj h) hb
            exact ⟨a', List.mem_cons_of_mem _ hmem⟩

/-- However the lineage is divided among the branches, all its sources are recorded. -/
theorem isRecorded_setOperationMappings {branches : List Expr} {place : ℕ} {target : Target}
    {node : Node} (h : node.table = none) {column : Text} {source : Text × Text} :
  (∃ mapping ∈ setOperationMappings branches place target node, mapping.transformation = .direct
      ∧ mapping.targetColumn = column ∧ (mapping.sourceTable, mapping.sourceColumn) = source)
    ↔ target.column = column ∧ source ∈ sourceColumnsFromNode node
  := by
  rw [setOperationMappings]
  split
  · rename_i hlength
    rw [mem_sourceColumnsFromNode_iff h]
    constructor
    · rintro ⟨mapping, hmem, hmapping⟩
      obtain ⟨⟨item, child⟩, hpair, hmem⟩ := List.mem_flatMap.mp hmem
      obtain ⟨hcolumn, hsource⟩ := isRecorded_nodeMappings.mp ⟨mapping, hmem, hmapping⟩
      exact ⟨hcolumn, child, (List.of_mem_zip hpair).2, hsource⟩
    · rintro ⟨hcolumn, child, hchild, hsource⟩
      obtain ⟨item, hpair⟩ := exists_mem_zip hlength hchild
      have hmappings : target.column = column ∧ source ∈ sourceColumnsFromNode child :=
        ⟨hcolumn, hsource⟩
      rw [← @isRecorded_nodeMappings target (transformationSubtype item)] at hmappings
      obtain ⟨mapping, hmem, hmapping⟩ := hmappings
      exact ⟨mapping, List.mem_flatMap.mpr ⟨(item, child), hpair, hmem⟩, hmapping⟩
  · exact isRecorded_nodeMappings

section Run

variable {lower : Text → Text} {defaultSchema : Option Text} {ctes : List (Text × Expr)}
  {outputs : Outputs} {nodes : Option (List (Text × Node))}

theorem isRecorded_foldl_indirect {branches : List Expr} {place : ℕ} {target : Target}
    {report : WriteReport} {column : Text} {source : Text × Text} :
  IsRecorded (branches.foldl (fun report branch =>
      match branch.expressions[place]? with
      | none => report
      | some item => appendIndirectMappings lower defaultSchema ctes item branch target report)
      report) column source
    ↔ IsRecorded report column source
  := by
  induction branches generalizing report with
  | nil => exact Iff.rfl
  | cons branch branches ih =>
      rw [List.foldl_cons, ih]
      split
      · exact Iff.rfl
      · exact isRecorded_appendIndirectMappings

/-- The lineage of an item has a source. -/
def HasSource (outputs : Outputs) (nodes : Option (List (Text × Node))) (item : Expr)
    (source : Text × Text) : Prop :=
  ∃ node, outputNode outputs nodes item.aliasOrName = some node
    ∧ source ∈ sourceColumnsFromNode node

theorem getD_eq_iff {targetColumn : Option Text} (hne : targetColumn.getD [] ≠ []) (column : Text) :
  targetColumn.getD [] = column ↔ targetColumn = some column ∧ column ≠ []
  := by
  cases targetColumn with
  | none => exact absurd rfl hne
  | some other =>
      constructor
      · rintro rfl
        exact ⟨rfl, hne⟩
      · rintro ⟨heq, -⟩
        exact Option.some.inj heq

/-- What the loop over the items of a query records. -/
theorem isRecorded_foldl_selectColumn {query : Expr} {targetTable : Text} {statementIndex : ℕ}
    {pairs : List (Expr × Option Text)} {report : WriteReport} {column : Text}
    {source : Text × Text} :
  IsRecorded (pairs.foldl (selectColumn lower defaultSchema ctes outputs nodes query targetTable
      statementIndex) report) column source
    ↔ IsRecorded report column source ∨ ∃ pair ∈ pairs, pair.2 = some column ∧ column ≠ []
        ∧ HasSource outputs nodes pair.1 source
  := by
  induction pairs generalizing report with
  | nil =>
      constructor
      · exact .inl
      · rintro (h | ⟨pair, hmem, -⟩)
        · exact h
        · cases hmem
  | cons pair pairs ih =>
      have hstep : IsRecorded (selectColumn lower defaultSchema ctes outputs nodes query targetTable
            statementIndex report pair) column source
          ↔ IsRecorded report column source
            ∨ pair.2 = some column ∧ column ≠ [] ∧ HasSource outputs nodes pair.1 source := by
        rw [selectColumn]
        split
        · rename_i hempty
          apply (or_iff_left _).symm
          rintro ⟨hcolumn, hne, -⟩
          rw [hcolumn] at hempty
          exact hne hempty
        · rename_i hne
          have htarget := getD_eq_iff hne column
          rw [isRecorded_appendIndirectMappings, appendOutputMappings]
          split
          · rename_i hnone
            apply (or_iff_left _).symm
            rintro ⟨-, -, node, hnode, -⟩
            rw [hnone] at hnode
            cases hnode
          · rename_i node hnode
            rw [isRecorded_append, isRecorded_nodeMappings, htarget, and_assoc, HasSource, hnode]
            simp
      rw [List.foldl_cons, ih, hstep, or_assoc]
      apply or_congr_right
      constructor
      · rintro (h | ⟨other, hmem, h⟩)
        · exact ⟨pair, List.mem_cons_self, h⟩
        · exact ⟨other, List.mem_cons_of_mem pair hmem, h⟩
      · rintro ⟨other, hmem, h⟩
        rcases List.mem_cons.mp hmem with rfl | hmem
        · exact .inl h
        · exact .inr ⟨other, hmem, h⟩

/-- What one turn of the loop over the target columns of a set operation records. -/
theorem isRecorded_setOperationColumn {branches : List Expr} {targetTable : Text}
    {statementIndex : ℕ} {report : WriteReport} {entry : Option Text × ℕ}
    (hnode : ∀ item ∈ firstItems branches, ∃ node,
      outputNode outputs nodes item.aliasOrName = some node ∧ node.table = none) :
  ∃ report', setOperationColumn lower defaultSchema ctes outputs nodes branches targetTable
      statementIndex report entry = .ok report'
    ∧ ∀ column source, IsRecorded report' column source ↔ IsRecorded report column source
      ∨ entry.1 = some column ∧ column ≠ [] ∧ ∃ item, (firstItems branches)[entry.2]? = some item
        ∧ HasSource outputs nodes item source
  := by
  rw [setOperationColumn]
  split
  · rename_i hempty
    refine ⟨report, rfl, fun column source => (or_iff_left ?_).symm⟩
    rintro ⟨hcolumn, hne, -⟩
    rw [hcolumn] at hempty
    exact hne hempty
  · rename_i hne
    split
    · rename_i hitem
      refine ⟨report, rfl, fun column source => (or_iff_left ?_).symm⟩
      rintro ⟨-, -, item, hitem', -⟩
      rw [hitem] at hitem'
      cases hitem'
    · rename_i item hitem
      obtain ⟨node, hfound, hroot⟩ := hnode item (List.mem_of_getElem? hitem)
      rw [hfound]
      refine ⟨_, rfl, fun column source => ?_⟩
      rw [isRecorded_foldl_indirect, isRecorded_append, isRecorded_setOperationMappings hroot,
        getD_eq_iff hne column, and_assoc]
      apply or_congr_right
      apply and_congr_right
      intro _
      apply and_congr_right
      intro _
      constructor
      · exact fun hsource => ⟨item, hitem, node, hfound, hsource⟩
      · rintro ⟨item', hitem', node', hfound', hsource⟩
        rw [hitem] at hitem'
        cases hitem'
        rw [hfound] at hfound'
        cases hfound'
        exact hsource

/-- What the loop over the target columns of a set operation records. -/
theorem isRecorded_foldlM_setOperationColumn {branches : List Expr} {targetTable : Text}
    {statementIndex : ℕ} {report : WriteReport} {entries : List (Option Text × ℕ)}
    (hnode : ∀ item ∈ firstItems branches, ∃ node,
      outputNode outputs nodes item.aliasOrName = some node ∧ node.table = none) :
  ∃ report', entries.foldlM (setOperationColumn lower defaultSchema ctes outputs nodes branches
      targetTable statementIndex) report = .ok report'
    ∧ ∀ column source, IsRecorded report' column source ↔ IsRecorded report column source
      ∨ ∃ entry ∈ entries, entry.1 = some column ∧ column ≠ []
        ∧ ∃ item, (firstItems branches)[entry.2]? = some item ∧ HasSource outputs nodes item source
  := by
  induction entries generalizing report with
  | nil =>
      refine ⟨report, rfl, fun column source => (or_iff_left ?_).symm⟩
      rintro ⟨entry, hmem, -⟩
      cases hmem
  | cons entry entries ih =>
      obtain ⟨turned, hturned, hstep⟩ := @isRecorded_setOperationColumn lower defaultSchema ctes
        outputs nodes branches targetTable statementIndex report entry hnode
      obtain ⟨report', hreport', hrest⟩ := @ih turned
      refine ⟨report', ?_, fun column source => ?_⟩
      · rw [List.foldlM_cons, hturned]
        exact hreport'
      · rw [hrest, hstep, or_assoc]
        apply or_congr_right
        constructor
        · rintro (h | ⟨other, hmem, h⟩)
          · exact ⟨entry, List.mem_cons_self, h⟩
          · exact ⟨other, List.mem_cons_of_mem entry hmem, h⟩
        · rintro ⟨other, hmem, h⟩
          rcases List.mem_cons.mp hmem with rfl | hmem
          · exact .inl h
          · exact .inr ⟨other, hmem, h⟩

end Run

/-! ### Names and positions -/

section Named

variable {lower : Text → Text} {defaultSchema : Option Text} {ctes : List (Text × Expr)}
  {outputs : Outputs} {leaves : Expr → Text × Text → Prop} {query : Expr}

theorem exists_firstNamed {item : Expr} (h : item ∈ firstItems query.branches) :
  ∃ first, firstNamed query item.aliasOrName = some first
  := by
  cases hfirst : firstNamed query item.aliasOrName with
  | some first => exact ⟨first, rfl⟩
  | none =>
      have hall := List.findIdx?_eq_none_iff.mp hfirst item h
      rw [BEq.rfl] at hall
      cases hall

/-- The lineage of an item is that of the first item with its name. -/
theorem outputNode_spec (h : ResolvesFirst outputs leaves query) (names : List Text) {item : Expr}
    (hitem : item ∈ firstItems query.branches) :
  ∃ first node, firstNamed query item.aliasOrName = some first
    ∧ outputNode outputs (outputLineageNodes outputs names) item.aliasOrName = some node
    ∧ IsLineageAt leaves query first node
  := by
  obtain ⟨first, hfirst⟩ := exists_firstNamed hitem
  obtain ⟨alone, halone, hlineage⟩ := h.lineage _ _ hfirst
  cases hbatch : (outputLineageNodes outputs names).bind
      (fun nodes => nodes.lookup item.aliasOrName) with
  | none =>
      refine ⟨first, alone, hfirst, ?_, hlineage⟩
      rw [outputNode, hbatch]
      exact halone
  | some node =>
      obtain ⟨nodes, hnodes, hnode⟩ := Option.bind_eq_some_iff.mp hbatch
      refine ⟨first, node, hfirst, ?_, ?_⟩
      · rw [outputNode, hbatch]
        rfl
      · rw [outputLineageNodes] at hnodes
        split at hnodes
        · cases hnodes
        · obtain ⟨all, hall, hsome⟩ := Option.bind_eq_some_iff.mp hnodes
          split at hsome
          · cases hsome
          · cases hsome
            exact h.batch nodes hall _ node first hnode hfirst

theorem hasSource_iff (h : ResolvesFirst outputs leaves query) {names : List Text} {place : ℕ}
    {source : Text × Text} :
  (∃ item, (firstItems query.branches)[place]? = some item
      ∧ HasSource outputs (outputLineageNodes outputs names) item source)
    ↔ IsLeafOfFirstNamed leaves query place source
  := by
  constructor
  · rintro ⟨item, hitem, node, hnode, hsource⟩
    obtain ⟨first, node', hfirst, hnode', hlineage⟩ :=
      outputNode_spec h names (List.mem_of_getElem? hitem)
    rw [hnode] at hnode'
    cases hnode'
    exact ⟨item, first, hitem, hfirst, (hlineage.sources source).mp hsource⟩
  · rintro ⟨item, first, hitem, hfirst, hleaf⟩
    obtain ⟨first', node, hfirst', hnode, hlineage⟩ :=
      outputNode_spec h names (List.mem_of_getElem? hitem)
    rw [hfirst] at hfirst'
    cases hfirst'
    exact ⟨item, hitem, node, hnode, (hlineage.sources source).mpr hleaf⟩

/-- Items that stand at the places of target columns, by their sources. -/
theorem exists_isTargetAt_iff (h : ResolvesFirst outputs leaves query) {names : List Text}
    {targetColumns : List (Option Text)} {column : Text} {source : Text × Text} :
  (∃ (place : ℕ) (item : Expr), targetColumns[place]? = some (some column) ∧ column ≠ []
      ∧ (firstItems query.branches)[place]? = some item
      ∧ HasSource outputs (outputLineageNodes outputs names) item source)
    ↔ ∃ place, IsTargetAt query targetColumns place column
        ∧ IsLeafOfFirstNamed leaves query place source
  := by
  constructor
  · rintro ⟨place, item, hcolumn, hne, hitem, hsource⟩
    refine ⟨place, ⟨?_, hcolumn, hne⟩, (hasSource_iff h).mp ⟨item, hitem, hsource⟩⟩
    exact (List.getElem?_eq_some_iff.mp hitem).1
  · rintro ⟨place, ⟨-, hcolumn, hne⟩, hleaf⟩
    obtain ⟨item, hitem, hsource⟩ := (hasSource_iff h).mpr hleaf
    exact ⟨place, item, hcolumn, hne, hitem, hsource⟩

/-- For a target column the leaf columns of the first items are recorded that are named like the
items at its places. -/
theorem isRecorded_analyzeQueryWrite (hquery : IsWrittenQuery query)
    (h : ResolvesFirst outputs leaves query) {targetTable : Text}
    {targetColumns : List (Option Text)} {statementIndex : ℕ} {column : Text}
    {source : Text × Text} :
  IsRecorded (analyzeQueryWrite lower defaultSchema ctes outputs query targetTable targetColumns
      statementIndex ⟨[], 0⟩) column source
    ↔ ∃ place, IsTargetAt query targetColumns place column
        ∧ IsLeafOfFirstNamed leaves query place source
  := by
  have hnothing : ¬IsRecorded ⟨[], 0⟩ column source := by
    rintro ⟨mapping, hmem, -⟩
    cases hmem
  have hnode : ∀ item ∈ firstItems query.branches, ∃ node,
      outputNode outputs (outputLineageNodes outputs
        ((firstItems query.branches).map Expr.aliasOrName)) item.aliasOrName = some node
      ∧ node.table = none := by
    intro item hitem
    obtain ⟨_, node, _, hnode, hlineage⟩ := outputNode_spec h _ hitem
    exact ⟨node, hnode, hlineage.root⟩
  rw [analyzeQueryWrite, ← @exists_isTargetAt_iff outputs leaves query h
    ((firstItems query.branches).map Expr.aliasOrName)]
  by_cases hset : query.isSetOperation = true
  · rw [if_pos hset]
    by_cases hbranches : query.branches = []
    · rw [if_pos hbranches, hbranches]
      apply iff_of_false hnothing
      rintro ⟨place, item, -, -, hitem, -⟩
      cases hitem
    · obtain ⟨report', hreport', hrecorded⟩ := @isRecorded_foldlM_setOperationColumn lower
        defaultSchema ctes outputs _ query.branches targetTable statementIndex ⟨[], 0⟩
        targetColumns.zipIdx hnode
      rw [if_neg hbranches, appendSetOperationMappings, hreport']
      dsimp only
      rw [hrecorded, or_iff_right hnothing]
      constructor
      · rintro ⟨entry, hmem, hcolumn, hne, item, hitem, hsource⟩
        rw [List.mem_zipIdx_iff_getElem?, hcolumn] at hmem
        exact ⟨entry.2, item, hmem, hne, hitem, hsource⟩
      · rintro ⟨place, item, hcolumn, hne, hitem, hsource⟩
        exact ⟨(some column, place), List.mem_zipIdx_iff_getElem?.mpr hcolumn, rfl, hne, item,
          hitem, hsource⟩
  · have hone : query.branches = [query] := hquery.resolve_left hset
    have hitems : firstItems query.branches = query.expressions := by
      rw [hone]
      rfl
    rw [if_neg hset, isRecorded_foldl_selectColumn, or_iff_right hnothing]
    constructor
    · rintro ⟨pair, hmem, hcolumn, hne, hsource⟩
      obtain ⟨place, hplace⟩ := List.mem_iff_getElem?.mp hmem
      obtain ⟨hitem, htarget⟩ := List.getElem?_zip_eq_some.mp hplace
      rw [hcolumn] at htarget
      rw [← hitems] at hitem
      exact ⟨place, pair.1, htarget, hne, hitem, hsource⟩
    · rintro ⟨place, item, hcolumn, hne, hitem, hsource⟩
      rw [hitems] at hitem
      refine ⟨(item, some column), List.mem_iff_getElem?.mpr ⟨place, ?_⟩, rfl, hne, hsource⟩
      exact List.getElem?_zip_eq_some.mpr ⟨hitem, hcolumn⟩

/-- What is recorded for every target column are the leaf columns of the item at its place. -/
def RecordsByPosition (leaves : Expr → Text × Text → Prop) (query : Expr)
    (targetColumns : List (Option Text)) (report : WriteReport) : Prop :=
  ∀ place column, IsTargetAt query targetColumns place column → ∀ source,
    IsRecorded report column source ↔ IsLeafAt leaves query place source

/-- For every target column, the first items that are named like the items at its places have the
leaf columns of the item at its place. -/
def NamesMatchPositions (leaves : Expr → Text × Text → Prop) (query : Expr)
    (targetColumns : List (Option Text)) : Prop :=
  ∀ place column, IsTargetAt query targetColumns place column → ∀ source,
    (∃ place', IsTargetAt query targetColumns place' column
        ∧ IsLeafOfFirstNamed leaves query place' source)
      ↔ IsLeafAt leaves query place source

end Named

/-! ### Items with one name -/

/-- `SELECT … FROM orders o` for some columns of `o`, all of them named `c`. -/
def namedAlike (names : List String) : Expr :=
  .select (names.map (fun name => .aliased (columnNamed 0 "o" name) "c".toList))
    [.other .plain [] [tableNamed "orders" "o"]] [] [] [] []

/-- The leaf columns of an item, when all its columns are those of `orders`. -/
def LeafOfOrders (item : Expr) (source : Text × Text) : Prop :=
  source ∈ item.columns.map (fun column => ("orders".toList, column.name))

instance (item : Expr) (source : Text × Text) : Decidable (LeafOfOrders item source) :=
  inferInstanceAs (Decidable (source ∈ item.columns.map _))

/-- The lineages that `c` is resolved to: that of the column `x` of `orders`. -/
def outputsOfFirst : Outputs where
  batch := none
  lineage name := if name = "c".toList then
      some (.mk none "c".toList [.mk (some "orders".toList) "o.x".toList []])
    else none

theorem isLineageAt_namedAlike {names : List String} :
  IsLineageAt LeafOfOrders (namedAlike ("x" :: names)) 0
    (.mk none "c".toList [.mk (some "orders".toList) "o.x".toList []])
  := by
  refine ⟨rfl, fun source => ?_⟩
  have hsources : sourceColumnsFromNode
      (.mk none "c".toList [.mk (some "orders".toList) "o.x".toList []])
        = [("orders".toList, "x".toList)] := rfl
  rw [hsources]
  constructor
  · intro hsource
    exact ⟨_, List.mem_singleton_self _, _, rfl, hsource⟩
  · rintro ⟨branch, hbranch, item, hitem, hleaf⟩
    cases List.mem_singleton.mp hbranch
    cases hitem
    exact hleaf

theorem resolvesFirst_namedAlike {names : List String} :
  ResolvesFirst outputsOfFirst LeafOfOrders (namedAlike ("x" :: names))
  := by
  constructor
  · intro name place hfirst
    obtain ⟨hlt, hsame, -⟩ := List.findIdx?_eq_some_iff_getElem.mp hfirst
    obtain ⟨_, -, hitem⟩ := List.mem_map.mp (List.getElem_mem hlt)
    rw [← hitem, beq_iff_eq] at hsame
    subst hsame
    cases hfirst
    exact ⟨_, rfl, isLineageAt_namedAlike⟩
  · intro nodes hnodes
    cases hnodes

end Lineage

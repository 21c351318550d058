import DataOpsStudio.Library.Dict
import DataOpsStudio.Library.Text
import Mathlib.Algebra.Order.Field.Rat

/-!
# Tracing keys upstream

The key columns of a table are traced to the tables that they come from, along edges from a column
of one table to a column of another.  The tables are visited level by level, and each of them once.
Of each column that has been traced the edges on the way from the focus are known here; the program
keeps only the last of them.
-/

namespace Upstream

open Text

/-! ### Edges -/

/-- An edge of the lineage of columns: from a source to the target that is computed of it. -/
structure UpstreamEdge where
  sourceTable : Text
  sourceColumn : Text
  targetTable : Text
  targetColumn : Text
  transformation : Text
  transformationSubtype : Text
  inferenceStatus : Text
  confidence : ℚ
deriving DecidableEq

/-- The least confidence that is reported. -/
def confidenceFloor : ℚ := 1 / 2

/-- The greatest confidence that is reported. -/
def confidenceCeiling : ℚ := 1

/-- The kinds of edges along which values are passed on. -/
def invertibleSubtypes : List Text := ["DIRECT".toList, "CAST".toList]

/-- The greatest number of edges that keys are traced along. -/
def maxUpstreamDepth : ℤ := 5

/-- The reasons that are reported as they are. -/
def blockReasons : List Text := ["rejected_edge".toList, "unconfirmed_inferred_edge".toList]

/-- Why an edge cannot be used, if it cannot. -/
def edgeUnusable (includeInferred : Bool) (edge : UpstreamEdge) : Option Text :=
  if edge.inferenceStatus = "rejected".toList then some "rejected_edge".toList
  else if edge.inferenceStatus = "inferred".toList ∧ includeInferred = false then
    some "unconfirmed_inferred_edge".toList
  else if edge.transformation ≠ "DIRECT".toList then some "non_invertible_transformation".toList
  else if edge.transformationSubtype ∉ invertibleSubtypes then
    some "non_invertible_transformation".toList
  else none

/-- A confidence within its bounds. -/
def clamp (value : ℚ) : ℚ := max confidenceFloor (min confidenceCeiling value)

/-! ### What is traced -/

/-- A column that has been traced: its name, and the edges from the focus on. -/
structure Traced where
  column : Text
  chain : List UpstreamEdge
deriving DecidableEq

/-- What the key columns have been traced to, as far as they have. -/
abbrev Slot := List (Option Traced)

/-- What has been found of a table: the columns of the tables upstream, the edges to each of them,
and the tables that cannot be reached, with the reason. -/
structure Resolution where
  resolved : Dict Text Slot := Dict.empty
  tableEdges : Dict Text (List UpstreamEdge) := Dict.empty
  blocked : Dict Text Text := Dict.empty

/-- A table upstream with what the keys have been traced to. -/
structure UpstreamHop where
  depth : ℕ
  table : Text
  slot : Slot
  available : Bool
  reason : Option Text := none
  warnings : List Text := []
  confidence : ℚ := confidenceCeiling
  edges : List UpstreamEdge := []
  blockedBy : Option Text := none
deriving DecidableEq

/-- The names of the key columns in the table. -/
def UpstreamHop.keyColumns (hop : UpstreamHop) : List (Option Text) :=
  hop.slot.map (Option.map Traced.column)

section Walk

variable (edges : List UpstreamEdge) (includeInferred : Bool)

/-- The edges to a column. -/
def byTarget (table column : Text) : List UpstreamEdge :=
  edges.filter (fun edge => edge.targetTable = table ∧ edge.targetColumn = column)

/-- A column that is traced further along an edge. -/
structure Candidate where
  index : ℕ
  traced : Traced
  edge : UpstreamEdge

/-- The edges along which the columns of a table can be traced further, column by column. -/
def candidates (table : Text) (columns : Slot) : List Candidate :=
  columns.zipIdx.flatMap (fun p =>
    match p.1 with
    | none => []
    | some traced => (byTarget edges table traced.column).map (fun edge => ⟨p.2, traced, edge⟩))

/-- Traces a column along an edge.  Of several edges from one table the first one counts. -/
def offer (width : ℕ) (found : Resolution) (candidate : Candidate) : Resolution :=
  let edge := candidate.edge
  match edgeUnusable includeInferred edge with
  | some reason =>
      if found.blocked.contains edge.sourceTable then found
      else
        { found with
          blocked := found.blocked.set edge.sourceTable
            (if reason ∈ blockReasons then reason else edge.transformationSubtype) }
  | none =>
      let slot := (found.resolved.get? edge.sourceTable).getD (List.replicate width none)
      if slot[candidate.index]? = some none then
        { found with
          resolved := found.resolved.set edge.sourceTable
            (slot.set candidate.index
              (some ⟨edge.sourceColumn, candidate.traced.chain ++ [edge]⟩))
          tableEdges := found.tableEdges.set edge.sourceTable
            ((found.tableEdges.get? edge.sourceTable).getD [] ++ [edge]) }
      else { found with resolved := found.resolved.set edge.sourceTable slot }

/-- What is found of a table. -/
def resolve (table : Text) (columns : Slot) : Resolution :=
  (candidates edges table columns).foldl (offer includeInferred columns.length) {}

/-- What is to be said of a table upstream that is reached along some edges. -/
def hopWarnings (hopEdges : List UpstreamEdge) (slot : Slot) : List Text :=
  (if hopEdges.any (fun edge => edge.transformationSubtype = "CAST".toList) then
      ["cast_value_mismatch_risk".toList] else [])
    ++ (if hopEdges.any (fun edge => edge.inferenceStatus = "inferred".toList) then
      ["inferred_edge_used".toList] else [])
    ++ if slot.any Option.isNone then ["partial_key".toList] else []

/-- The least confidence of some edges. -/
def leastConfidence (hopEdges : List UpstreamEdge) : ℚ :=
  ((hopEdges.map UpstreamEdge.confidence).min?).getD confidenceCeiling

/-- A table upstream that the keys have been traced to. -/
def availableHop (depth : ℕ) (found : Resolution) (item : Text × Slot) : UpstreamHop :=
  let hopEdges := (found.tableEdges.get? item.1).getD []
  { depth
    table := item.1
    slot := item.2
    available := true
    warnings := hopWarnings hopEdges item.2
    confidence := clamp (leastConfidence hopEdges)
    edges := hopEdges }

/-- A table upstream that no key can be traced to. -/
def blockedHop (depth width : ℕ) (item : Text × Text) : UpstreamHop where
  depth
  table := item.1
  slot := List.replicate width none
  available := false
  reason := some
    (if item.2 ∈ blockReasons then item.2 else "non_invertible_transformation".toList)
  blockedBy := some item.2

/-- The tables upstream of a table.  Those that cannot be reached are reported when no other is
found. -/
def tableHops (depth : ℕ) (item : Text × Slot) : List UpstreamHop :=
  let found := resolve edges includeInferred item.1 item.2
  found.resolved.items.map (availableHop depth found) ++
    if found.resolved.items.isEmpty then found.blocked.items.map (blockedHop depth item.2.length)
    else []

/-- The tables that are to be expanded next, and those that have been visited. -/
structure Visit where
  next : Dict Text Slot := Dict.empty
  visited : List Text

/-- Visits a table, which is to be expanded unless it has been visited. -/
def Visit.add (visit : Visit) (item : Text × Slot) : Visit :=
  if item.1 ∈ visit.visited then visit
  else { next := visit.next.set item.1 item.2, visited := visit.visited ++ [item.1] }

/-- Visits the tables upstream of a table. -/
def Visit.expand (visit : Visit) (item : Text × Slot) : Visit :=
  (resolve edges includeInferred item.1 item.2).resolved.items.foldl Visit.add visit

/-- The tables that are expanded at each depth, with what the keys have been traced to. -/
def walk : ℕ → Dict Text Slot → List Text → List (List (Text × Slot))
  | 0, _, _ => []
  | fuel + 1, frontier, visited =>
      let visit := frontier.items.foldl (Visit.expand edges includeInferred) { visited }
      frontier.items :: if visit.next.items.isEmpty then [] else walk fuel visit.next visit.visited

end Walk

/-- The number of edges that keys are traced along. -/
def depthLimit (maxDepth : ℤ) : ℕ := (max 1 (min maxDepth maxUpstreamDepth)).toNat

/-- The tables that are expanded from the focus on, depth by depth. -/
def expandedTables (focusTable : Text) (keyColumns : List Text) (edges : List UpstreamEdge)
    (includeInferred : Bool) (maxDepth : ℤ) : List (List (Text × Slot)) :=
  if keyColumns.isEmpty then []
  else
    walk edges includeInferred (depthLimit maxDepth)
      (Dict.empty.set focusTable (keyColumns.map (fun column => some ⟨column, []⟩))) [focusTable]

/-- The tables upstream of the focus, from one depth to the next. -/
def buildUpstreamHops (focusTable : Text) (keyColumns : List Text) (edges : List UpstreamEdge)
    (includeInferred : Bool) (maxDepth : ℤ) : List UpstreamHop :=
  ((expandedTables focusTable keyColumns edges includeInferred maxDepth).zipIdx 1).flatMap
    (fun level => level.1.flatMap (tableHops edges includeInferred level.2))

end Upstream

import DataOpsStudio.Library.Dict
import DataOpsStudio.Library.Text
import Mathlib.Data.Char
import Mathlib.Data.Int.Order.Basic
import Mathlib.Data.List.Induction
import Mathlib.Data.List.Lex
import Mathlib.Data.List.Sort
import Mathlib.Tactic.Common

/-!
# The chain of a traced column

A walk along the lineage follows edges from a column upstream.  The edges are filed under their
depths, and the columns they come from are put into a chain that begins with the traced column.
The chain holds each column that the walk reaches once, at the least depth, nearest first.
-/

namespace Lineage

open Text

/-- A column that is compared. -/
structure TraceChainNode where
  depth : ℤ
  table : Text
  column : Text
deriving DecidableEq

/-- The table and the column of a node, if it is a column. -/
def splitColumnFocus (focus : Text) : Text × Option Text :=
  match rpartition '.' focus with
  | some (c :: table, d :: column) => (c :: table, some (d :: column))
  | _ => (focus, none)

/-- An edge that a walk along the lineage has followed. -/
structure LineageWalkRow where
  depth : ℤ
  source : Text
  target : Text

/-- A column that is reached in a trace. -/
structure ColumnTraceItem where
  node : Text
  table : Text
  column : Text
  fromNode : Text

/-- The columns that are reached at a depth. -/
structure ColumnTraceHop where
  depth : ℤ
  items : List ColumnTraceItem

def traceItem (row : LineageWalkRow) : ColumnTraceItem where
  node := row.source
  table := (splitColumnFocus row.source).1
  column := (splitColumnFocus row.source).2.getD []
  fromNode := row.target

/-- Files an edge under its depth, unless it is too deep or has been seen. -/
def traceRow (maxDepth : ℤ) (acc : Dict ℤ (List ColumnTraceItem) × List (ℤ × Text × Text))
    (row : LineageWalkRow) : Dict ℤ (List ColumnTraceItem) × List (ℤ × Text × Text) :=
  if maxDepth < row.depth then acc
  else if (row.depth, row.source, row.target) ∈ acc.2 then acc
  else
    (acc.1.set row.depth ((acc.1.get? row.depth).getD [] ++ [traceItem row]),
      (row.depth, row.source, row.target) :: acc.2)

/-- What the edges of a walk upstream reach, by depth. -/
def columnTraceHops (rows : List LineageWalkRow) (maxDepth : ℤ) : List ColumnTraceHop :=
  let byDepth := (rows.foldl (traceRow maxDepth) (Dict.empty, [])).1
  (byDepth.items.insertionSort (fun p q => p.1 ≤ q.1)).map fun p =>
    { depth := p.1, items := p.2.insertionSort (fun a b => a.node ≤ b.node) }

/-- Takes over a column, unless it has been seen. -/
def takeItem (depth : ℤ) (acc : List TraceChainNode × List Text) (item : ColumnTraceItem) :
    List TraceChainNode × List Text :=
  if acc.2.contains item.node then acc
  else (acc.1 ++ [{ depth := depth, table := item.table, column := item.column }],
    item.node :: acc.2)

/-- The columns to be compared: the focus and what it is traced back to, nearest first. -/
def extractTraceCompareChain (hops : List ColumnTraceHop) (focusTable focusColumn : Text) :
    List TraceChainNode :=
  ((hops.insertionSort (fun a b => a.depth ≤ b.depth)).foldl
    (fun acc hop => hop.items.foldl (takeItem hop.depth) acc)
    ([{ depth := 0, table := focusTable, column := focusColumn }],
      [focusTable ++ '.' :: focusColumn])).1

def traceCompareChain (rows : List LineageWalkRow) (maxDepth : ℤ)
    (focusTable focusColumn : Text) : List TraceChainNode :=
  extractTraceCompareChain (columnTraceHops rows maxDepth) focusTable focusColumn

/-! ### The chain is traced nearest first -/

section Chain

/-- The column of a node at a depth. -/
def chainNode (p : ℤ × Text) : TraceChainNode where
  depth := p.1
  table := (splitColumnFocus p.2).1
  column := (splitColumnFocus p.2).2.getD []

/-- What the edges have been filed under: every edge that is not too deep, and nothing else. -/
structure Filed (rows : List LineageWalkRow) (maxDepth : ℤ)
    (acc : Dict ℤ (List ColumnTraceItem) × List (ℤ × Text × Text)) : Prop where
  items : ∀ depth item, (∃ items, acc.1.get? depth = some items ∧ item ∈ items) ↔
    ∃ row ∈ rows, row.depth = depth ∧ depth ≤ maxDepth ∧ traceItem row = item
  seen : ∀ key ∈ acc.2, ∃ row ∈ rows, row.depth ≤ maxDepth
    ∧ (row.depth, row.source, row.target) = key

theorem Filed.traceRow {rows : List LineageWalkRow} {maxDepth : ℤ}
    {acc : Dict ℤ (List ColumnTraceItem) × List (ℤ × Text × Text)} (h : Filed rows maxDepth acc)
    (row : LineageWalkRow) :
  Filed (rows ++ [row]) maxDepth (traceRow maxDepth acc row)
  := by
  have hkept : ∀ depth item, (depth ≤ maxDepth → row.depth = depth → traceItem row = item →
      ∃ items, acc.1.get? depth = some items ∧ item ∈ items) →
      ((∃ items, acc.1.get? depth = some items ∧ item ∈ items) ↔
        ∃ other ∈ rows ++ [row], other.depth = depth ∧ depth ≤ maxDepth
          ∧ traceItem other = item) := by
    intro depth item hrow
    constructor
    · intro hitem
      obtain ⟨other, hother, hcase⟩ := (h.items depth item).mp hitem
      exact ⟨other, List.mem_append_left _ hother, hcase⟩
    · rintro ⟨other, hother, hdepth, hle, heq⟩
      obtain hother | hother := List.mem_append.mp hother
      · exact (h.items depth item).mpr ⟨other, hother, hdepth, hle, heq⟩
      · obtain rfl := List.mem_singleton.mp hother
        exact hrow hle hdepth heq
  have hseen : ∀ key ∈ acc.2, ∃ other ∈ rows ++ [row], other.depth ≤ maxDepth
      ∧ (other.depth, other.source, other.target) = key := by
    intro key hkey
    obtain ⟨other, hother, hcase⟩ := h.seen key hkey
    exact ⟨other, List.mem_append_left _ hother, hcase⟩
  rw [Lineage.traceRow]
  split
  case isTrue hdeep =>
    refine ⟨fun depth item => hkept depth item ?_, hseen⟩
    rintro hle rfl -
    exact absurd hle (not_le_of_gt hdeep)
  case isFalse hdepth =>
    split
    case isTrue hold =>
      refine ⟨fun depth item => hkept depth item ?_, hseen⟩
      rintro hle rfl rfl
      obtain ⟨other, hother, -, heq⟩ := h.seen _ hold
      obtain ⟨hother_depth, hsource, htarget⟩ : other.depth = row.depth
          ∧ other.source = row.source ∧ other.target = row.target := by simpa using heq
      refine (h.items _ _).mpr ⟨other, hother, hother_depth, hle, ?_⟩
      rw [traceItem, traceItem, hsource, htarget]
    case isFalse =>
      rw [not_lt] at hdepth
      constructor
      · intro depth item
        rw [Dict.get?_set]
        by_cases hsame : row.depth = depth
        · subst hsame
          rw [if_pos BEq.rfl]
          constructor
          · rintro ⟨items, hitems, hitem⟩
            obtain rfl := Option.some.inj hitems
            obtain hitem | hitem := List.mem_append.mp hitem
            · have hold : ∃ items, acc.1.get? row.depth = some items ∧ item ∈ items := by
                cases hget : acc.1.get? row.depth with
                | none =>
                    rw [hget] at hitem
                    cases hitem
                | some items =>
                    rw [hget] at hitem
                    exact ⟨items, rfl, hitem⟩
              obtain ⟨other, hother, hcase⟩ := (h.items _ _).mp hold
              exact ⟨other, List.mem_append_left _ hother, hcase⟩
            · obtain rfl := List.mem_singleton.mp hitem
              exact ⟨row, List.mem_append_right _ List.mem_cons_self, rfl, hdepth, rfl⟩
          · rintro ⟨other, hother, hotherDepth, hle, rfl⟩
            refine ⟨_, rfl, ?_⟩
            obtain hother | hother := List.mem_append.mp hother
            · obtain ⟨items, hitems, hitem⟩ :=
                (h.items row.depth (traceItem other)).mpr ⟨other, hother, hotherDepth, hle, rfl⟩
              rw [hitems]
              exact List.mem_append_left _ hitem
            · obtain rfl := List.mem_singleton.mp hother
              exact List.mem_append_right _ List.mem_cons_self
        · rw [if_neg (by simpa using hsame)]
          exact hkept depth item (fun _ heq => absurd heq hsame)
      · intro key hkey
        obtain rfl | hkey := List.mem_cons.mp hkey
        · exact ⟨row, List.mem_append_right _ List.mem_cons_self, hdepth, rfl⟩
        · exact hseen key hkey

theorem filed_foldl (rows : List LineageWalkRow) (maxDepth : ℤ) :
  Filed rows maxDepth (rows.foldl (traceRow maxDepth) (Dict.empty, []))
  := by
  induction rows using List.reverseRecOn with
  | nil =>
      constructor
      · intro depth item
        constructor
        · rintro ⟨items, hitems, -⟩
          cases hitems
        · rintro ⟨row, hrow, -⟩
          cases hrow
      · intro key hkey
        cases hkey
  | append_singleton rows row ih =>
      rw [List.foldl_append]
      exact ih.traceRow row

/-- The columns of hops, each with its depth. -/
def hopItems (hops : List ColumnTraceHop) : List (ℤ × ColumnTraceItem) :=
  hops.flatMap (fun hop => hop.items.map (fun item => (hop.depth, item)))

theorem mem_hopItems_columnTraceHops {rows : List LineageWalkRow} {maxDepth depth : ℤ}
    {item : ColumnTraceItem} :
  (depth, item) ∈ hopItems (columnTraceHops rows maxDepth) ↔
    ∃ row ∈ rows, row.depth = depth ∧ depth ≤ maxDepth ∧ traceItem row = item
  := by
  rw [← (filed_foldl rows maxDepth).items, hopItems, columnTraceHops, List.mem_flatMap]
  constructor
  · rintro ⟨hop, hhop, hitem⟩
    obtain ⟨p, hp, rfl⟩ := List.mem_map.mp hhop
    obtain ⟨found, hfound, heq⟩ := List.mem_map.mp hitem
    obtain ⟨rfl, rfl⟩ := Prod.mk.inj heq
    rw [(List.perm_insertionSort _ _).mem_iff] at hp hfound
    exact ⟨p.2, Dict.get?_eq_some_iff.mpr hp, hfound⟩
  · rintro ⟨items, hitems, hitem⟩
    refine ⟨_, List.mem_map.mpr ⟨(depth, items), ?_, rfl⟩, List.mem_map.mpr ⟨item, ?_, rfl⟩⟩
    · rw [(List.perm_insertionSort _ _).mem_iff]
      exact Dict.get?_eq_some_iff.mp hitems
    · rw [(List.perm_insertionSort _ _).mem_iff]
      exact hitem

theorem pairwise_hopItems {hops : List ColumnTraceHop}
    (h : hops.Pairwise (fun a b => a.depth ≤ b.depth)) :
  (hopItems hops).Pairwise (fun p q => p.1 ≤ q.1)
  := by
  rw [hopItems, List.pairwise_flatMap]
  constructor
  · intro hop _
    rw [List.pairwise_map]
    exact List.pairwise_of_forall (fun _ _ => le_refl _)
  · refine h.imp ?_
    intro a b hle p hp q hq
    obtain ⟨_, -, rfl⟩ := List.mem_map.mp hp
    obtain ⟨_, -, rfl⟩ := List.mem_map.mp hq
    exact hle

/-- Of items in the order of their depths each node is taken where it comes first. -/
theorem foldl_takeItem {items : List (ℤ × ColumnTraceItem)}
    (hsorted : items.Pairwise (fun p q => p.1 ≤ q.1))
    (hitem : ∀ p ∈ items, (chainNode (p.1, p.2.node)).table = p.2.table
      ∧ (chainNode (p.1, p.2.node)).column = p.2.column)
    (chain : List TraceChainNode) (seen : List Text) :
  ∃ visited : List (ℤ × Text),
    (items.foldl (fun acc p => takeItem p.1 acc p.2) (chain, seen)).1
        = chain ++ visited.map chainNode
      ∧ (visited.map Prod.snd).Nodup ∧ visited.Pairwise (fun p q => p.1 ≤ q.1)
      ∧ ∀ depth node, (depth, node) ∈ visited ↔ node ∉ seen
        ∧ (∃ p ∈ items, p.1 = depth ∧ p.2.node = node)
        ∧ ∀ p ∈ items, p.2.node = node → depth ≤ p.1
  := by
  induction items generalizing chain seen with
  | nil => exact ⟨[], by simp, List.nodup_nil, List.Pairwise.nil, by simp⟩
  | cons first rest ih =>
      rw [List.pairwise_cons] at hsorted
      rw [List.forall_mem_cons] at hitem
      rw [List.foldl_cons, takeItem]
      split
      case isTrue hseen =>
        rw [List.contains_iff_mem] at hseen
        obtain ⟨visited, hchain, hnodup, hdepths, hmem⟩ := ih hsorted.2 hitem.2 chain seen
        refine ⟨visited, hchain, hnodup, hdepths, ?_⟩
        intro depth node
        rw [hmem, List.forall_mem_cons, List.exists_mem_cons_iff]
        constructor
        · rintro ⟨hnew, hexists, hall⟩
          refine ⟨hnew, .inr hexists, ?_, hall⟩
          rintro rfl
          exact absurd hseen hnew
        · rintro ⟨hnew, ⟨-, rfl⟩ | hexists, -, hall⟩
          · exact absurd hseen hnew
          · exact ⟨hnew, hexists, hall⟩
      case isFalse hnew =>
        rw [List.contains_iff_mem] at hnew
        obtain ⟨visited, hchain, hnodup, hdepths, hmem⟩ := ih hsorted.2 hitem.2
          (chain ++ [{ depth := first.1, table := first.2.table, column := first.2.column }])
          (first.2.node :: seen)
        refine ⟨(first.1, first.2.node) :: visited, ?_, ?_, ?_, ?_⟩
        · rw [hchain, List.append_assoc, List.map_cons, List.singleton_append]
          obtain ⟨htable, hcolumn⟩ := hitem.1
          rw [← htable, ← hcolumn]
          rfl
        · rw [List.map_cons, List.nodup_cons]
          refine ⟨?_, hnodup⟩
          intro hagain
          obtain ⟨⟨depth, node⟩, hvisited, heq⟩ := List.mem_map.mp hagain
          apply ((hmem depth node).mp hvisited).1
          rw [show node = first.2.node from heq]
          exact List.mem_cons_self
        · rw [List.pairwise_cons]
          refine ⟨?_, hdepths⟩
          rintro ⟨depth, node⟩ hvisited
          obtain ⟨-, ⟨p, hp, rfl, -⟩, -⟩ := (hmem depth node).mp hvisited
          exact hsorted.1 p hp
        · intro depth node
          rw [List.mem_cons, hmem, List.forall_mem_cons, List.exists_mem_cons_iff, List.mem_cons]
          by_cases hnode : node = first.2.node
          · subst hnode
            constructor
            · rintro (heq | ⟨hagain, -⟩)
              · obtain ⟨rfl, -⟩ := Prod.mk.inj heq
                exact ⟨hnew, .inl ⟨rfl, rfl⟩, fun _ => le_refl _, fun p hp _ => hsorted.1 p hp⟩
              · exact absurd (.inl rfl) hagain
            · rintro ⟨-, ⟨rfl, -⟩ | ⟨p, hp, rfl, -⟩, hfirst, -⟩
              · exact .inl rfl
              · left
                rw [le_antisymm (hfirst rfl) (hsorted.1 p hp)]
          · constructor
            · rintro (heq | ⟨hnotin, hexists, hall⟩)
              · exact absurd (Prod.mk.inj heq).2 hnode
              · exact ⟨fun hseen => hnotin (.inr hseen), .inr hexists,
                  fun heq => absurd heq.symm hnode, hall⟩
            · rintro ⟨hnotin, ⟨-, heq⟩ | hexists, -, hall⟩
              · exact absurd heq.symm hnode
              · refine .inr ⟨?_, hexists, hall⟩
                rintro (heq | hseen)
                · exact hnode heq
                · exact hnotin hseen

theorem foldl_hopItems {β : Type} (f : β → ℤ → ColumnTraceItem → β) (hops : List ColumnTraceHop)
    (b : β) :
  hops.foldl (fun acc hop => hop.items.foldl (fun acc item => f acc hop.depth item) acc) b
    = (hopItems hops).foldl (fun acc p => f acc p.1 p.2) b
  := by
  rw [hopItems, List.foldl_flatMap]
  simp only [List.foldl_map]

end Chain

/-- The chain of a column begins with the column and goes on with the columns that the walk has
reached from it, each once, at the least depth at which it was reached, nearest first. -/
theorem traceCompareChain_nearest (rows : List LineageWalkRow) (maxDepth : ℤ)
    (focusTable focusColumn : Text) :
  ∃ visited : List (ℤ × Text), traceCompareChain rows maxDepth focusTable focusColumn
      = { depth := 0, table := focusTable, column := focusColumn } :: visited.map chainNode
    ∧ (visited.map Prod.snd).Nodup ∧ visited.Pairwise (fun p q => p.1 ≤ q.1)
    ∧ ∀ depth node, (depth, node) ∈ visited ↔ node ≠ focusTable ++ '.' :: focusColumn
      ∧ depth ≤ maxDepth ∧ (∃ row ∈ rows, row.depth = depth ∧ row.source = node)
      ∧ ∀ row ∈ rows, row.source = node → depth ≤ row.depth
  := by
  have hperm := List.perm_insertionSort (fun a b : ColumnTraceHop => a.depth ≤ b.depth)
    (columnTraceHops rows maxDepth)
  have hsorted := pairwise_hopItems (List.pairwise_insertionSort
    (fun a b : ColumnTraceHop => a.depth ≤ b.depth) (columnTraceHops rows maxDepth))
  have hmemItems : ∀ p, p ∈ hopItems ((columnTraceHops rows maxDepth).insertionSort
      (fun a b => a.depth ≤ b.depth)) ↔
      ∃ row ∈ rows, row.depth = p.1 ∧ p.1 ≤ maxDepth ∧ traceItem row = p.2 := by
    rintro ⟨depth, item⟩
    rw [← mem_hopItems_columnTraceHops, hopItems, hopItems, List.mem_flatMap, List.mem_flatMap]
    simp only [hperm.mem_iff]
  obtain ⟨visited, hchain, hnodup, hdepths, hmem⟩ := foldl_takeItem hsorted
    (by
      intro p hp
      obtain ⟨row, -, -, -, heq⟩ := (hmemItems p).mp hp
      rw [← heq]
      exact ⟨rfl, rfl⟩)
    [{ depth := 0, table := focusTable, column := focusColumn }]
    [focusTable ++ '.' :: focusColumn]
  refine ⟨visited, ?_, hnodup, hdepths, ?_⟩
  · rw [traceCompareChain, extractTraceCompareChain]
    rw [← foldl_hopItems (fun acc depth item => takeItem depth acc item)] at hchain
    exact hchain
  · intro depth node
    rw [hmem, List.mem_singleton]
    constructor
    · rintro ⟨hne, ⟨p, hp, rfl, rfl⟩, hall⟩
      obtain ⟨row, hrow, hdepth, hle, heq⟩ := (hmemItems p).mp hp
      refine ⟨hne, hle, ⟨row, hrow, hdepth, by rw [← heq]; rfl⟩, ?_⟩
      intro other hother hnode
      by_cases hdeep : other.depth ≤ maxDepth
      · exact hall (other.depth, traceItem other)
          ((hmemItems _).mpr ⟨other, hother, rfl, hdeep, rfl⟩) hnode
      · omega
    · rintro ⟨hne, hle, ⟨row, hrow, rfl, rfl⟩, hall⟩
      refine ⟨hne, ⟨(row.depth, traceItem row),
        (hmemItems _).mpr ⟨row, hrow, rfl, hle, rfl⟩, rfl, rfl⟩, ?_⟩
      rintro p hp hnode
      obtain ⟨other, hother, hdepth, -, heq⟩ := (hmemItems p).mp hp
      rw [← hdepth]
      apply hall other hother
      rw [← hnode, ← heq]
      rfl

end Lineage

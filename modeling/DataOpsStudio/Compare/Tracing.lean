import DataOpsStudio.Compare.Upstream

/-!
# Tracing is sound

Every key column that has been traced to a table upstream is reached from the key column of the
focus at the same place, along as many edges as the depth of the table.  All these edges may be
used.  No table is expanded twice.
-/

namespace Upstream

open Text

/-! ### Chains of edges -/

/-- Values are passed on along an edge, and the edge has not been rejected, nor only been inferred
unless such edges are included. -/
structure Usable (includeInferred : Bool) (edge : UpstreamEdge) : Prop where
  direct : edge.transformation = "DIRECT".toList
  invertible : edge.transformationSubtype ∈ invertibleSubtypes
  not_rejected : edge.inferenceStatus ≠ "rejected".toList
  included : edge.inferenceStatus = "inferred".toList → includeInferred = true

theorem usable_of_edgeUnusable {includeInferred : Bool} {edge : UpstreamEdge}
    (h : edgeUnusable includeInferred edge = none) :
  Usable includeInferred edge
  := by
  rw [edgeUnusable] at h
  split at h
  · cases h
  · rename_i hrejected
    split at h
    · cases h
    · rename_i hinferred
      split at h
      · cases h
      · rename_i hdirect
        split at h
        · cases h
        · rename_i hsubtype
          constructor
          · exact not_not.mp hdirect
          · exact not_not.mp hsubtype
          · exact hrejected
          · intro hstatus
            rw [← Bool.not_eq_false]
            exact fun hexcluded => hinferred ⟨hstatus, hexcluded⟩

/-- Edges lead from a column to another, each from where the one before it came. -/
def Leads : Text × Text → List UpstreamEdge → Text × Text → Prop
  | start, [], stop => start = stop
  | start, edge :: chain, stop =>
      (edge.targetTable, edge.targetColumn) = start
        ∧ Leads (edge.sourceTable, edge.sourceColumn) chain stop

theorem Leads.append {start stop : Text × Text} {chain : List UpstreamEdge} {edge : UpstreamEdge}
    (h : Leads start chain stop) (hedge : (edge.targetTable, edge.targetColumn) = stop) :
  Leads start (chain ++ [edge]) (edge.sourceTable, edge.sourceColumn)
  := by
  induction chain generalizing start with
  | nil =>
      obtain rfl : start = stop := h
      exact ⟨hedge, rfl⟩
  | cons first chain ih => exact ⟨h.1, ih h.2⟩

section Sound

variable {focusTable : Text} {keyColumns : List Text} {edges : List UpstreamEdge}
  {includeInferred : Bool}

/-- A column is reached from a key column of the focus along some number of edges that may be
used. -/
structure Reached (focusTable key : Text) (edges : List UpstreamEdge) (includeInferred : Bool)
    (depth : ℕ) (table column : Text) (chain : List UpstreamEdge) : Prop where
  length_eq : chain.length = depth
  leads : Leads (focusTable, key) chain (table, column)
  usable : ∀ edge ∈ chain, edge ∈ edges ∧ Usable includeInferred edge

/-- What the key columns have been traced to in a table. -/
structure SlotOk (focusTable : Text) (keyColumns : List Text) (edges : List UpstreamEdge)
    (includeInferred : Bool) (depth : ℕ) (table : Text) (slot : Slot) : Prop where
  length_eq : slot.length = keyColumns.length
  reached : ∀ (i : ℕ) traced, slot[i]? = some (some traced) → ∃ key, keyColumns[i]? = some key
    ∧ Reached focusTable key edges includeInferred depth table traced.column traced.chain

/-- The edges that are kept of a table are the last ones of the chains to it. -/
structure OwnEdges (slot : Slot) (hopEdges : List UpstreamEdge) : Prop where
  mem_iff : ∀ edge, edge ∈ hopEdges
    ↔ ∃ traced, some traced ∈ slot ∧ traced.chain.getLast? = some edge
  traced : ∃ traced, some traced ∈ slot

/-! ### What is found of a table -/

theorem mem_candidates {table : Text} {columns : Slot} {candidate : Candidate}
    (h : candidate ∈ candidates edges table columns) :
  columns[candidate.index]? = some (some candidate.traced) ∧ candidate.edge ∈ edges
    ∧ (candidate.edge.targetTable, candidate.edge.targetColumn) = (table, candidate.traced.column)
  := by
  obtain ⟨⟨column, index⟩, hcolumn, hmem⟩ := List.mem_flatMap.mp h
  rw [List.mem_zipIdx_iff_getElem?] at hcolumn
  cases column with
  | none => cases hmem
  | some traced =>
      obtain ⟨edge, hedge, rfl⟩ := List.mem_map.mp hmem
      rw [byTarget, List.mem_filter, decide_eq_true_eq] at hedge
      exact ⟨hcolumn, hedge.1, Prod.ext hedge.2.1 hedge.2.2⟩

/-- A place that was empty is filled. -/
theorem some_mem_set_iff {slot : Slot} {i : ℕ} {new traced : Traced} (h : slot[i]? = some none) :
  some traced ∈ slot.set i (some new) ↔ traced = new ∨ some traced ∈ slot
  := by
  obtain ⟨hi, hnone⟩ := List.getElem?_eq_some_iff.mp h
  rw [List.mem_iff_getElem?, List.mem_iff_getElem?]
  constructor
  · rintro ⟨j, hj⟩
    rw [List.getElem?_set] at hj
    split at hj
    · exact .inl (Option.some.inj (Option.some.inj hj)).symm
    · exact .inr ⟨j, hj⟩
  · rintro (rfl | ⟨j, hj⟩)
    · exact ⟨i, by rw [List.getElem?_set_self hi]⟩
    · refine ⟨j, ?_⟩
      rw [List.getElem?_set_ne, hj]
      rintro rfl
      rw [h] at hj
      cases hj

/-- What has been found of a table at some depth. -/
structure Resolution.Ok (focusTable : Text) (keyColumns : List Text) (edges : List UpstreamEdge)
    (includeInferred : Bool) (depth : ℕ) (found : Resolution) : Prop where
  slot : ∀ table slot, found.resolved.get? table = some slot →
    SlotOk focusTable keyColumns edges includeInferred depth table slot
  own : ∀ table slot, found.resolved.get? table = some slot →
    OwnEdges slot ((found.tableEdges.get? table).getD [])
  absent : ∀ table, found.resolved.get? table = none → found.tableEdges.get? table = none

theorem Resolution.Ok.offer {depth : ℕ} {table : Text} {columns : Slot}
    (hcolumns : SlotOk focusTable keyColumns edges includeInferred depth table columns)
    {found : Resolution}
    (h : found.Ok focusTable keyColumns edges includeInferred (depth + 1)) {candidate : Candidate}
    (hcandidate : candidate ∈ candidates edges table columns) :
  (offer includeInferred columns.length found candidate).Ok focusTable keyColumns edges
    includeInferred (depth + 1)
  := by
  obtain ⟨hindex, hedge, htarget⟩ := mem_candidates hcandidate
  obtain ⟨key, hkey, hreached⟩ := hcolumns.reached _ _ hindex
  have hlt : candidate.index < columns.length := (List.getElem?_eq_some_iff.mp hindex).1
  rw [Upstream.offer]
  split
  · split
    · exact h
    · exact ⟨h.slot, h.own, h.absent⟩
  · rename_i husable
    have hnew : Reached focusTable key edges includeInferred (depth + 1) candidate.edge.sourceTable
        candidate.edge.sourceColumn (candidate.traced.chain ++ [candidate.edge]) := by
      constructor
      · rw [List.length_append, hreached.length_eq, List.length_singleton]
      · exact hreached.leads.append htarget
      · intro edge hmem
        rcases List.mem_append.mp hmem with hmem | hmem
        · exact hreached.usable edge hmem
        · rw [List.mem_singleton.mp hmem]
          exact ⟨hedge, usable_of_edgeUnusable husable⟩
    -- the slot of the table, which may be new, and the edges to it
    have hslot : SlotOk focusTable keyColumns edges includeInferred (depth + 1)
          candidate.edge.sourceTable
          ((found.resolved.get? candidate.edge.sourceTable).getD
            (List.replicate columns.length none))
        ∧ ∀ edge, edge ∈ (found.tableEdges.get? candidate.edge.sourceTable).getD []
          ↔ ∃ traced, some traced ∈ (found.resolved.get? candidate.edge.sourceTable).getD
            (List.replicate columns.length none) ∧ traced.chain.getLast? = some edge := by
      cases hget : found.resolved.get? candidate.edge.sourceTable with
      | none =>
          constructor
          · constructor
            · rw [Option.getD_none, List.length_replicate, hcolumns.length_eq]
            · intro i traced hi
              rw [Option.getD_none, List.getElem?_replicate] at hi
              split at hi
              · cases Option.some.inj hi
              · cases hi
          · intro edge
            rw [h.absent _ hget]
            constructor
            · intro hmem
              cases hmem
            · rintro ⟨traced, hmem, -⟩
              cases List.eq_of_mem_replicate hmem
      | some slot => exact ⟨h.slot _ slot hget, (h.own _ slot hget).mem_iff⟩
    generalize hgetD : (found.resolved.get? candidate.edge.sourceTable).getD
      (List.replicate columns.length none) = slot at hslot
    obtain ⟨hslot, hown⟩ := hslot
    by_cases hempty : slot[candidate.index]? = some none
    · rw [if_pos hempty]
      constructor
      · intro other slot' hget
        rw [Dict.get?_set] at hget
        split at hget
        · rename_i heq
          rw [← eq_of_beq heq, ← Option.some.inj hget]
          constructor
          · rw [List.length_set, hslot.length_eq]
          · intro i traced hi
            rw [List.getElem?_set] at hi
            split at hi
            · rename_i hi'
              subst hi'
              split at hi
              · rw [← Option.some.inj (Option.some.inj hi)]
                exact ⟨key, hkey, hnew⟩
              · cases hi
            · exact hslot.reached i traced hi
        · exact h.slot other slot' hget
      · intro other slot' hget
        rw [Dict.get?_set] at hget ⊢
        split at hget
        · rename_i heq
          rw [if_pos heq, ← Option.some.inj hget, Option.getD_some]
          constructor
          · intro edge
            rw [List.mem_append, List.mem_singleton, hown]
            simp only [some_mem_set_iff hempty]
            constructor
            · rintro (⟨traced, hmem, hlast⟩ | rfl)
              · exact ⟨traced, .inr hmem, hlast⟩
              · exact ⟨_, .inl rfl, List.getLast?_concat⟩
            · rintro ⟨traced, rfl | hmem, hlast⟩
              · rw [List.getLast?_concat] at hlast
                exact .inr (Option.some.inj hlast).symm
              · exact .inl ⟨traced, hmem, hlast⟩
          · exact ⟨_, (some_mem_set_iff hempty).mpr (.inl rfl)⟩
        · rename_i hne
          rw [if_neg hne]
          exact h.own other slot' hget
      · intro other hget
        rw [Dict.get?_set] at hget ⊢
        split at hget
        · cases hget
        · rename_i hne
          rw [if_neg hne]
          exact h.absent other hget
    · rw [if_neg hempty]
      have hsome : found.resolved.get? candidate.edge.sourceTable = some slot := by
        cases hget : found.resolved.get? candidate.edge.sourceTable with
        | none =>
            rw [hget, Option.getD_none] at hgetD
            rw [← hgetD, List.getElem?_replicate, if_pos hlt] at hempty
            exact absurd rfl hempty
        | some slot' =>
            rw [hget, Option.getD_some] at hgetD
            rw [hgetD]
      have hget : ∀ other, (found.resolved.set candidate.edge.sourceTable slot).get? other
          = found.resolved.get? other := by
        intro other
        rw [Dict.get?_set]
        split
        · rename_i heq
          rw [← eq_of_beq heq, hsome]
        · rfl
      constructor
      · intro other slot' hother
        exact h.slot other slot' (by rw [← hget, hother])
      · intro other slot' hother
        exact h.own other slot' (by rw [← hget, hother])
      · intro other hother
        exact h.absent other (by rw [← hget, hother])

/-- What is found of a table that has been reached at some depth is reached at the next one. -/
theorem resolve_ok {depth : ℕ} {table : Text} {columns : Slot}
    (h : SlotOk focusTable keyColumns edges includeInferred depth table columns) :
  (resolve edges includeInferred table columns).Ok focusTable keyColumns edges includeInferred
    (depth + 1)
  := by
  have hfold : ∀ (l : List Candidate) (found : Resolution),
      (∀ candidate ∈ l, candidate ∈ candidates edges table columns) →
      found.Ok focusTable keyColumns edges includeInferred (depth + 1) →
      (l.foldl (offer includeInferred columns.length) found).Ok focusTable keyColumns edges
        includeInferred (depth + 1) := by
    intro l
    induction l with
    | nil => exact fun found _ hfound => hfound
    | cons candidate l ih =>
        intro found hmem hfound
        exact ih _ (fun c hc => hmem c (List.mem_cons_of_mem _ hc))
          (hfound.offer h (hmem candidate List.mem_cons_self))
  apply hfold _ _ (fun _ hcandidate => hcandidate)
  constructor
  · intro other slot hget
    cases hget
  · intro other slot hget
    cases hget
  · intro other _
    rfl

/-! ### The walk -/

/-- The tables that are to be expanded have been reached at some depth. -/
def LevelOk (focusTable : Text) (keyColumns : List Text) (edges : List UpstreamEdge)
    (includeInferred : Bool) (depth : ℕ) (level : List (Text × Slot)) : Prop :=
  ∀ item ∈ level, SlotOk focusTable keyColumns edges includeInferred depth item.1 item.2

/-- Tables are visited that have not been visited before. -/
structure Visit.Ok (P : Text × Slot → Prop) (before : List Text) (visit : Visit) : Prop where
  items : ∀ item ∈ visit.next.items, P item
  kept : ∀ table ∈ before, table ∈ visit.visited
  visited : ∀ table ∈ visit.next.keys, table ∈ visit.visited
  fresh : ∀ table ∈ visit.next.keys, table ∉ before

theorem Visit.Ok.add {P : Text × Slot → Prop} {before : List Text} {visit : Visit}
    (h : visit.Ok P before) {item : Text × Slot} (hitem : P item) :
  (visit.add item).Ok P before
  := by
  rw [Visit.add]
  split
  · exact h
  · rename_i hnew
    have hkeys : ∀ table ∈ (visit.next.set item.1 item.2).keys,
        table = item.1 ∨ table ∈ visit.next.keys := by
      intro table htable
      obtain ⟨slot, hslot⟩ := Dict.mem_keys_iff.mp htable
      rw [Dict.get?_set] at hslot
      split at hslot
      · rename_i heq
        exact .inl (eq_of_beq heq).symm
      · exact .inr (Dict.mem_keys_iff.mpr ⟨slot, hslot⟩)
    constructor
    · rintro ⟨table, slot⟩ hmem
      have hget := Dict.get?_eq_some_iff.mpr hmem
      rw [Dict.get?_set] at hget
      split at hget
      · rename_i heq
        rw [← Option.some.inj hget, ← eq_of_beq heq]
        exact hitem
      · exact h.items _ (Dict.get?_eq_some_iff.mp hget)
    · intro table htable
      exact List.mem_append_left _ (h.kept table htable)
    · intro table htable
      rcases hkeys table htable with rfl | htable
      · exact List.mem_append_right _ List.mem_cons_self
      · exact List.mem_append_left _ (h.visited table htable)
    · intro table htable hbefore
      rcases hkeys table htable with rfl | htable
      · exact hnew (h.kept _ hbefore)
      · exact h.fresh table htable hbefore

theorem Visit.Ok.foldl_add {P : Text × Slot → Prop} {before : List Text}
    {items : List (Text × Slot)} (hitems : ∀ item ∈ items, P item) {visit : Visit}
    (h : visit.Ok P before) :
  (items.foldl Visit.add visit).Ok P before
  := by
  induction items generalizing visit with
  | nil => exact h
  | cons item items ih =>
      exact ih (fun i hi => hitems i (List.mem_cons_of_mem _ hi))
        (h.add (hitems item List.mem_cons_self))

/-- The tables that are expanded next are reached at the next depth, and are new. -/
theorem visit_ok {depth : ℕ} {level : List (Text × Slot)}
    (hlevel : LevelOk focusTable keyColumns edges includeInferred depth level)
    (visited : List Text) :
  (level.foldl (Visit.expand edges includeInferred) { visited }).Ok
    (fun item => SlotOk focusTable keyColumns edges includeInferred (depth + 1) item.1 item.2)
    visited
  := by
  have hfold : ∀ (l : List (Text × Slot)) (visit : Visit), (∀ item ∈ l, item ∈ level) →
      visit.Ok (fun item => SlotOk focusTable keyColumns edges includeInferred (depth + 1)
        item.1 item.2) visited →
      (l.foldl (Visit.expand edges includeInferred) visit).Ok
        (fun item => SlotOk focusTable keyColumns edges includeInferred (depth + 1) item.1 item.2)
        visited := by
    intro l
    induction l with
    | nil => exact fun visit _ hvisit => hvisit
    | cons item l ih =>
        intro visit hmem hvisit
        apply ih _ (fun i hi => hmem i (List.mem_cons_of_mem _ hi))
        apply hvisit.foldl_add
        intro found hfound
        have hok := resolve_ok (hlevel item (hmem item List.mem_cons_self))
        exact hok.slot found.1 found.2 (Dict.get?_eq_some_iff.mpr hfound)
  apply hfold _ _ (fun _ hmem => hmem)
  constructor
  · intro item hitem
    cases hitem
  · exact fun _ htable => htable
  · intro table htable
    cases htable
  · intro table htable
    cases htable

/-- All tables of a walk are reached at the depth of their level. -/
theorem walk_levelOk {fuel depth n : ℕ} {frontier : Dict Text Slot} {visited : List Text}
    {level : List (Text × Slot)}
    (hfrontier : LevelOk focusTable keyColumns edges includeInferred depth frontier.items)
    (h : (walk edges includeInferred fuel frontier visited)[n]? = some level) :
  LevelOk focusTable keyColumns edges includeInferred (depth + n) level
  := by
  induction fuel generalizing depth n frontier visited with
  | zero => cases h
  | succ fuel ih =>
      cases n with
      | zero =>
          obtain rfl : frontier.items = level := Option.some.inj h
          exact hfrontier
      | succ n =>
          rw [walk] at h
          rw [List.getElem?_cons_succ] at h
          split at h
          · cases h
          · rw [Nat.add_comm n 1, ← Nat.add_assoc]
            exact ih (visit_ok hfrontier visited).items h

theorem length_walk_le (fuel : ℕ) (frontier : Dict Text Slot) (visited : List Text) :
  (walk edges includeInferred fuel frontier visited).length ≤ fuel
  := by
  induction fuel generalizing frontier visited with
  | zero => exact Nat.le_refl 0
  | succ fuel ih =>
      rw [walk]
      rw [List.length_cons]
      split
      · exact Nat.succ_le_succ (Nat.zero_le fuel)
      · exact Nat.succ_le_succ (ih _ _)

/-- No table of a walk is expanded twice, and none that has been visited before, but those that the
walk starts with. -/
theorem walk_nodup {fuel depth : ℕ} {frontier : Dict Text Slot} {visited before : List Text}
    (hfrontier : LevelOk focusTable keyColumns edges includeInferred depth frontier.items)
    (hvisited : ∀ table ∈ frontier.keys, table ∈ visited)
    (hfresh : ∀ table ∈ frontier.keys, table ∉ before) (hbefore : ∀ table ∈ before, table ∈ visited) :
  ((walk edges includeInferred fuel frontier visited).flatten.map Prod.fst).Nodup
    ∧ ∀ item ∈ (walk edges includeInferred fuel frontier visited).flatten, item.1 ∉ before
  := by
  induction fuel generalizing depth frontier visited before with
  | zero => simp [walk]
  | succ fuel ih =>
      have hkeys : ∀ item ∈ frontier.items, item.1 ∈ frontier.keys :=
        fun item hitem => List.mem_map_of_mem hitem
      rw [walk]
      rw [List.flatten_cons, List.map_append]
      split
      · rw [List.flatten_nil, List.map_nil, List.append_nil, List.append_nil]
        exact ⟨Dict.keys_nodup frontier, fun item hitem => hfresh _ (hkeys item hitem)⟩
      · have hvisit := visit_ok hfrontier visited
        obtain ⟨hnodup, hnew⟩ := ih hvisit.items hvisit.visited hvisit.fresh hvisit.kept
        constructor
        · rw [List.nodup_append]
          refine ⟨Dict.keys_nodup frontier, hnodup, ?_⟩
          rintro table htable _ hlater rfl
          obtain ⟨item, hitem, rfl⟩ := List.mem_map.mp hlater
          exact hnew item hitem (hvisited _ htable)
        · intro item hitem
          rcases List.mem_append.mp hitem with hitem | hitem
          · exact hfresh _ (hkeys item hitem)
          · exact fun hmem => hnew item hitem (hbefore _ hmem)

/-! ### Tracing from the focus -/

/-- The key columns of the focus have been traced to themselves. -/
theorem focus_levelOk :
  LevelOk focusTable keyColumns edges includeInferred 0
    ((Dict.empty : Dict Text Slot).set focusTable
      (keyColumns.map (fun column => some ⟨column, []⟩))).items
  := by
  rintro ⟨table, slot⟩ hmem
  have hget := Dict.get?_eq_some_iff.mpr hmem
  rw [Dict.get?_set] at hget
  split at hget
  · rename_i heq
    rw [← eq_of_beq heq, ← Option.some.inj hget]
    constructor
    · rw [List.length_map]
    · intro i traced hi
      rw [List.getElem?_map] at hi
      obtain ⟨key, hkey, htraced⟩ := Option.map_eq_some_iff.mp hi
      rw [← Option.some.inj htraced]
      refine ⟨key, hkey, rfl, rfl, ?_⟩
      intro edge hedge
      cases hedge
  · cases hget

/-- The tables that are expanded have been reached at the depth of their level, which is less than
the limit. -/
theorem expandedTables_levelOk {maxDepth : ℤ} {n : ℕ} {level : List (Text × Slot)}
    (h : (expandedTables focusTable keyColumns edges includeInferred maxDepth)[n]? = some level) :
  n < depthLimit maxDepth ∧ LevelOk focusTable keyColumns edges includeInferred n level
  := by
  rw [expandedTables] at h
  split at h
  · cases h
  · constructor
    · exact Nat.lt_of_lt_of_le (List.getElem?_eq_some_iff.mp h).1 (length_walk_le _ _ _)
    · have hlevel := walk_levelOk focus_levelOk h
      rw [Nat.zero_add] at hlevel
      exact hlevel

/-- A hop comes from a table that is expanded one level before. -/
theorem exists_of_mem_buildUpstreamHops {maxDepth : ℤ} {hop : UpstreamHop}
    (h : hop ∈ buildUpstreamHops focusTable keyColumns edges includeInferred maxDepth) :
  ∃ n < depthLimit maxDepth, ∃ item,
    SlotOk focusTable keyColumns edges includeInferred n item.1 item.2
      ∧ hop ∈ tableHops edges includeInferred (n + 1) item
  := by
  obtain ⟨⟨level, depth⟩, hlevel, hhop⟩ := List.mem_flatMap.mp h
  obtain ⟨item, hitem, hhop⟩ := List.mem_flatMap.mp hhop
  obtain ⟨hle, hlevel⟩ := List.mk_mem_zipIdx_iff_le_and_getElem?_sub.mp hlevel
  obtain ⟨hlt, hok⟩ := expandedTables_levelOk hlevel
  refine ⟨depth - 1, hlt, item, hok item hitem, ?_⟩
  rw [Nat.sub_add_cancel hle]
  exact hhop

theorem depth_of_mem_tableHops {depth : ℕ} {item : Text × Slot} {hop : UpstreamHop}
    (h : hop ∈ tableHops edges includeInferred depth item) :
  hop.depth = depth
  := by
  rw [tableHops, List.mem_append] at h
  rcases h with h | h
  · obtain ⟨found, -, rfl⟩ := List.mem_map.mp h
    rfl
  · split at h
    · obtain ⟨found, -, rfl⟩ := List.mem_map.mp h
      rfl
    · cases h

/-- A hop that is available is one of the tables that have been found, with its edges. -/
theorem available_of_mem_tableHops {depth : ℕ} {item : Text × Slot} {hop : UpstreamHop}
    (h : hop ∈ tableHops edges includeInferred depth item) (havailable : hop.available = true) :
  ∃ found ∈ (resolve edges includeInferred item.1 item.2).resolved.items,
    hop = availableHop depth (resolve edges includeInferred item.1 item.2) found
  := by
  rw [tableHops, List.mem_append] at h
  rcases h with h | h
  · obtain ⟨found, hfound, rfl⟩ := List.mem_map.mp h
    exact ⟨found, hfound, rfl⟩
  · split at h
    · obtain ⟨found, -, rfl⟩ := List.mem_map.mp h
      cases havailable
    · cases h

end Sound

/-- What tracing promises of a focus and its key columns. -/
structure TracesSoundly (focusTable : Text) (keyColumns : List Text) (edges : List UpstreamEdge)
    (includeInferred : Bool) (maxDepth : ℤ) : Prop where
  depth_le : ∀ hop ∈ buildUpstreamHops focusTable keyColumns edges includeInferred maxDepth,
    (hop.depth : ℤ) ≤ max 1 (min maxDepth 5)
  expanded_once :
    ((expandedTables focusTable keyColumns edges includeInferred maxDepth).flatten.map
      Prod.fst).Nodup
  reached : ∀ hop ∈ buildUpstreamHops focusTable keyColumns edges includeInferred maxDepth,
    hop.available = true → ∀ (i : ℕ) column, hop.keyColumns[i]? = some (some column) →
      ∃ key, keyColumns[i]? = some key ∧ ∃ chain : List UpstreamEdge, chain.length = hop.depth
        ∧ Leads (focusTable, key) chain (hop.table, column)
        ∧ ∀ edge ∈ chain, edge ∈ edges ∧ Usable includeInferred edge

/-- Tracing is sound and bounded. -/
theorem traces_soundly (focusTable : Text) (keyColumns : List Text) (edges : List UpstreamEdge)
    (includeInferred : Bool) (maxDepth : ℤ) :
  TracesSoundly focusTable keyColumns edges includeInferred maxDepth
  := by
  constructor
  · intro hop hhop
    obtain ⟨n, hn, item, -, hmem⟩ := exists_of_mem_buildUpstreamHops hhop
    rw [depth_of_mem_tableHops hmem]
    rw [depthLimit, maxUpstreamDepth] at hn
    omega
  · rw [expandedTables]
    split
    · exact List.nodup_nil
    · have hkeys : ∀ table ∈ ((Dict.empty : Dict Text Slot).set focusTable
          (keyColumns.map (fun column => some ⟨column, []⟩))).keys, table ∈ [focusTable] :=
        fun _ htable => htable
      exact (walk_nodup focus_levelOk hkeys (fun _ _ => List.not_mem_nil)
        (fun _ hmem => absurd hmem List.not_mem_nil)).1
  · intro hop hhop havailable i column hcolumn
    obtain ⟨n, -, item, hslot, hmem⟩ := exists_of_mem_buildUpstreamHops hhop
    obtain ⟨found, hfound, rfl⟩ := available_of_mem_tableHops hmem havailable
    have hok := (resolve_ok hslot).slot found.1 found.2 (Dict.get?_eq_some_iff.mpr hfound)
    rw [UpstreamHop.keyColumns, List.getElem?_map] at hcolumn
    obtain ⟨place, hplace, hcolumn⟩ := Option.map_eq_some_iff.mp hcolumn
    obtain ⟨traced, rfl, rfl⟩ := Option.map_eq_some_iff.mp hcolumn
    obtain ⟨key, hkey, hreached⟩ := hok.reached i traced hplace
    exact ⟨key, hkey, traced.chain, hreached.length_eq, hreached.leads, hreached.usable⟩

end Upstream

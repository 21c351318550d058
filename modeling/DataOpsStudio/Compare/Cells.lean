import DataOpsStudio.Compare.Ignored
import DataOpsStudio.Compare.Reported

/-!
# The cells of an event

An event is a difference exactly when a cell is written for it: the rows are judged by the columns
that are compared, the cells are looked for among all columns and kept under the names of the
compared ones, and columns that have the same name hold the same value.
-/

namespace Compare

open Text

/-! ### Normalised values by column -/

/-- The types whose values are normalised as numbers. -/
def ColumnType.numeric : ColumnType → Bool
  | .integer | .decimal | .float => true
  | _ => false

/-- Only numbers can fail to be normalised. -/
theorem exists_normalizeValue {lib : Builtins} {column : CompareColumn}
    (h : column.type.numeric = false) (value : PyValue) (rules : CompareRules) :
  ∃ normalized, normalizeValue lib column value rules = .ok normalized
  := by
  rw [normalizeValue]
  split
  · exact ⟨_, rfl⟩
  · split
    · rename_i htype
      rw [htype] at h
      cases h
    · rename_i htype
      rw [htype] at h
      cases h
    · rename_i htype
      rw [htype] at h
      cases h
    all_goals exact ⟨_, rfl⟩

section Entries

variable (lib : Builtins) (rules : CompareRules)

/-- The entry of a column in an identity, when its value can be normalised. -/
def entry (column : CompareColumn) (value : PyValue) : Bool × Text :=
  identityOf rules ((normalizeValue lib column value rules).toOption.getD none)

variable {lib rules}

theorem normalizedCompareIdentity_map {columns : List CompareColumn}
    {values : CompareColumn → PyValue} {identity : Identity} :
  normalizedCompareIdentity lib columns (columns.map values) rules = .ok identity
    ↔ (∀ column ∈ columns,
        ∃ normalized, normalizeValue lib column (values column) rules = .ok normalized)
      ∧ identity = columns.map (fun column => entry lib rules column (values column))
  := by
  have heq : normalizedCompareIdentity lib columns (columns.map values) rules
      = (columns.mapM (fun column => normalizeValue lib column (values column) rules)).map
        (List.map (identityOf rules)) := by
    rw [normalizedCompareIdentity, normalizedValues, if_neg (by simp),
      ← List.map_prod_left_eq_zip, List.mapM_map]
    rfl
  rw [heq, Outcome.map_eq_ok]
  constructor
  · rintro ⟨normalized, hnormalized, rfl⟩
    obtain ⟨hall, rfl⟩ := (Outcome.mapM_eq_ok_map none).mp hnormalized
    use hall
    rw [List.map_map]
    rfl
  · rintro ⟨hall, rfl⟩
    refine ⟨_, (Outcome.mapM_eq_ok_map none).mpr ⟨hall, rfl⟩, ?_⟩
    rw [List.map_map]
    rfl

end Entries

/-! ### The cells of two rows -/

/-- The cells of two rows whose values are given by column. -/
theorem cellDiffs_eq_ok {lib : Builtins} {rules : CompareRules} {columns : List CompareColumn}
    {source target : CompareColumn → PyValue} {names : List String} {cells : List DiffCell} :
  cellDiffs lib columns (columns.map source) (columns.map target) rules names = .ok cells
    ↔ (∀ column ∈ columns,
        (∃ normalized, normalizeValue lib column (source column) rules = .ok normalized)
          ∧ ∃ normalized, normalizeValue lib column (target column) rules = .ok normalized)
      ∧ cells = columns.filterMap (fun column =>
          if column.name ∉ names
              ∨ entry lib rules column (source column) = entry lib rules column (target column)
          then none
          else some { column := column.name, source := source column, target := target column })
  := by
  have hcells : ∀ l : List CompareColumn,
      ((l.zip ((l.map source).zip (l.map target))).zip
        ((l.map (fun column => entry lib rules column (source column))).zip
          (l.map (fun column => entry lib rules column (target column))))).filterMap
        (fun p => if p.1.1.name ∉ names ∨ p.2.1 = p.2.2 then none
          else some { column := p.1.1.name, source := p.1.2.1, target := p.1.2.2 })
      = l.filterMap (fun column =>
          if column.name ∉ names
              ∨ entry lib rules column (source column) = entry lib rules column (target column)
          then none
          else some { column := column.name, source := source column,
                      target := target column : DiffCell }) := by
    intro l
    induction l with
    | nil => rfl
    | cons column rest ih =>
        simp only [List.map_cons, List.zip_cons_cons, List.filterMap_cons, ih]
  rw [cellDiffs, Outcome.bind_eq_ok]
  constructor
  · rintro ⟨sourceIdentity, hs, h⟩
    obtain ⟨targetIdentity, ht, h⟩ := Outcome.bind_eq_ok.mp h
    obtain ⟨hsource, rfl⟩ := normalizedCompareIdentity_map.mp hs
    obtain ⟨htarget, rfl⟩ := normalizedCompareIdentity_map.mp ht
    obtain rfl := Outcome.pure_eq_ok.mp h
    exact ⟨fun c hc => ⟨hsource c hc, htarget c hc⟩, hcells columns⟩
  · rintro ⟨hall, rfl⟩
    refine ⟨_, normalizedCompareIdentity_map.mpr ⟨fun c hc => (hall c hc).1, rfl⟩, ?_⟩
    apply Outcome.bind_eq_ok.mpr
    refine ⟨_, normalizedCompareIdentity_map.mpr ⟨fun c hc => (hall c hc).2, rfl⟩, ?_⟩
    rw [hcells columns]
    rfl

namespace CompareConfig

variable {config : CompareConfig} {lib : Builtins}

/-- The columns that decide equality are those whose names are not ignored. -/
theorem mem_diffColumnNames {column : CompareColumn} (h : column ∈ config.columns) :
  column.name ∈ config.diffColumnNames ↔ column.name ∉ config.rules.ignoreColumns
  := by
  rw [diffColumnNames, List.mem_map]
  constructor
  · rintro ⟨compared, hcompared, hname⟩
    rw [← hname]
    apply of_decide_eq_true (List.mem_filter.mp hcompared).2
  · intro hkept
    exact ⟨column, List.mem_filter.mpr ⟨h, decide_eq_true hkept⟩, rfl⟩

theorem recordIdentity_eq_ok {record : String → PyValue} {identity : Identity} :
  config.recordIdentity lib record = .ok identity
    ↔ (∀ column ∈ config.compareColumns,
        ∃ normalized, normalizeValue lib column (record column.name) config.rules = .ok normalized)
      ∧ identity = config.compareColumns.map
          (fun column => entry lib config.rules column (record column.name))
  := normalizedCompareIdentity_map

/-- A record that differs from another in a compared column has another identity. -/
theorem identity_ne_iff {record record' : String → PyValue} {identity identity' : Identity}
    (h : config.recordIdentity lib record = .ok identity)
    (h' : config.recordIdentity lib record' = .ok identity') :
  identity ≠ identity'
    ↔ ∃ column ∈ config.compareColumns,
        entry lib config.rules column (record column.name)
          ≠ entry lib config.rules column (record' column.name)
  := by
  rw [(recordIdentity_eq_ok.mp h).2, (recordIdentity_eq_ok.mp h').2, ne_eq, List.map_inj_left]
  push Not
  rfl

/-- Two rows are equivalent when their records have the same identity. -/
theorem rowsEquivalent_iff {record record' : String → PyValue} {identity identity' : Identity} :
  rowsEquivalent (config.identifiedRow lib record identity)
      (config.identifiedRow lib record' identity') = true
    ↔ identity = identity'
  := normal_beq_iff

/-- The event of two rows whose shown values are given by column. -/
def shownEvent (config : CompareConfig) (pk : List PyValue) (same : Bool)
    (source target : CompareColumn → PyValue) : CompareDiffEvent Cell where
  bucket := if same then .same else .diff
  pk := pk
  sourceValues := some (config.columns.map (fun column => .raw (source column)))
  targetValues := some (config.columns.map (fun column => .raw (target column)))

theorem pairEvent_identifiedRow {pk : List PyValue} {record record' : String → PyValue}
    {identity identity' : Identity} :
  pairEvent pk (config.identifiedRow lib record identity)
      (config.identifiedRow lib record' identity')
    = config.shownEvent pk (decide (identity = identity')) (fun column => record column.name)
        (fun column => record' column.name)
  := by
  rw [pairEvent, shownEvent, shown_identifiedRow, shown_identifiedRow]
  congr 1
  apply if_congr _ rfl rfl
  rw [decide_eq_true_iff]
  apply rowsEquivalent_iff

/-- The row that is written for two rows. -/
theorem spoolRow_shownEvent {pk : List PyValue} {same : Bool}
    {source target : CompareColumn → PyValue} :
  config.spoolRow lib (config.shownEvent pk same source target)
    = (if same then .ok []
        else cellDiffs lib config.columns (config.columns.map source) (config.columns.map target)
          config.rules config.diffColumnNames).map (fun cells => {
            pk := valuesDict config.key pk
            source := some (valuesDict config.columns (config.columns.map source))
            target := some (valuesDict config.columns (config.columns.map target))
            cells })
  := by
  have hvalues : ∀ values : CompareColumn → PyValue,
      (config.columns.map (fun column => Cell.raw (values column))).map Cell.value
        = config.columns.map values := by
    intro values
    rw [List.map_map]
    rfl
  rw [spoolRow, compareEventToSpoolRow]
  simp only [shownEvent, Option.map_some, hvalues]
  cases same with
  | true => rfl
  | false => apply Outcome.bind_pure_eq_map

/-- An event of a run is a difference exactly when a cell is written for it. -/
theorem diff_iff_cells {event : CompareDiffEvent Cell}
    (hevent : Reported (config.IsRow lib) (config.IsRow lib) (config.Mates lib) event)
    {row : SpoolRow} (hrow : config.spoolRow lib event = .ok row) :
  event.bucket = .diff ↔ row.cells ≠ []
  := by
  cases hevent with
  | onlySource left =>
      obtain rfl := Outcome.pure_eq_ok.mp hrow
      simp
  | onlyTarget right =>
      obtain rfl := Outcome.pure_eq_ok.mp hrow
      simp
  | pair left right _ =>
      obtain ⟨record, hrecord⟩ := left
      obtain ⟨record', hrecord'⟩ := right
      obtain ⟨identity, hidentity, rfl⟩ := recordRow_eq_ok.mp hrecord
      obtain ⟨identity', hidentity', rfl⟩ := recordRow_eq_ok.mp hrecord'
      rw [pairEvent_identifiedRow] at hrow ⊢
      rw [spoolRow_shownEvent] at hrow
      obtain ⟨cells, hcells, rfl⟩ := Outcome.map_eq_ok.mp hrow
      rw [shownEvent]
      by_cases heq : identity = identity'
      · rw [decide_eq_true heq] at hcells ⊢
        obtain rfl := Except.ok.inj hcells
        simp
      · rw [decide_eq_false heq] at hcells ⊢
        obtain ⟨-, rfl⟩ := cellDiffs_eq_ok.mp hcells
        obtain ⟨column, hcolumn, hne⟩ := (identity_ne_iff hidentity hidentity').mp heq
        have hmem := (List.mem_filter.mp hcolumn).1
        have hkept := of_decide_eq_true (List.mem_filter.mp hcolumn).2
        constructor
        · intro _
          apply List.ne_nil_of_mem
          apply List.mem_filterMap.mpr
          refine ⟨column, hmem, ?_⟩
          rw [if_neg]
          rintro (h | h)
          · apply h ((mem_diffColumnNames hmem).mpr hkept)
          · apply hne h
        · intro _
          rfl

end CompareConfig

end Compare

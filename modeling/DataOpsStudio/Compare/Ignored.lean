import DataOpsStudio.Compare.Records

/-!
# Ignored columns in the events of a run

Two sides that differ only in ignored columns return rows that become the same once what is shown
of the ignored columns is hidden.  When no key column is ignored, two runs over such sides yield
the same events, up to what they show of the ignored columns.
-/

namespace Compare

open Text

namespace CompareConfig

variable (config : CompareConfig)

/-! ### Sides that differ in ignored columns -/

/-- Two records have the same values in every configured column that is not ignored. -/
def SameOutside {α : Type} (record record' : String → α) : Prop :=
  ∀ column ∈ config.key ++ config.columns, column.name ∉ config.rules.ignoreColumns →
    record column.name = record' column.name

/-- Two sides whose columns have the given names differ only in the values of ignored columns. -/
inductive SameSide (name : String → String) : CompareSide → CompareSide → Prop where
  | database (db : Database) {rows : List DbRow}
      (same : List.Forall₂ (fun row row' => config.SameOutside (row ∘ name) (row' ∘ name))
        db.rows rows) :
      SameSide name (.database db) (.database { db with rows })
  | rows {rows rows' : List (String → PyValue)} (cancelRequested : ℕ → Bool)
      (same : List.Forall₂ (fun row row' => config.SameOutside (row ∘ name) (row' ∘ name))
        rows rows') :
      SameSide name (.rows rows cancelRequested) (.rows rows' cancelRequested)

/-- The key columns are not ignored. -/
def KeyKept : Prop := ∀ column ∈ config.key, column.name ∉ config.rules.ignoreColumns

/-- Shown values without those of the ignored columns. -/
def hideIgnored (values : List Cell) : List Cell :=
  List.zipWith
    (fun column value => if column.name ∈ config.rules.ignoreColumns then .raw .none else value)
    config.columns values

theorem keepsEmpty_hideIgnored :
  KeepsEmpty config.hideIgnored
  := by
  intro values
  rw [hideIgnored, List.zipWith_eq_nil_iff]
  simp [config.columns_ne]

variable {config} {lib : Builtins} {name : String → String}

/-! ### Rows -/

/-- Records that differ in ignored columns are compared alike. -/
theorem recordRow_same (hkey : config.KeyKept) {record record' : String → PyValue}
    (h : config.SameOutside record record') :
  (config.recordRow lib record).map (CompareRow.mapShown config.hideIgnored)
    = (config.recordRow lib record').map (CompareRow.mapShown config.hideIgnored)
  := by
  have hidentity : config.recordIdentity lib record = config.recordIdentity lib record' := by
    rw [recordIdentity, recordIdentity]
    congr 1
    apply List.map_congr_left
    intro column hcolumn
    obtain ⟨hmem, hkept⟩ := List.mem_filter.mp hcolumn
    apply h column (List.mem_append_right _ hmem) (of_decide_eq_true hkept)
  have hpk : config.key.map (fun column => record column.name)
      = config.key.map (fun column => record' column.name) := by
    apply List.map_congr_left
    intro column hcolumn
    apply h column (List.mem_append_left _ hcolumn) (hkey column hcolumn)
  have hshown : config.hideIgnored (config.columns.map (fun c => Cell.raw (record c.name)))
      = config.hideIgnored (config.columns.map (fun c => Cell.raw (record' c.name))) := by
    simp only [hideIgnored, List.zipWith_map_right, List.zipWith_self]
    apply List.map_congr_left
    intro column hcolumn
    split
    · rfl
    · rename_i hkept
      rw [h column (List.mem_append_right _ hcolumn) hkept]
  rw [recordRow, recordRow, hidentity]
  cases config.recordIdentity lib record' with
  | error e => rfl
  | ok identity =>
      apply congrArg Except.ok
      simp only [CompareRow.mapShown, shown_identifiedRow, hshown]
      rw [identifiedRow, identifiedRow, hpk]

theorem sameOutside_tableRecord {row row' : DbRow} (type : NumberType)
    (h : config.SameOutside (row ∘ name) (row' ∘ name)) :
  config.SameOutside (tableRecord name type row) (tableRecord name type row')
  := by
  intro column hcolumn hkept
  rw [tableRecord, tableRecord]
  congr 1
  apply h column hcolumn hkept

/-! ### Tables -/

section Tables

variable {db : Database} {rows : List DbRow} {reader reader' : DatabaseCompareReader}

/-- The rows of two lists that differ in ignored columns, as two readers return them. -/
theorem mapM_rowToCompare_same (hkey : config.KeyKept)
    (h : config.reader lib name db = .ok reader)
    (h' : config.reader lib name { db with rows } = .ok reader') {l l' : List DbRow}
    (same : List.Forall₂ (fun row row' => config.SameOutside (row ∘ name) (row' ∘ name)) l l') :
  (l.mapM (fun row => reader.rowToCompare (reader.rowValues row))).map
      (List.map (CompareRow.mapShown config.hideIgnored))
    = (l'.mapM (fun row => reader'.rowToCompare (reader'.rowValues row))).map
      (List.map (CompareRow.mapShown config.hideIgnored))
  := by
  rw [Outcome.map_mapM, Outcome.map_mapM]
  apply Outcome.mapM_eq_mapM
  apply same.imp
  intro row row' hrow
  rw [rowToCompare_eq_recordRow h, rowToCompare_eq_recordRow h']
  apply recordRow_same hkey (sameOutside_tableRecord _ hrow)

/-- Tables that differ in ignored columns hold rows in the same places of a key column. -/
theorem filter_same (hkey : config.KeyKept) {column : CompareColumn} (hcolumn : column ∈ config.key)
    (p : DbValue → Bool) {l l' : List DbRow}
    (same : List.Forall₂ (fun row row' => config.SameOutside (row ∘ name) (row' ∘ name)) l l') :
  List.Forall₂ (fun row row' => config.SameOutside (row ∘ name) (row' ∘ name))
    (l.filter (fun row => p (row (name column.name))))
    (l'.filter (fun row => p (row (name column.name))))
  := by
  apply List.rel_filter _ same
  intro row row' hrow
  have hvalue : row (name column.name) = row' (name column.name) :=
    hrow column (List.mem_append_left _ hcolumn) (hkey column hcolumn)
  simp only [hvalue]

/-- Readers of tables that differ in ignored columns agree. -/
theorem reader_agree (hkey : config.KeyKept) (h : config.reader lib name db = .ok reader)
    (h' : config.reader lib name { db with rows } = .ok reader')
    (same : List.Forall₂ (fun row row' => config.SameOutside (row ∘ name) (row' ∘ name))
      db.rows rows) :
  reader.Agree config.hideIgnored reader'
  := by
  obtain ⟨first, others, hfirst⟩ : ∃ first others, config.key = first :: others :=
    List.exists_cons_of_ne_nil config.keyColumns_ne
  have hmem : first ∈ config.key := by
    rw [hfirst]
    apply List.mem_cons_self
  obtain ⟨hdb, hcolumns, hnames⟩ := reader_keys h
  obtain ⟨hdb', hcolumns', hnames'⟩ := reader_keys h'
  have hfetch : ∀ segment, (reader.fetchRows (some segment)).map
        (List.map (CompareRow.mapShown config.hideIgnored))
      = (reader'.fetchRows (some segment)).map
        (List.map (CompareRow.mapShown config.hideIgnored)) := by
    intro segment
    apply mapM_rowToCompare_same hkey h h'
    rw [selected_some h hfirst, selected_some h' hfirst]
    apply filter_same hkey hmem
      (fun value => (value.integer?.map (fun k => decide (segment.Holds k))).getD false) same
  have hvalues : db.rows.map (fun row => row (name first.name))
      = rows.map (fun row => row (name first.name)) := by
    rw [← List.forall₂_eq_eq_eq, List.forall₂_map_left_iff, List.forall₂_map_right_iff]
    apply same.imp
    intro row row' hrow
    apply hrow first (List.mem_append_left _ hmem) (hkey first hmem)
  have hintegers : db.integers (name first.name)
      = Database.integers { db with rows } (name first.name) := by
    have hmap := congrArg (List.filterMap DbValue.integer?) hvalues
    rw [List.filterMap_map, List.filterMap_map] at hmap
    apply hmap
  have hminMax : db.minMax (name first.name)
      = Database.minMax { db with rows } (name first.name) := by
    rw [Database.minMax, Database.minMax, hintegers]
  constructor
  · simp only [DatabaseCompareReader.bounds, hcolumns, hcolumns', hnames, hnames', hfirst, hdb,
      hdb', List.map_cons]
    cases others with
    | nil => simp only [hminMax]
    | cons second others => rfl
  · rw [hdb, hdb']
    apply same.length_eq
  · intro segment
    have hclient : reader.clientFingerprint segment = reader'.clientFingerprint segment := by
      apply Outcome.bind_congr_of_map (hfetch segment)
      intro fetched fetched' heq
      have hlength := congrArg List.length heq
      have hhashes := congrArg (List.map (fun row => row.rowHash64.getD 0)) heq
      rw [List.length_map, List.length_map] at hlength
      rw [List.map_map, List.map_map] at hhashes
      rw [hlength]
      apply congrArg (fun hashes : List ℕ => Except.ok (SegmentFingerprint.mk _ hashes.sum)) hhashes
    unfold DatabaseCompareReader.segmentFingerprint
    rw [hclient, hdb, hdb']
  · apply hfetch
  · intro maxRows
    cases maxRows with
    | none =>
        apply mapM_rowToCompare_same hkey h h'
        rw [selected_none h, selected_none h']
        apply same
    | some n =>
        have hnatural : ∀ fetched : Except CompareError (List (CompareRow Cell)),
            (do
                let fetched ← fetched
                if n < rows.length then .error (.maxRowsExceeded n) else return fetched).map
                (List.map (CompareRow.mapShown config.hideIgnored))
              = (do
                let fetched ← fetched.map (List.map (CompareRow.mapShown config.hideIgnored))
                if n < rows.length then .error (.maxRowsExceeded n) else return fetched) := by
          intro fetched
          apply Outcome.map_bind
          intro fetched
          split
          · rfl
          · rfl
        simp only [DatabaseCompareReader.fetchAll, selected_none h, selected_none h',
          same.length_eq, hnatural]
        rw [mapM_rowToCompare_same hkey h h' (List.forall₂_take _ same)]
  · intro anchor
    have hfiltered := filter_same hkey hmem
      (fun value => (value.integer?.map (fun k => decide (anchor ≤ k))).getD false) same
    simp only [DatabaseCompareReader.fetchFirstAtOrAfter, hcolumns, hcolumns', hnames, hnames',
      hfirst, hdb, hdb', List.map_cons]
    cases others with
    | nil =>
        have hnatural : ∀ found : Except CompareError (CompareRow Cell),
            (found.map some).map (Option.map (CompareRow.mapShown config.hideIgnored))
              = (found.map (CompareRow.mapShown config.hideIgnored)).map some := by
          intro found
          cases found with
          | error e => rfl
          | ok row => rfl
        simp only []
        generalize db.rows.filter _ = found at hfiltered ⊢
        generalize rows.filter _ = found' at hfiltered ⊢
        cases hfiltered with
        | nil => rfl
        | cons hrow _ =>
            simp only [hnatural, rowToCompare_eq_recordRow h, rowToCompare_eq_recordRow h']
            rw [recordRow_same hkey (sameOutside_tableRecord _ hrow)]
    | cons second others => rfl
  · intro k
    simp only [DatabaseCompareReader.fetchKey, hcolumns, hcolumns']
    split
    · apply hfetch
    · rfl

end Tables

/-! ### Runs -/

theorem forall₂_zipIdx {α β : Type} {r : α → β → Prop} {l : List α} {m : List β}
    (h : List.Forall₂ r l m) (first : ℕ) :
  List.Forall₂ (fun p q => r p.1 q.1 ∧ p.2 = q.2) (l.zipIdx first) (m.zipIdx first)
  := by
  induction h generalizing first with
  | nil => apply List.Forall₂.nil
  | cons hhead _ ih =>
      rw [List.zipIdx_cons, List.zipIdx_cons]
      exact .cons ⟨hhead, rfl⟩ (ih _)

/-- The readers of two sides that differ in ignored columns are of the same kind. -/
inductive SameReader (config : CompareConfig) : CompareReader → CompareReader → Prop where
  | database {reader reader' : DatabaseCompareReader}
      (agree : reader.Agree config.hideIgnored reader') :
      SameReader config (.database reader) (.database reader')
  | file {reader reader' : FileCompareReader}
      (agree : ∀ maxRows, (reader.fetchAll maxRows).map
          (List.map (CompareRow.mapShown config.hideIgnored))
        = (reader'.fetchAll maxRows).map (List.map (CompareRow.mapShown config.hideIgnored))) :
      SameReader config (.file reader) (.file reader')

theorem sideReader_same (hkey : config.KeyKept) {side side' : CompareSide}
    (same : config.SameSide name side side') {reader reader' : CompareReader}
    (h : config.sideReader lib name side = .ok reader)
    (h' : config.sideReader lib name side' = .ok reader') :
  config.SameReader reader reader'
  := by
  cases same with
  | database db same =>
      obtain ⟨source, hsource, rfl⟩ := Outcome.map_eq_ok.mp h
      obtain ⟨source', hsource', rfl⟩ := Outcome.map_eq_ok.mp h'
      exact .database (reader_agree hkey hsource hsource' same)
  | rows cancelRequested same =>
      obtain ⟨file, rfl, hrows, hcancel, hread⟩ := sideReader_rows h
      obtain ⟨file', rfl, hrows', hcancel', hread'⟩ := sideReader_rows h'
      apply SameReader.file
      intro maxRows
      rw [FileCompareReader.fetchAll, FileCompareReader.fetchAll, hrows, hrows', same.length_eq]
      split
      · rfl
      · rw [Outcome.map_mapM, Outcome.map_mapM]
        apply Outcome.mapM_eq_mapM
        apply (forall₂_zipIdx same 0).imp
        rintro ⟨row, index⟩ ⟨row', _⟩ ⟨hrow, rfl⟩
        simp only [FileCompareReader.fetchRow, hcancel, hcancel']
        split
        · rfl
        · rw [hread, hread']
          apply recordRow_same hkey hrow

theorem SameReader.fetchAll {reader reader' : CompareReader} (h : config.SameReader reader reader')
    (maxRows : ℕ) :
  (reader.fetchAll maxRows).map (List.map (CompareRow.mapShown config.hideIgnored))
    = (reader'.fetchAll maxRows).map (List.map (CompareRow.mapShown config.hideIgnored))
  := by
  cases h with
  | database agree => apply agree.all (some maxRows)
  | file agree => apply agree

/-- The materialised diff of what two readers return. -/
theorem diffFetched_same (lib : Builtins) (cancelRequested : MaterializedLoop → ℕ → Bool)
    {source source' target target' : CompareReader} (hs : config.SameReader source source')
    (ht : config.SameReader target target') (maxRows : ℕ) :
  (do
      let sourceRows ← source.fetchAll maxRows
      let targetRows ← target.fetchAll maxRows
      diffMaterializedRows lib config.key config.rules cancelRequested sourceRows targetRows).map
        (mapEvents config.hideIgnored)
    = (do
      let sourceRows ← source'.fetchAll maxRows
      let targetRows ← target'.fetchAll maxRows
      diffMaterializedRows lib config.key config.rules cancelRequested sourceRows targetRows).map
        (mapEvents config.hideIgnored)
  := by
  have hnatural : ∀ s t : Except CompareError (List (CompareRow Cell)),
      (do
          let sourceRows ← s
          let targetRows ← t
          diffMaterializedRows lib config.key config.rules cancelRequested sourceRows
            targetRows).map (mapEvents config.hideIgnored)
        = (do
          let sourceRows ← s.map (List.map (CompareRow.mapShown config.hideIgnored))
          let targetRows ← t.map (List.map (CompareRow.mapShown config.hideIgnored))
          diffMaterializedRows lib config.key config.rules cancelRequested sourceRows
            targetRows) := by
    intro s t
    apply Outcome.map_bind
    intro sourceRows
    apply Outcome.map_bind
    intro targetRows
    rw [diffMaterializedRows_mapShown config.keepsEmpty_hideIgnored]
  rw [hnatural, hnatural, hs.fetchAll, ht.fetchAll]

/-- Runs over sides that differ in ignored columns yield the same events, up to what they show of
the ignored columns. -/
theorem compareEvents_same (hkey : config.KeyKept) (job : CompareJob)
    {source source' target target' : CompareSide}
    (hs : config.SameSide (fun n => n) source source')
    (ht : config.SameSide config.targetName target target') :
  (compareEvents lib config job source target).map (mapEvents config.hideIgnored)
    = (compareEvents lib config job source' target').map (mapEvents config.hideIgnored)
  := by
  obtain ⟨sr, hsr⟩ := config.exists_sideReader lib (fun n => n) source
  obtain ⟨sr', hsr'⟩ := config.exists_sideReader lib (fun n => n) source'
  obtain ⟨tr, htr⟩ := config.exists_sideReader lib config.targetName target
  obtain ⟨tr', htr'⟩ := config.exists_sideReader lib config.targetName target'
  have hsame := sideReader_same hkey hs hsr hsr'
  have hsame' := sideReader_same hkey ht htr htr'
  have hfetched := fun maxRows =>
    diffFetched_same lib job.cancelRequested hsame hsame' maxRows
  rw [compareEvents, compareEvents, hsr, hsr', htr, htr']
  cases hsame with
  | file agree => apply hfetched
  | database agree =>
      cases hsame' with
      | file agree' => apply hfetched
      | database agree' =>
          simp only [bind, Except.bind]
          cases job.sample with
          | none => apply runCompareHashdiff_agree config.keepsEmpty_hideIgnored agree agree'
          | some sample =>
              apply runCompareSampleQuickCheck_agree config.keepsEmpty_hideIgnored agree agree'

end CompareConfig

end Compare

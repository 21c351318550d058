import DataOpsStudio.Compare.Records

/-!
# What events report

Every event of a run is about a row of one side, or about a row of each whose keys agree: their
primary keys are equal where rows are matched by primary key, and they are normalised alike where
rows are materialised.
-/

universe u

namespace Compare

open Text

/-! ### Events of rows -/

section Events

variable {β : Type u} [BEq β]

/-- An event is about a row of one side, or about two rows that were matched. -/
inductive Reported (source target : CompareRow β → Prop)
    (mates : CompareRow β → CompareRow β → Prop) : CompareDiffEvent β → Prop where
  | onlySource {pk : List PyValue} {s : CompareRow β} (left : source s) :
      Reported source target mates
        { bucket := .onlySource, pk := pk, sourceValues := some s.shown }
  | onlyTarget {pk : List PyValue} {t : CompareRow β} (right : target t) :
      Reported source target mates
        { bucket := .onlyTarget, pk := pk, targetValues := some t.shown }
  | pair {pk : List PyValue} {s t : CompareRow β} (left : source s) (right : target t)
      (matched : mates s t) :
      Reported source target mates (pairEvent pk s t)

variable {source target source' target' : CompareRow β → Prop}
variable {mates mates' : CompareRow β → CompareRow β → Prop}

theorem Reported.imp {event : CompareDiffEvent β} (h : Reported source target mates event)
    (hs : ∀ s, source s → source' s) (ht : ∀ t, target t → target' t)
    (hmates : ∀ s t, source s → target t → mates s t → mates' s t) :
  Reported source' target' mates' event
  := by
  cases h with
  | onlySource left => exact .onlySource (hs _ left)
  | onlyTarget right => exact .onlyTarget (ht _ right)
  | pair left right matched => exact .pair (hs _ left) (ht _ right) (hmates _ _ left right matched)

theorem diffEvent_reported {pk : List PyValue} {s? t? : Option (CompareRow β)}
    {event : CompareDiffEvent β} (h : diffEvent pk s? t? = some event) (hs : ∀ s ∈ s?, source s)
    (ht : ∀ t ∈ t?, target t) (hmates : ∀ s ∈ s?, ∀ t ∈ t?, mates s t) :
  Reported source target mates event
  := by
  cases s? with
  | none =>
      cases t? with
      | none => cases h
      | some t =>
          obtain rfl := Option.some.inj h
          exact .onlyTarget (ht t rfl)
  | some s =>
      cases t? with
      | none =>
          obtain rfl := Option.some.inj h
          exact .onlySource (hs s rfl)
      | some t =>
          obtain rfl := Option.some.inj h
          exact .pair (hs s rfl) (ht t rfl) (hmates s rfl t rfl)

omit [BEq β] in
/-- What a dictionary of rows holds under a key is a row with that key. -/
theorem of_get?_rowMap {rows : List (CompareRow β)} {side : Side}
    {d : Dict (List PyValue) (CompareRow β)} (h : rowMap rows side = .ok d) {pk : List PyValue}
    {row : CompareRow β} (hget : d.get? pk = some row) :
  row ∈ rows ∧ (row.pk == pk) = true
  := by
  obtain ⟨k, hk, hmem⟩ := Dict.exists_mem_of_get? hget
  rw [rowMap_items h] at hmem
  obtain ⟨row', hrow', heq⟩ := List.mem_map.mp hmem
  obtain ⟨rfl, rfl⟩ := Prod.mk.inj heq
  exact ⟨hrow', hk⟩

/-- Two rows have equal primary keys. -/
def SamePk (s t : CompareRow β) : Prop := (s.pk == t.pk) = true

theorem diffRowMaps_reported {sourceRows targetRows : List (CompareRow β)}
    {sourceMap targetMap : Dict (List PyValue) (CompareRow β)}
    (hs : rowMap sourceRows .source = .ok sourceMap)
    (ht : rowMap targetRows .target = .ok targetMap) {event : CompareDiffEvent β}
    (h : event ∈ diffRowMaps sourceMap targetMap) :
  Reported (fun s => s ∈ sourceRows) (fun t => t ∈ targetRows) SamePk event
  := by
  obtain ⟨pk, -, hevent⟩ := List.mem_filterMap.mp h
  apply diffEvent_reported hevent
  · intro s hget
    apply (of_get?_rowMap hs hget).1
  · intro t hget
    apply (of_get?_rowMap ht hget).1
  · intro s hget t hget'
    apply BEq.trans (of_get?_rowMap hs hget).2
    apply BEq.symm (of_get?_rowMap ht hget').2

variable {left right : CompareSegmentReader β}

theorem rowLevelDiff_reported
    (hs : ∀ segment rows, left.fetchRows segment = .ok rows → ∀ s ∈ rows, source s)
    (ht : ∀ segment rows, right.fetchRows segment = .ok rows → ∀ t ∈ rows, target t)
    {segment : CompareSegment} {events : List (CompareDiffEvent β)}
    (h : rowLevelDiff left right segment = .ok events) :
  ∀ event ∈ events, Reported source target SamePk event
  := by
  obtain ⟨sourceRows, targetRows, sourceMap, targetMap, hsource, htarget, hsm, htm, rfl⟩ :=
    rowLevelDiff_ok h
  intro event hevent
  apply (diffRowMaps_reported hsm htm hevent).imp
  · apply hs segment sourceRows hsource
  · apply ht segment targetRows htarget
  · intro s t _ _ hmates
    apply hmates

theorem Visited.reported {limits : RunLimits}
    (hs : ∀ segment rows, left.fetchRows segment = .ok rows → ∀ s ∈ rows, source s)
    (ht : ∀ segment rows, right.fetchRows segment = .ok rows → ∀ t ∈ rows, target t)
    {stack : List (CompareSegment × ℕ)} {events : List (CompareDiffEvent β)} {rows : ℕ}
    (h : Visited left right limits stack events rows) :
  ∀ event ∈ events, Reported source target SamePk event
  := by
  induction h with
  | done =>
      intro event hevent
      cases hevent
  | skip _ _ _ ih => apply ih
  | descend _ ih => apply ih
  | compare diff _ ih =>
      intro event hevent
      rcases List.mem_append.mp hevent with hevent | hevent
      · apply rowLevelDiff_reported hs ht diff event hevent
      · apply ih event hevent

theorem recursiveHashdiffStream_reported {limits : RunLimits}
    (hs : ∀ segment rows, left.fetchRows segment = .ok rows → ∀ s ∈ rows, source s)
    (ht : ∀ segment rows, right.fetchRows segment = .ok rows → ∀ t ∈ rows, target t)
    {root : CompareSegment} {result : List (CompareDiffEvent β) × HashdiffProgress}
    (h : recursiveHashdiffStream left right root limits = .ok result) :
  ∀ event ∈ result.1, Reported source target SamePk event
  := by
  rw [recursiveHashdiffStream] at h
  split at h
  · split at h
    · cases h
    · rename_i events hdiff
      obtain rfl := Except.ok.inj h
      apply rowLevelDiff_reported hs ht hdiff
  · obtain ⟨rows, -, hvisited⟩ := hashdiffLoop_visited h
    apply hvisited.reported hs ht

end Events

theorem diffAllRows_reported {sourceRows targetRows : List (CompareRow Cell)}
    {result : List (CompareDiffEvent Cell) × HashdiffProgress}
    (h : diffAllRows sourceRows targetRows = .ok result) :
  ∀ event ∈ result.1,
    Reported (fun s => s ∈ sourceRows) (fun t => t ∈ targetRows) SamePk event
  := by
  obtain ⟨sourceMap, hs, h⟩ := Outcome.bind_eq_ok.mp h
  obtain ⟨targetMap, ht, h⟩ := Outcome.bind_eq_ok.mp h
  obtain rfl := Outcome.pure_eq_ok.mp h
  intro event hevent
  apply diffRowMaps_reported hs ht hevent

theorem diffMaterializedRows_reported {β : Type} [BEq β] {lib : Builtins}
    {keyColumns : List CompareColumn} {rules : CompareRules}
    {cancelRequested : MaterializedLoop → ℕ → Bool} {sourceRows targetRows : List (CompareRow β)}
    {result : List (CompareDiffEvent β) × HashdiffProgress}
    (h : diffMaterializedRows lib keyColumns rules cancelRequested sourceRows targetRows
      = .ok result) :
  ∀ event ∈ result.1,
    Reported (fun s => s ∈ sourceRows) (fun t => t ∈ targetRows)
      (fun s t => ∃ key, matchKey lib keyColumns rules s = .ok key
        ∧ matchKey lib keyColumns rules t = .ok key) event
  := by
  obtain ⟨sourceByKey, targetByKey, hs, ht, -, hevents, -⟩ := diffMaterializedRows_eq_ok.mp h
  rw [hevents]
  intro event hevent
  obtain ⟨p, hp, hmaterialized⟩ := List.mem_filterMap.mp hevent
  obtain ⟨key, -, rfl⟩ := List.mem_map.mp hp
  have hreported : ∀ pk, diffEvent pk (sourceByKey.get? key) (targetByKey.get? key) = some event →
      Reported (fun s => s ∈ sourceRows) (fun t => t ∈ targetRows)
        (fun s t => ∃ key, matchKey lib keyColumns rules s = .ok key
          ∧ matchKey lib keyColumns rules t = .ok key) event := by
    intro pk hpk
    apply diffEvent_reported hpk
    · intro s hget
      apply ((rowsByKey_get? hs).mp hget).1
    · intro t hget
      apply ((rowsByKey_get? ht).mp hget).1
    · intro s hget t hget'
      exact ⟨key, ((rowsByKey_get? hs).mp hget).2, ((rowsByKey_get? ht).mp hget').2⟩
  simp only [materializedEvent] at hmaterialized
  split at hmaterialized
  · rename_i t hsource htarget
    rw [hsource, htarget] at hreported
    apply hreported _ hmaterialized
  · rename_i s hsource
    rw [hsource] at hreported
    apply hreported _ hmaterialized
  · cases hmaterialized

/-! ### Events of a run -/

namespace CompareConfig

variable (config : CompareConfig) (lib : Builtins)

/-- A row is that of a record. -/
def IsRow (row : CompareRow Cell) : Prop := ∃ record, config.recordRow lib record = .ok row

/-- A row with an integer as its single key. -/
def IntegerRow (row : CompareRow Cell) : Prop :=
  ∃ (k : ℤ) (type : NumberType), row.pk = [type.render k]

/-- Two rows that a run matches: their keys are normalised alike, or they have equal primary keys,
and these are integers when the key is a single integer column. -/
def Mates (s t : CompareRow Cell) : Prop :=
  (∃ key, matchKey lib config.key config.rules s = .ok key
      ∧ matchKey lib config.key config.rules t = .ok key)
    ∨ (SamePk s t ∧ (singleIntegerKey config.key = true → IntegerRow s ∧ IntegerRow t))

variable {config lib} {name : String → String}

/-- The rows of a list that is read are rows of records. -/
theorem isRow_of_mapM {α : Type} {read : α → Except CompareError (CompareRow Cell)}
    (hread : ∀ a row, read a = .ok row → config.IsRow lib row) {l : List α}
    {rows : List (CompareRow Cell)} (h : l.mapM read = .ok rows) :
  ∀ row ∈ rows, config.IsRow lib row
  := by
  intro row hrow
  obtain ⟨a, -, ha⟩ := Outcome.exists_of_mem_mapM h hrow
  apply hread a row ha

theorem isRow_of_rowToCompare {db : Database} {reader : DatabaseCompareReader}
    (h : config.reader lib name db = .ok reader) (row : DbRow) (compared : CompareRow Cell)
    (hrow : reader.rowToCompare (reader.rowValues row) = .ok compared) :
  config.IsRow lib compared
  := by
  rw [rowToCompare_eq_recordRow h] at hrow
  exact ⟨_, hrow⟩

/-- The rows a reader returns are rows of records. -/
theorem isRow_of_fetchAll {side : CompareSide} {reader : CompareReader} {maxRows : ℕ}
    {rows : List (CompareRow Cell)} (h : config.sideReader lib name side = .ok reader)
    (hrows : reader.fetchAll maxRows = .ok rows) :
  ∀ row ∈ rows, config.IsRow lib row
  := by
  cases side with
  | database db =>
      obtain ⟨reader, hreader, rfl⟩ := Outcome.map_eq_ok.mp h
      obtain ⟨fetched, hfetched, hrows⟩ := Outcome.bind_eq_ok.mp hrows
      split at hrows
      · cases hrows
      · obtain rfl := Outcome.pure_eq_ok.mp hrows
        apply isRow_of_mapM (isRow_of_rowToCompare hreader) hfetched
  | rows source cancelRequested =>
      obtain ⟨file, rfl, -, -, hread⟩ := sideReader_rows h
      simp only [CompareReader.fetchAll, FileCompareReader.fetchAll] at hrows
      split at hrows
      · cases hrows
      · apply isRow_of_mapM _ hrows
        intro p row hrow
        rw [FileCompareReader.fetchRow] at hrow
        split at hrow
        · cases hrow
        · rw [hread] at hrow
          exact ⟨_, hrow⟩

/-- The rows of a segment of a single integer key have integers as keys. -/
theorem integerRow_of_fetchRows {db : Database} {reader : DatabaseCompareReader}
    (h : config.reader lib name db = .ok reader) {column : CompareColumn}
    (hkey : config.key = [column]) {segment : CompareSegment} {rows : List (CompareRow Cell)}
    (hrows : reader.fetchRows (some segment) = .ok rows) :
  ∀ row ∈ rows, config.IsRow lib row ∧ IntegerRow row
  := by
  intro row hrow
  obtain ⟨hread, hselected⟩ : _ ∧ _ :=
    ⟨readsSide_of_reader hkey h, (readsSide_of_reader hkey h).selected segment⟩
  use isRow_of_mapM (isRow_of_rowToCompare h) hrows row hrow
  obtain ⟨identified, hfst, -, rfl⟩ := DatabaseCompareReader.fetchRows_ok hread.shaped hrows
  obtain ⟨p, hp, rfl⟩ := List.mem_map.mp hrow
  have hmem : p.1 ∈ db.rowsIn (name column.name) segment := by
    rw [← hselected, ← hfst]
    apply List.mem_map_of_mem hp
  obtain ⟨k, hk⟩ := exists_key_of_mem_rowsIn hmem
  use k, db.integersAs
  rw [hread.pk, hk]
  rfl

theorem integerRow_of_fetchKey {db : Database} {reader : DatabaseCompareReader}
    (h : config.reader lib name db = .ok reader) {column : CompareColumn}
    (hkey : config.key = [column]) {key : ℤ} {rows : List (CompareRow Cell)}
    (hrows : reader.fetchKey key = .ok rows) :
  ∀ row ∈ rows, config.IsRow lib row ∧ IntegerRow row
  := by
  obtain ⟨-, hcolumns, -⟩ := reader_keys h
  rw [hkey] at hcolumns
  rw [DatabaseCompareReader.fetchKey, hcolumns] at hrows
  apply integerRow_of_fetchRows h hkey hrows

theorem sideReader_database {db : Database} {reader : DatabaseCompareReader}
    (h : config.reader lib name db = .ok reader) :
  config.sideReader lib name (.database db) = .ok (.database reader)
  := by
  rw [sideReader, h]
  rfl

/-- Rows with equal primary keys that are integers are mates. -/
theorem mates_of_integerRow {s t : CompareRow Cell}
    (hs : config.IsRow lib s ∧ IntegerRow s) (ht : config.IsRow lib t ∧ IntegerRow t)
    (h : SamePk s t) :
  config.Mates lib s t
  := by
  right
  use h
  intro _
  exact ⟨hs.2, ht.2⟩

variable {sourceDb targetDb : Database} {name' : String → String}
variable {source target : DatabaseCompareReader}

theorem runCompareHashdiff_reported (hs : config.reader lib name sourceDb = .ok source)
    (ht : config.reader lib name' targetDb = .ok target) {limits : RunLimits}
    {result : List (CompareDiffEvent Cell) × HashdiffProgress}
    (h : runCompareHashdiff source target config.key limits = .ok result) :
  ∀ event ∈ result.1, Reported (config.IsRow lib) (config.IsRow lib) (config.Mates lib) event
  := by
  cases hsingle : singleIntegerKey config.key with
  | false =>
      rw [runCompareHashdiff, hsingle] at h
      obtain ⟨sourceRows, hsource, h⟩ := Outcome.bind_eq_ok.mp h
      obtain ⟨targetRows, htarget, h⟩ := Outcome.bind_eq_ok.mp h
      intro event hevent
      apply (diffAllRows_reported h event hevent).imp
      · apply isRow_of_fetchAll (sideReader_database hs) hsource
      · apply isRow_of_fetchAll (sideReader_database ht) htarget
      · intro s t _ _ hpk
        right
        use hpk
        intro hkey
        rw [hsingle] at hkey
        cases hkey
  | true =>
      obtain ⟨column, -, hkey, -⟩ := exists_key_of_singleIntegerKey hsingle
      rcases runCompareHashdiff_ok hsingle h with ⟨-, rfl⟩ | ⟨segment, -, hstream⟩
      · intro event hevent
        cases hevent
      · intro event hevent
        apply (recursiveHashdiffStream_reported
          (fun _ _ hrows => integerRow_of_fetchRows hs hkey hrows)
          (fun _ _ hrows => integerRow_of_fetchRows ht hkey hrows) hstream event hevent).imp
        · intro s hs'
          apply hs'.1
        · intro t ht'
          apply ht'.1
        · intro s t hs' ht' hpk
          apply mates_of_integerRow hs' ht' hpk

theorem runCompareSampleQuickCheck_reported (hs : config.reader lib name sourceDb = .ok source)
    (ht : config.reader lib name' targetDb = .ok target) {sample : SampleCheck}
    {result : List (CompareDiffEvent Cell) × HashdiffProgress}
    (h : runCompareSampleQuickCheck source target config.key sample = .ok result) :
  ∀ event ∈ result.1, Reported (config.IsRow lib) (config.IsRow lib) (config.Mates lib) event
  := by
  cases hsingle : singleIntegerKey config.key with
  | false =>
      rw [runCompareSampleQuickCheck, hsingle] at h
      cases h
  | true =>
      obtain ⟨column, -, hkey, -⟩ := exists_key_of_singleIntegerKey hsingle
      rw [runCompareSampleQuickCheck, hsingle, if_neg (by decide)] at h
      simp only [] at h
      split at h
      · obtain ⟨keys, -, h⟩ := Outcome.bind_eq_ok.mp h
        obtain ⟨events, hevents, h⟩ := Outcome.bind_eq_ok.mp h
        obtain rfl := Outcome.pure_eq_ok.mp h
        intro event hevent
        obtain ⟨found, hfound, hmem⟩ := List.mem_flatten.mp hevent
        obtain ⟨key, -, hread⟩ := Outcome.exists_of_mem_mapM hevents hfound
        obtain ⟨sourceRows, hsource, hread⟩ := Outcome.bind_eq_ok.mp hread
        obtain ⟨targetRows, htarget, hread⟩ := Outcome.bind_eq_ok.mp hread
        obtain ⟨compared, hcompared, hread⟩ := Outcome.bind_eq_ok.mp hread
        obtain rfl := Outcome.pure_eq_ok.mp hread
        have hs' := integerRow_of_fetchKey hs hkey hsource
        have ht' := integerRow_of_fetchKey ht hkey htarget
        apply (diffAllRows_reported hcompared event hmem).imp
        · intro s hmem
          apply (hs' s hmem).1
        · intro t hmem
          apply (ht' t hmem).1
        · intro s t hmem hmem' hpk
          apply mates_of_integerRow (hs' s hmem) (ht' t hmem') hpk
      · obtain rfl := Except.ok.inj h
        intro event hevent
        cases hevent

/-- What a run reports: rows of records, matched by their keys. -/
theorem compareEvents_reported {job : CompareJob} {source target : CompareSide}
    {result : List (CompareDiffEvent Cell) × HashdiffProgress}
    (h : compareEvents lib config job source target = .ok result) :
  ∀ event ∈ result.1, Reported (config.IsRow lib) (config.IsRow lib) (config.Mates lib) event
  := by
  obtain ⟨sourceReader, hs, h⟩ := Outcome.bind_eq_ok.mp h
  obtain ⟨targetReader, ht, h⟩ := Outcome.bind_eq_ok.mp h
  have hmaterialized : ∀ maxRows, (do
      let sourceRows ← sourceReader.fetchAll maxRows
      let targetRows ← targetReader.fetchAll maxRows
      diffMaterializedRows lib config.key config.rules job.cancelRequested sourceRows
        targetRows) = .ok result →
      ∀ event ∈ result.1,
        Reported (config.IsRow lib) (config.IsRow lib) (config.Mates lib) event := by
    intro maxRows h event hevent
    obtain ⟨sourceRows, hsource, h⟩ := Outcome.bind_eq_ok.mp h
    obtain ⟨targetRows, htarget, h⟩ := Outcome.bind_eq_ok.mp h
    apply (diffMaterializedRows_reported h event hevent).imp
    · apply isRow_of_fetchAll hs hsource
    · apply isRow_of_fetchAll ht htarget
    · intro s t _ _ hkeys
      left
      apply hkeys
  cases source with
  | rows rows cancelRequested =>
      obtain ⟨file, rfl, -⟩ := sideReader_rows hs
      apply hmaterialized _ h
  | database sourceDb =>
      obtain ⟨sr, hsr, rfl⟩ := Outcome.map_eq_ok.mp hs
      cases target with
      | rows rows cancelRequested =>
          obtain ⟨file, rfl, -⟩ := sideReader_rows ht
          apply hmaterialized _ h
      | database targetDb =>
          obtain ⟨tr, htr, rfl⟩ := Outcome.map_eq_ok.mp ht
          simp only [] at h
          split at h
          · apply runCompareSampleQuickCheck_reported hsr htr h
          · apply runCompareHashdiff_reported hsr htr h

end CompareConfig

end Compare

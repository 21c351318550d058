import DataOpsStudio.Compare.Interference

/-!
# Runs in which ignored columns interfere

When a key column is ignored, the keys that are written tell its values.  When an ignored column
holds numbers and a run can report a difference, a value that is no number makes the run fail at
that difference.  Two rows show it, one of each side, under equal keys.
-/

namespace Compare

open Text

/-! ### Values that can be read -/

/-- A value that is read as a number is read in every column. -/
theorem exists_normalizeValue_of_decimal {lib : Builtins} {rules : CompareRules} {value : PyValue}
    (h : (normalizeDecimal value rules.numericScale).toOption.isSome = true)
    (column : CompareColumn) :
  ∃ normalized, normalizeValue lib column value rules = .ok normalized
  := by
  obtain ⟨text, htext⟩ := Outcome.exists_of_isSome h
  rw [normalizeValue]
  split
  · exact ⟨_, rfl⟩
  · rw [htext]
    split
    all_goals exact ⟨_, rfl⟩

/-- A text that is no number cannot be read in a column of numbers. -/
theorem normalizeValue_letters {lib : Builtins} {rules : CompareRules} {column : CompareColumn}
    (h : column.type.numeric = true) :
  normalizeValue lib column (.str "abc".toList) rules = .error .invalidOperation
  := by
  have hparse : parseDecimal? "abc".toList = none := by rfl
  have hdecimal : normalizeDecimal (.str "abc".toList) rules.numericScale
      = .error .invalidOperation := by
    rw [normalizeDecimal]
    simp only [PyValue.text, hparse]
  rw [normalizeValue, if_neg (by simp)]
  cases htype : column.type with
  | integer => rw [hdecimal]; rfl
  | decimal => rw [hdecimal]; rfl
  | float => rw [hdecimal]; rfl
  | _ =>
      rw [htype] at h
      cases h

/-! ### Runs over two rows -/

section Singletons

variable {lib : Builtins} {keyColumns : List CompareColumn} {rules : CompareRules}

theorem rowsByKey_singleton {row : CompareRow Cell} {key : Identity}
    (h : matchKey lib keyColumns rules row = .ok key) (side : Side) :
  rowsByKey lib keyColumns rules (fun _ _ => false) [row] side = .ok (Dict.empty.set key row)
  := by
  have hloop : [row].zipIdx.foldlM (enterRow lib keyColumns rules (fun _ _ => false) side)
      (Dict.empty, 0) = .ok (Dict.empty.set key row, 0) := by
    rw [List.zipIdx_cons, List.zipIdx_nil, List.foldlM_cons]
    apply Outcome.bind_eq_ok.mpr
    refine ⟨_, ?_, rfl⟩
    apply Outcome.bind_eq_ok.mpr
    refine ⟨(), if_neg (by simp), ?_⟩
    apply Outcome.bind_eq_ok.mpr
    exact ⟨key, h, rfl⟩
  rw [rowsByKey, hloop]
  rfl

/-- Two rows with the same key are aligned. -/
theorem alignedRows_singleton (key : Identity) (s t : CompareRow Cell) :
  alignedRows (Dict.empty.set key s) (Dict.empty.set key t) = [(some s, some t)]
  := by
  have hunion : unionKeys (Dict.empty.set key s) (Dict.empty.set key t) = [key] := by
    have hkeys : ∀ r : CompareRow Cell, (Dict.empty.set key r).keys = [key] := fun _ => rfl
    rw [unionKeys, hkeys, hkeys]
    simp [Dict.contains]
  rw [alignedRows, hunion, sortedMatchKeys, List.mergeSort_singleton]
  simp

/-- The diff of two materialised rows whose keys are normalised alike. -/
theorem diffMaterializedRows_pair {s t : CompareRow Cell} {key : Identity}
    (h : matchKey lib keyColumns rules s = .ok key)
    (h' : matchKey lib keyColumns rules t = .ok key) :
  diffMaterializedRows lib keyColumns rules (fun _ _ => false) [s] [t]
    = .ok ([pairEvent s.pk s t], { rowModeSegments := 1 })
  := by
  apply diffMaterializedRows_eq_ok.mpr
  refine ⟨_, _, rowsByKey_singleton h _, rowsByKey_singleton h' _, ?_, ?_, rfl⟩
  · intro index _
    apply if_neg
    simp
  · rw [alignedRows_singleton]
    rfl

/-- The diff of one materialised row and none. -/
theorem diffMaterializedRows_left {s : CompareRow Cell} {key : Identity}
    (h : matchKey lib keyColumns rules s = .ok key) :
  diffMaterializedRows lib keyColumns rules (fun _ _ => false) [s] []
    = .ok ([{ bucket := .onlySource, pk := s.pk, sourceValues := some s.shown }],
        { rowModeSegments := 1 })
  := by
  have hempty : rowsByKey lib keyColumns rules (fun _ _ => false) ([] : List (CompareRow Cell))
      .target = .ok Dict.empty := rfl
  have haligned : alignedRows (Dict.empty.set key s) Dict.empty = [(some s, none)] := by
    have hunion : unionKeys (Dict.empty.set key s) Dict.empty = [key] := rfl
    rw [alignedRows, hunion, sortedMatchKeys, List.mergeSort_singleton]
    simp
  apply diffMaterializedRows_eq_ok.mpr
  refine ⟨_, _, rowsByKey_singleton h _, hempty, ?_, ?_, rfl⟩
  · intro index _
    apply if_neg
    simp
  · rw [haligned]
    rfl

/-- The diff of two rows with equal primary keys. -/
theorem diffAllRows_pair {s t : CompareRow Cell} (h : SamePk s t) :
  diffAllRows [s] [t] = .ok ([pairEvent s.pk s t], { rowModeSegments := 1 })
  := by
  have hmap : ∀ (r : CompareRow Cell) (side : Side),
      rowMap [r] side = .ok (Dict.empty.set r.pk r) := fun _ _ => rfl
  have hpk : (s.pk == t.pk) = true := h
  have hevents : diffRowMaps (Dict.empty.set s.pk s) (Dict.empty.set t.pk t)
      = [pairEvent s.pk s t] := by
    have hunion : unionKeys (Dict.empty.set s.pk s) (Dict.empty.set t.pk t) = [s.pk] := by
      have hkeys : ∀ r : CompareRow Cell, (Dict.empty.set r.pk r).keys = [r.pk] := fun _ => rfl
      have hcontains : (Dict.empty.set s.pk s).contains t.pk = true := by
        rw [Dict.contains, Dict.get?_set, if_pos hpk]
        rfl
      rw [unionKeys, hkeys, hkeys, List.filter_cons_of_neg (by simp [hcontains])]
      rfl
    rw [diffRowMaps, hunion, sortedCompareKeys, List.mergeSort_singleton, List.filterMap_cons,
      Dict.get?_set_self, Dict.get?_set, if_pos (BEq.symm hpk)]
    rfl
  rw [diffAllRows, hmap, hmap]
  apply congrArg Except.ok
  rw [hevents]
  rfl

end Singletons

namespace CompareConfig

variable {config : CompareConfig} {lib : Builtins}

/-- What is read from a side of rows that holds one record, or none. -/
theorem fetchAll_rows {name : String → String} {rows : List (String → PyValue)}
    {compared : List (CompareRow Cell)} {reader : CompareReader}
    (hreader : config.sideReader lib name (.rows rows (fun _ => false)) = .ok reader)
    (hlength : rows.length ≤ 1)
    (h : List.Forall₂ (fun row r => config.recordRow lib (fun n => row (name n)) = .ok r) rows
      compared) :
  reader.fetchAll defaultMaxRows = .ok compared
  := by
  obtain ⟨file, rfl, hrows, hcancel, hread⟩ := sideReader_rows hreader
  have hmax : ¬ defaultMaxRows < rows.length := by
    rw [defaultMaxRows]
    omega
  rw [CompareReader.fetchAll, FileCompareReader.fetchAll, hrows, if_neg hmax]
  apply Outcome.mapM_eq_ok.mpr
  cases h with
  | nil => apply List.Forall₂.nil
  | @cons row r rest others hrow hrest =>
      obtain rfl : rest = [] := by
        apply List.eq_nil_of_length_eq_zero
        rw [List.length_cons] at hlength
        omega
      cases hrest
      refine .cons ?_ .nil
      rw [FileCompareReader.fetchRow, hcancel, if_neg (by simp), hread, hrow]

/-- A run over two records whose keys are normalised alike. -/
theorem compareEvents_rows (source target : String → PyValue) {s t : CompareRow Cell}
    (hs : config.recordRow lib source = .ok s)
    (ht : config.recordRow lib (fun n => target (config.targetName n)) = .ok t) {key : Identity}
    (hkey : matchKey lib config.key config.rules s = .ok key)
    (hkey' : matchKey lib config.key config.rules t = .ok key) :
  compareEvents lib config {} (.rows [source] (fun _ => false)) (.rows [target] (fun _ => false))
    = .ok ([pairEvent s.pk s t], { rowModeSegments := 1 })
  := by
  obtain ⟨sr, hsr⟩ := config.exists_sideReader lib (fun n => n) (.rows [source] (fun _ => false))
  obtain ⟨tr, htr⟩ := config.exists_sideReader lib config.targetName
    (.rows [target] (fun _ => false))
  have hsource := fetchAll_rows hsr le_rfl (.cons hs .nil)
  have htarget := fetchAll_rows htr le_rfl (.cons ht .nil)
  obtain ⟨file, rfl, -⟩ := sideReader_rows hsr
  apply Outcome.bind_eq_ok.mpr
  refine ⟨_, hsr, ?_⟩
  apply Outcome.bind_eq_ok.mpr
  refine ⟨_, htr, ?_⟩
  apply Outcome.bind_eq_ok.mpr
  refine ⟨_, hsource, ?_⟩
  apply Outcome.bind_eq_ok.mpr
  exact ⟨_, htarget, diffMaterializedRows_pair hkey hkey'⟩

/-- A run over one record and none. -/
theorem compareEvents_left {source : String → PyValue} {s : CompareRow Cell}
    (hs : config.recordRow lib source = .ok s) {key : Identity}
    (hkey : matchKey lib config.key config.rules s = .ok key) :
  compareEvents lib config {} (.rows [source] (fun _ => false)) (.rows [] (fun _ => false))
    = .ok ([{ bucket := .onlySource, pk := s.pk, sourceValues := some s.shown }],
        { rowModeSegments := 1 })
  := by
  obtain ⟨sr, hsr⟩ := config.exists_sideReader lib (fun n => n) (.rows [source] (fun _ => false))
  obtain ⟨tr, htr⟩ := config.exists_sideReader lib config.targetName (.rows [] (fun _ => false))
  have hsource := fetchAll_rows hsr le_rfl (.cons hs .nil)
  have htarget := fetchAll_rows htr (Nat.zero_le 1) .nil
  obtain ⟨file, rfl, -⟩ := sideReader_rows hsr
  apply Outcome.bind_eq_ok.mpr
  refine ⟨_, hsr, ?_⟩
  apply Outcome.bind_eq_ok.mpr
  refine ⟨_, htr, ?_⟩
  apply Outcome.bind_eq_ok.mpr
  refine ⟨_, hsource, ?_⟩
  apply Outcome.bind_eq_ok.mpr
  exact ⟨_, htarget, diffMaterializedRows_left hkey⟩

/-- A table with one row of values that are not integers of the database. -/
def valueTable (record : String → PyValue) : Database where
  rows := [fun n => .other (record n)]

/-- A run over two tables of one row, whose primary keys are equal. -/
theorem compareEvents_tables (hsingle : singleIntegerKey config.key = false)
    (source target : String → PyValue) {s t : CompareRow Cell}
    (hs : config.recordRow lib source = .ok s)
    (ht : config.recordRow lib (fun n => target (config.targetName n)) = .ok t)
    (hpk : SamePk s t) :
  compareEvents lib config {} (.database (valueTable source)) (.database (valueTable target))
    = .ok ([pairEvent s.pk s t], { rowModeSegments := 1 })
  := by
  obtain ⟨sr, hsr⟩ := exists_reader config lib (fun n => n) (valueTable source)
  obtain ⟨tr, htr⟩ := exists_reader config lib config.targetName (valueTable target)
  have hfetch : ∀ {name : String → String} {record : String → PyValue} {r : CompareRow Cell}
      {reader : DatabaseCompareReader}, config.reader lib name (valueTable record) = .ok reader →
      config.recordRow lib (fun n => record (name n)) = .ok r →
      reader.fetchAll (some defaultMaxRows) = .ok [r] := by
    intro name record r reader hreader hr
    have hselected : reader.selected none = [fun n => .other (record n)] := selected_none hreader
    have hmax : ¬ defaultMaxRows < [fun n => DbValue.other (record n)].length := by
      rw [defaultMaxRows, List.length_singleton]
      omega
    apply Outcome.bind_eq_ok.mpr
    refine ⟨[r], ?_, ?_⟩
    · rw [hselected, List.take_of_length_le (by rw [defaultMaxRows, List.length_singleton]; omega)]
      apply Outcome.mapM_eq_ok.mpr
      refine .cons ?_ .nil
      rw [rowToCompare_eq_recordRow hreader]
      apply hr
    · rw [hselected, if_neg hmax]
      rfl
  apply Outcome.bind_eq_ok.mpr
  refine ⟨_, sideReader_database hsr, ?_⟩
  apply Outcome.bind_eq_ok.mpr
  refine ⟨_, sideReader_database htr, ?_⟩
  show runCompareHashdiff sr tr config.key (CompareJob.effectiveLimits {}) = _
  rw [runCompareHashdiff, hsingle]
  apply Outcome.bind_eq_ok.mpr
  refine ⟨_, hfetch hsr hs, ?_⟩
  apply Outcome.bind_eq_ok.mpr
  exact ⟨_, hfetch htr ht, diffAllRows_pair hpk⟩

/-! ### Runs that fail at a difference -/

/-- A run that reports one difference returns when all values of both rows can be read. -/
theorem exists_decided_iff {record record' : String → PyValue} {identity identity' : Identity}
    {pk : List PyValue} {progress : HashdiffProgress} {source target : CompareSide}
    (hevents : compareEvents lib config {} source target
      = .ok ([pairEvent pk (config.identifiedRow lib record identity)
          (config.identifiedRow lib record' identity')], progress))
    (hne : identity ≠ identity') :
  ((executeCompareRun lib config {} source target).map CompareReport.decided).toOption ≠ none
    ↔ ∀ column ∈ config.columns,
      (∃ normalized, normalizeValue lib column (record column.name) config.rules = .ok normalized)
        ∧ ∃ normalized,
          normalizeValue lib column (record' column.name) config.rules = .ok normalized
  := by
  rw [executeCompareRun_decided, hevents, pairEvent_identifiedRow, decide_eq_false hne]
  have hspool : ∀ event : CompareDiffEvent Cell, event.bucket = .diff →
      (([event].filter (CompareJob.spools {})).mapM (fun event =>
        (config.spoolRow lib event).map (fun row => (event.bucket, row.pk, row.cells))))
        = (config.spoolRow lib event).map (fun row => [(event.bucket, row.pk, row.cells)]) := by
    intro event hevent
    rw [List.filter_cons_of_pos (by simp [CompareJob.spools, hevent]), List.filter_nil,
      List.mapM_cons, List.mapM_nil]
    cases config.spoolRow lib event with
    | error e => rfl
    | ok row => rfl
  simp only [bind, Except.bind]
  rw [decidedEvents, hspool _ rfl, spoolRow_shownEvent, if_neg (by decide)]
  cases hcells : cellDiffs lib config.columns
      (config.columns.map (fun column => record column.name))
      (config.columns.map (fun column => record' column.name)) config.rules
      config.diffColumnNames with
  | error e =>
      constructor
      · intro h
        exact absurd rfl h
      · intro hall
        cases hcells.symm.trans (cellDiffs_eq_ok.mpr ⟨hall, rfl⟩)
  | ok cells =>
      constructor
      · intro _
        apply (cellDiffs_eq_ok.mp hcells).1
      · intro _ h
        cases h

theorem sameSide_refl (name : String → String) (side : CompareSide) :
  config.SameSide name side side
  := by
  have hrefl : ∀ {α : Type} (rows : List (String → α)),
      List.Forall₂ (fun row row' => config.SameOutside (row ∘ name) (row' ∘ name)) rows rows := by
    intro α rows
    rw [List.forall₂_same]
    intro row _ column _ _
    rfl
  cases side with
  | database db => exact .database db (hrefl db.rows)
  | rows rows cancelRequested => exact .rows cancelRequested (hrefl rows)

/-- A record with another value in one column. -/
theorem sameOutside_update {column : CompareColumn}
    (hignored : column.name ∈ config.rules.ignoreColumns) {α : Type} (record : String → α)
    (value : α) :
  config.SameOutside record (Function.update record column.name value)
  := by
  intro other _ hkept
  rw [Function.update_of_ne]
  rintro heq
  rw [heq] at hkept
  apply hkept hignored

/-- A value in an ignored column does not change what is compared. -/
theorem recordIdentity_update {column : CompareColumn}
    (hignored : column.name ∈ config.rules.ignoreColumns) (record : String → PyValue)
    (value : PyValue) :
  config.recordIdentity lib (Function.update record column.name value)
    = config.recordIdentity lib record
  := by
  rw [recordIdentity, recordIdentity]
  congr 1
  apply List.map_congr_left
  intro other hother
  obtain ⟨hmem, hkept⟩ := List.mem_filter.mp hother
  symm
  apply sameOutside_update hignored record value other (List.mem_append_right _ hmem)
    (of_decide_eq_true hkept)

theorem pk_update (hkey : config.KeyKept) {column : CompareColumn}
    (hignored : column.name ∈ config.rules.ignoreColumns) (record : String → PyValue)
    (value : PyValue) (identity : Identity) :
  (config.identifiedRow lib (Function.update record column.name value) identity).pk
    = (config.identifiedRow lib record identity).pk
  := by
  apply List.map_congr_left
  intro other hother
  symm
  apply sameOutside_update hignored record value other (List.mem_append_left _ hother)
    (hkey other hother)

section Difference

variable {ignored : CompareColumn} (record : String → PyValue) (value : PyValue)

/-- Ignored columns interfere where two sides report a difference whose values can all be read, and
still report it when an ignored column of numbers holds letters. -/
theorem not_inert_of_difference (hmem : ignored ∈ config.columns)
    (hnumeric : ignored.type.numeric = true)
    (side : (String → PyValue) → CompareSide) (target : CompareSide)
    (hside : config.SameSide (fun n => n) (side record)
      (side (Function.update record ignored.name (.str "abc".toList))))
    {identity identity' : Identity} (hne : identity ≠ identity')
    (hreads : ∀ column ∈ config.columns,
      (∃ normalized, normalizeValue lib column (record column.name) config.rules = .ok normalized)
        ∧ ∃ normalized, normalizeValue lib column value config.rules = .ok normalized)
    (hevents : ∀ record', record' = record
        ∨ record' = Function.update record ignored.name (.str "abc".toList) →
      ∃ pk progress, compareEvents lib config {} (side record') target
        = .ok ([pairEvent pk (config.identifiedRow lib record' identity)
            (config.identifiedRow lib (fun _ => value) identity')], progress)) :
  ¬ config.Inert lib
  := by
  intro hinert
  obtain ⟨pk, progress, hrun⟩ := hevents record (.inl rfl)
  obtain ⟨pk', progress', hrun'⟩ := hevents _ (.inr rfl)
  have hdecided := hinert.decided {} _ _ target target hside (sameSide_refl _ _)
  have hok := (exists_decided_iff hrun hne).mpr hreads
  rw [hdecided] at hok
  obtain ⟨normalized, hnormalized⟩ := ((exists_decided_iff hrun' hne).mp hok ignored hmem).1
  rw [Function.update_self, normalizeValue_letters hnumeric] at hnormalized
  cases hnormalized

variable (hkey : config.KeyKept) (hmem : ignored ∈ config.columns)
variable (hignored : ignored.name ∈ config.rules.ignoreColumns)
variable (hnumeric : ignored.type.numeric = true)
variable (hreads : ∀ column,
  (∃ normalized, normalizeValue lib column (record column.name) config.rules = .ok normalized)
    ∧ ∃ normalized, normalizeValue lib column value config.rules = .ok normalized)
variable (hdiff : ∃ column ∈ config.compareColumns,
  entry lib config.rules column (record column.name) ≠ entry lib config.rules column value)

include hreads hdiff in
/-- Two records that can be read have identities, which differ where an entry does. -/
theorem exists_identities :
  ∃ identity identity', config.recordIdentity lib record = .ok identity
    ∧ config.recordIdentity lib (fun _ => value) = .ok identity' ∧ identity ≠ identity'
  := by
  have h : config.recordIdentity lib record = .ok _ :=
    recordIdentity_eq_ok.mpr ⟨fun c _ => (hreads c).1, rfl⟩
  have h' : config.recordIdentity lib (fun _ => value) = .ok _ :=
    recordIdentity_eq_ok.mpr ⟨fun c _ => (hreads c).2, rfl⟩
  exact ⟨_, _, h, h', (identity_ne_iff h h').mpr hdiff⟩

include hkey hmem hignored hnumeric hreads hdiff

/-- Materialised records whose keys are normalised alike. -/
theorem not_inert_of_rows
    (hkeys : ∀ column ∈ config.key,
      entry lib config.rules column (record column.name) = entry lib config.rules column value) :
  ¬ config.Inert lib
  := by
  obtain ⟨identity, identity', h, h', hne⟩ := exists_identities record value hreads hdiff
  apply not_inert_of_difference record value hmem hnumeric (fun record => .rows [record] (fun _ => false))
    (.rows [fun _ => value] (fun _ => false)) _ hne (fun c _ => hreads c)
  · intro record' hrecord'
    have hidentity : config.recordIdentity lib record' = .ok identity
        ∧ (config.identifiedRow lib record' identity).pk
          = (config.identifiedRow lib record identity).pk := by
      rcases hrecord' with rfl | rfl
      · exact ⟨h, rfl⟩
      · exact ⟨(recordIdentity_update hignored record _).trans h, pk_update hkey hignored _ _ _⟩
    have hmatch : matchKey lib config.key config.rules (config.identifiedRow lib record identity)
        = .ok (config.key.map (fun c => entry lib config.rules c (record c.name))) :=
      normalizedCompareIdentity_map.mpr ⟨fun c _ => (hreads c).1, rfl⟩
    have hmatch' : matchKey lib config.key config.rules
          (config.identifiedRow lib (fun _ => value) identity')
        = .ok (config.key.map (fun c => entry lib config.rules c (record c.name))) :=
      normalizedCompareIdentity_map.mpr ⟨fun c _ => (hreads c).2, List.map_congr_left hkeys⟩
    refine ⟨_, _, compareEvents_rows record' (fun _ => value)
      (recordRow_eq_ok.mpr ⟨_, hidentity.1, rfl⟩)
      (recordRow_eq_ok.mpr ⟨_, h', rfl⟩) ?_ hmatch'⟩
    rw [matchKey, hidentity.2]
    apply hmatch
  · apply SameSide.rows
    exact .cons (sameOutside_update hignored record _) .nil

/-- Tables whose rows have equal primary keys that are not single integers. -/
theorem not_inert_of_tables (hsingle : singleIntegerKey config.key = false)
    (hkeys : ∀ column ∈ config.key, (record column.name == value) = true) :
  ¬ config.Inert lib
  := by
  obtain ⟨identity, identity', h, h', hne⟩ := exists_identities record value hreads hdiff
  apply not_inert_of_difference record value hmem hnumeric (fun record => .database (valueTable record))
    (.database (valueTable (fun _ => value))) _ hne (fun c _ => hreads c)
  · intro record' hrecord'
    have hidentity : config.recordIdentity lib record' = .ok identity
        ∧ (config.identifiedRow lib record' identity).pk
          = (config.identifiedRow lib record identity).pk := by
      rcases hrecord' with rfl | rfl
      · exact ⟨h, rfl⟩
      · exact ⟨(recordIdentity_update hignored record _).trans h, pk_update hkey hignored _ _ _⟩
    have hpk : ∀ l : List CompareColumn, (∀ c ∈ l, (record c.name == value) = true) →
        (l.map (fun c => record c.name) == l.map (fun _ => value)) = true := by
      intro l
      induction l with
      | nil =>
          intro _
          rfl
      | cons c rest ih =>
          intro hl
          rw [List.map_cons, List.map_cons, List.cons_beq_cons, hl c List.mem_cons_self,
            Bool.true_and]
          apply ih (fun c' hc' => hl c' (List.mem_cons_of_mem _ hc'))
    refine ⟨_, _, compareEvents_tables hsingle record' (fun _ => value)
      (recordRow_eq_ok.mpr ⟨_, hidentity.1, rfl⟩)
      (recordRow_eq_ok.mpr ⟨_, h', rfl⟩) ?_⟩
    rw [SamePk, hidentity.2]
    apply hpk config.key hkeys
  · apply SameSide.database (valueTable record)
    refine .cons ?_ .nil
    intro other hother hkept
    have hsame := sameOutside_update hignored record (.str "abc".toList) other hother hkept
    show DbValue.other _ = DbValue.other _
    rw [hsame]

end Difference

end CompareConfig

end Compare

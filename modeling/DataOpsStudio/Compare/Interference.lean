import DataOpsStudio.Compare.Cells

/-!
# When ignored columns interfere

A run does not depend on its ignored columns when no key column is ignored and no ignored column
holds numbers: a number that cannot be read is a failure wherever it stands in a difference.  The
converse holds as well, except where the keys decide all that is compared, so that there are no
differences.
-/

namespace Compare

open Text

/-! ### What a run decides -/

/-- What a run decides: the counts of the buckets, and for every row it writes the bucket, the key
and the cells. -/
def CompareReport.decided (report : CompareReport) :
    (CompareDiffBucket → ℕ) × List (CompareDiffBucket × Dict String PyValue × List DiffCell) :=
  (report.bucketCounts, report.spooled.map (fun p => (p.1, p.2.pk, p.2.cells)))

namespace CompareConfig

variable (config : CompareConfig) (lib : Builtins)

/-- Ignored columns do not interfere: runs over sides that differ only in ignored columns decide
the same, or both raise; and an event is a difference exactly when a cell is written for it. -/
structure Inert : Prop where
  decided : ∀ (job : CompareJob) (source source' target target' : CompareSide),
    config.SameSide (fun n => n) source source' → config.SameSide config.targetName target target' →
    ((executeCompareRun lib config job source target).map CompareReport.decided).toOption
      = ((executeCompareRun lib config job source' target').map CompareReport.decided).toOption
  cells : ∀ (job : CompareJob) (source target : CompareSide)
    (result : List (CompareDiffEvent Cell) × HashdiffProgress),
    compareEvents lib config job source target = .ok result →
    ∀ event ∈ result.1, ∀ row, config.spoolRow lib event = .ok row →
      (event.bucket = .diff ↔ row.cells ≠ [])

/-- No ignored column holds numbers. -/
def IgnoredReadable : Prop :=
  ∀ column ∈ config.columns, column.name ∈ config.rules.ignoreColumns →
    column.type.numeric = false

variable {config lib}

/-! ### Hidden values -/

/-- The values of a record by column, without those of the ignored columns. -/
def hidden (config : CompareConfig) (values : CompareColumn → PyValue) (column : CompareColumn) :
    PyValue :=
  if column.name ∈ config.rules.ignoreColumns then .none else values column

theorem mapShown_shownEvent {pk : List PyValue} {same : Bool}
    {source target : CompareColumn → PyValue} :
  (config.shownEvent pk same source target).mapShown config.hideIgnored
    = config.shownEvent pk same (config.hidden source) (config.hidden target)
  := by
  have hvalues : ∀ values : CompareColumn → PyValue,
      config.hideIgnored (config.columns.map (fun column => Cell.raw (values column)))
        = config.columns.map (fun column => Cell.raw (config.hidden values column)) := by
    intro values
    rw [hideIgnored, List.zipWith_map_right, List.zipWith_self]
    apply List.map_congr_left
    intro column _
    rw [hidden]
    split
    · rfl
    · rfl
  simp only [shownEvent, CompareDiffEvent.mapShown, Option.map_some, hvalues]

/-- When no ignored column holds numbers, the cells of two records can be written, and they are
those of the records without what is ignored. -/
theorem cellDiffs_hidden (hreadable : config.IgnoredReadable) {record record' : String → PyValue}
    {identity identity' : Identity} (h : config.recordIdentity lib record = .ok identity)
    (h' : config.recordIdentity lib record' = .ok identity') :
  cellDiffs lib config.columns (config.columns.map (fun column => record column.name))
      (config.columns.map (fun column => record' column.name)) config.rules config.diffColumnNames
    = cellDiffs lib config.columns
      (config.columns.map (config.hidden (fun column => record column.name)))
      (config.columns.map (config.hidden (fun column => record' column.name))) config.rules
      config.diffColumnNames
  := by
  have hreads : ∀ {record : String → PyValue} {identity : Identity},
      config.recordIdentity lib record = .ok identity → ∀ column ∈ config.columns,
        ∃ normalized, normalizeValue lib column (record column.name) config.rules
          = .ok normalized := by
    intro record identity h column hcolumn
    by_cases hignored : column.name ∈ config.rules.ignoreColumns
    · apply exists_normalizeValue (hreadable column hcolumn hignored)
    · apply (recordIdentity_eq_ok.mp h).1 column
      exact List.mem_filter.mpr ⟨hcolumn, decide_eq_true hignored⟩
  have hhidden : ∀ {record : String → PyValue} {identity : Identity},
      config.recordIdentity lib record = .ok identity → ∀ column ∈ config.columns,
        ∃ normalized, normalizeValue lib column
          (config.hidden (fun column => record column.name) column) config.rules
          = .ok normalized := by
    intro record identity h column hcolumn
    rw [hidden]
    split
    · exact ⟨none, rfl⟩
    · apply hreads h column hcolumn
  rw [cellDiffs_eq_ok.mpr ⟨fun c hc => ⟨hreads h c hc, hreads h' c hc⟩, rfl⟩,
    cellDiffs_eq_ok.mpr ⟨fun c hc => ⟨hhidden h c hc, hhidden h' c hc⟩, rfl⟩]
  apply congrArg Except.ok
  apply List.filterMap_congr
  intro column hcolumn
  by_cases hignored : column.name ∈ config.rules.ignoreColumns
  · have hnot : column.name ∉ config.diffColumnNames := by
      rw [mem_diffColumnNames hcolumn]
      exact not_not.mpr hignored
    rw [if_pos (.inl hnot), if_pos (.inl hnot)]
  · simp only [hidden, if_neg hignored]

/-- What is decided about an event does not depend on what it shows of the ignored columns, when
it is no difference or no ignored column holds numbers. -/
theorem spoolRow_hideIgnored {event : CompareDiffEvent Cell}
    (hevent : Reported (config.IsRow lib) (config.IsRow lib) (config.Mates lib) event)
    (h : event.bucket = .diff → config.IgnoredReadable) :
  (config.spoolRow lib event).map (fun row => (event.bucket, row.pk, row.cells))
    = (config.spoolRow lib (event.mapShown config.hideIgnored)).map
      (fun row => (event.bucket, row.pk, row.cells))
  := by
  cases hevent with
  | onlySource left => rfl
  | onlyTarget right => rfl
  | pair left right _ =>
      obtain ⟨record, hrecord⟩ := left
      obtain ⟨record', hrecord'⟩ := right
      obtain ⟨identity, hidentity, rfl⟩ := recordRow_eq_ok.mp hrecord
      obtain ⟨identity', hidentity', rfl⟩ := recordRow_eq_ok.mp hrecord'
      rw [pairEvent_identifiedRow] at h ⊢
      rw [mapShown_shownEvent, spoolRow_shownEvent, spoolRow_shownEvent]
      by_cases heq : identity = identity'
      · rw [decide_eq_true heq]
        rfl
      · rw [decide_eq_false heq] at h ⊢
        rw [if_neg (by decide), if_neg (by decide),
          cellDiffs_hidden (h rfl) hidentity hidentity']
        cases cellDiffs lib config.columns
            (config.columns.map (config.hidden (fun column => record column.name)))
            (config.columns.map (config.hidden (fun column => record' column.name))) config.rules
            config.diffColumnNames with
        | error e => rfl
        | ok cells => rfl

/-! ### Two runs -/

/-- What is decided about the events of a run. -/
def decidedEvents (config : CompareConfig) (lib : Builtins) (job : CompareJob)
    (result : List (CompareDiffEvent Cell) × HashdiffProgress) :
    Except CompareError
      ((CompareDiffBucket → ℕ) × List (CompareDiffBucket × Dict String PyValue × List DiffCell)) :=
  ((result.1.filter job.spools).mapM (fun event =>
    (config.spoolRow lib event).map (fun row => (event.bucket, row.pk, row.cells)))).map
      (fun spooled => (fun bucket =>
        bucketCount bucket result.1 + if bucket = .same then result.2.skippedRows else 0, spooled))

theorem executeCompareRun_decided (job : CompareJob) (source target : CompareSide) :
  (executeCompareRun lib config job source target).map CompareReport.decided
    = compareEvents lib config job source target >>= config.decidedEvents lib job
  := by
  apply Outcome.map_bind_right
  intro result
  have hspooled : ∀ events : List (CompareDiffEvent Cell),
      events.mapM (fun event => (config.spoolRow lib event).map
          (fun row => (event.bucket, row.pk, row.cells)))
        = (events.mapM (fun event =>
            (config.spoolRow lib event).map (fun row => (event.bucket, row)))).map
          (List.map (fun p => (p.1, p.2.pk, p.2.cells))) := by
    intro events
    rw [Outcome.map_mapM]
    apply Outcome.mapM_congr
    intro event _
    cases config.spoolRow lib event with
    | error e => rfl
    | ok row => rfl
  rw [decidedEvents, hspooled]
  cases (result.1.filter job.spools).mapM (fun event =>
      (config.spoolRow lib event).map (fun row => (event.bucket, row))) with
  | error e => rfl
  | ok spooled => rfl

/-- What is decided about events does not depend on what they show of the ignored columns. -/
theorem decidedEvents_mapEvents {job : CompareJob}
    {result : List (CompareDiffEvent Cell) × HashdiffProgress}
    (hevents : ∀ event ∈ result.1,
      Reported (config.IsRow lib) (config.IsRow lib) (config.Mates lib) event)
    (h : ∀ event ∈ result.1, event.bucket = .diff → config.IgnoredReadable) :
  config.decidedEvents lib job result
    = config.decidedEvents lib job (mapEvents config.hideIgnored result)
  := by
  have hcount : ∀ bucket, bucketCount bucket (mapEvents config.hideIgnored result).1
      = bucketCount bucket result.1 := by
    intro bucket
    rw [bucketCount, mapEvents, List.countP_map]
    rfl
  have hspools : (mapEvents config.hideIgnored result).1.filter job.spools
      = (result.1.filter job.spools).map (CompareDiffEvent.mapShown config.hideIgnored) := by
    rw [mapEvents, List.filter_map]
    rfl
  have hrows : (result.1.filter job.spools).mapM (fun event =>
        (config.spoolRow lib event).map (fun row => (event.bucket, row.pk, row.cells)))
      = ((result.1.filter job.spools).map (CompareDiffEvent.mapShown config.hideIgnored)).mapM
        (fun event =>
          (config.spoolRow lib event).map (fun row => (event.bucket, row.pk, row.cells))) := by
    rw [List.mapM_map]
    apply Outcome.mapM_congr
    intro event hevent
    have hmem := (List.mem_filter.mp hevent).1
    apply spoolRow_hideIgnored (hevents event hmem) (h event hmem)
  rw [decidedEvents, decidedEvents, hspools, hrows]
  simp only [hcount]
  rfl

/-- Runs over sides that differ only in ignored columns decide the same when no key column is
ignored and, if there are differences, no ignored column holds numbers. -/
theorem executeCompareRun_same (hkey : config.KeyKept)
    (h : config.IgnoredReadable ∨ ∀ (job : CompareJob) (source target : CompareSide)
      (result : List (CompareDiffEvent Cell) × HashdiffProgress),
      compareEvents lib config job source target = .ok result →
      ∀ event ∈ result.1, event.bucket ≠ .diff)
    (job : CompareJob) {source source' target target' : CompareSide}
    (hs : config.SameSide (fun n => n) source source')
    (ht : config.SameSide config.targetName target target') :
  (executeCompareRun lib config job source target).map CompareReport.decided
    = (executeCompareRun lib config job source' target').map CompareReport.decided
  := by
  have hhidden : ∀ source target,
      (executeCompareRun lib config job source target).map CompareReport.decided
        = (compareEvents lib config job source target).map (mapEvents config.hideIgnored)
          >>= config.decidedEvents lib job := by
    intro source target
    rw [executeCompareRun_decided]
    cases hevents : compareEvents lib config job source target with
    | error e => rfl
    | ok result =>
        apply decidedEvents_mapEvents (compareEvents_reported hevents)
        intro event hevent hdiff
        rcases h with hreadable | hnone
        · apply hreadable
        · exact absurd hdiff (hnone job source target result hevents event hevent)
  rw [hhidden, hhidden, compareEvents_same hkey job hs ht]

/-! ### Keys that decide what is compared -/

end CompareConfig

section Entries

variable {lib : Builtins} {rules : CompareRules}

/-- Columns of the same type have the same entries, and so do columns of numbers. -/
theorem entry_congr {column column' : CompareColumn} {value : PyValue}
    (h : column.type = column'.type
      ∨ (column.type.numeric = true ∧ column'.type.numeric = true)) :
  entry lib rules column value = entry lib rules column' value
  := by
  have hnumeric : ∀ c : CompareColumn, c.type.numeric = true →
      normalizeValue lib c value rules
        = if value = .none then .ok none
          else (normalizeDecimal value rules.numericScale).map some := by
    intro c hc
    rw [normalizeValue]
    cases htype : c.type with
    | integer => rfl
    | decimal => rfl
    | float => rfl
    | _ =>
        rw [htype] at hc
        cases hc
  rw [entry, entry]
  rcases h with h | ⟨h, h'⟩
  · rw [normalizeValue, normalizeValue, h]
  · rw [hnumeric column h, hnumeric column' h']

/-- A number is true when it is not zero. -/
theorem truthy_of_numeric {value : PyValue} {q : ℚ} (h : value.numeric? = some q) :
  truthy lib value = decide (q ≠ 0)
  := by
  cases value with
  | bool b =>
      obtain rfl := Option.some.inj h
      cases b with
      | false => rfl
      | true => rfl
  | int n =>
      obtain rfl := Option.some.inj h
      simp [truthy]
  | float r text =>
      obtain rfl := Option.some.inj h
      rfl
  | decimal d =>
      obtain rfl := Option.some.inj h
      have hvalue : d.value ≠ 0 ↔ d.coefficient ≠ 0 := by
        have hsign : (if d.negative then (-1 : ℚ) else 1) ≠ 0 := by
          split
          · decide
          · decide
        have hpower : (10 : ℚ) ^ d.exponent ≠ 0 := zpow_ne_zero _ (by decide)
        rw [Decimal.value, mul_ne_zero_iff_right hpower, mul_ne_zero_iff_left hsign,
          Nat.cast_ne_zero]
      rw [truthy, decide_eq_decide, hvalue]
  | _ => cases h

/-- Values that compare equal have the same truth value. -/
theorem entry_boolean_congr {column : CompareColumn} (htype : column.type = .boolean)
    {value value' : PyValue} (h : (value == value') = true) :
  entry lib rules column value = entry lib rules column value'
  := by
  rcases (PyValue.beq_iff _ _).mp h with ⟨q, hq, hq'⟩ | ⟨-, rfl⟩
  · have hnormalized : ∀ v : PyValue, v.numeric? = some q →
        normalizeValue lib column v rules = .ok (some (if decide (q ≠ 0) then ['1'] else ['0'])) := by
      intro v hv
      have hne : v ≠ .none := by
        rintro rfl
        cases hv
      rw [normalizeValue, if_neg hne, htype, truthy_of_numeric hv]
    rw [entry, entry, hnormalized value hq, hnormalized value' hq']
  · rfl

/-- An integer has the same entry in every type of a driver. -/
theorem entry_render {column : CompareColumn} (htype : column.type.numeric = true)
    (type type' : NumberType) (k : ℤ) :
  entry lib rules column (type.render k) = entry lib rules column (type'.render k)
  := by
  have hnormalized : ∀ t : NumberType, normalizeValue lib column (t.render k) rules
      = (normalizeDecimal (.int k) rules.numericScale).map some := by
    intro t
    have hne : t.render k ≠ .none := by
      cases t with
      | int => simp [NumberType.render]
      | decimal => simp [NumberType.render]
      | str => simp [NumberType.render]
    have htext : (t.render k).text = (PyValue.int k).text := text_render t k
    have hdecimal : normalizeDecimal (t.render k) rules.numericScale
        = normalizeDecimal (.int k) rules.numericScale := by
      rw [normalizeDecimal, normalizeDecimal, htext]
    rw [normalizeValue, if_neg hne, ← hdecimal]
    cases hcolumn : column.type with
    | integer => rfl
    | decimal => rfl
    | float => rfl
    | _ =>
        rw [hcolumn] at htype
        cases htype
  rw [entry, entry, hnormalized, hnormalized]

end Entries

namespace CompareConfig

/-- The keys decide all that is compared: every compared column is a key column by its name, and
the compared columns are all boolean, or all hold numbers under a single integer key. -/
structure KeysDecide (config : CompareConfig) : Prop where
  keyed : ∀ column ∈ config.compareColumns, ∃ keyColumn ∈ config.key, keyColumn.name = column.name
  typed : (∀ column ∈ config.compareColumns, column.type = .boolean)
    ∨ (singleIntegerKey config.key = true
      ∧ ∀ column ∈ config.compareColumns, column.type.numeric = true)

variable {config : CompareConfig} {lib : Builtins}

/-- A key column that has the name of a configured column is one of the configured columns. -/
theorem mem_columns_of_key {keyColumn column : CompareColumn} (hkey : keyColumn ∈ config.key)
    (hcolumn : column ∈ config.columns) (hname : keyColumn.name = column.name) :
  keyColumn ∈ config.columns
  := by
  obtain ⟨name, -, rfl⟩ := List.mem_map.mp hkey
  cases hget : (Dict.ofList (config.columns.map (fun c => (c.name, c)))).get? name with
  | some found =>
      obtain ⟨c, hc, heq⟩ := List.mem_map.mp (Dict.mem_of_get?_ofList hget)
      rw [← (Prod.mk.inj heq).2]
      apply hc
  | none =>
      exfalso
      rw [hget] at hname
      have hmem : name ∈ (config.columns.map (fun c => (c.name, c))).map Prod.fst := by
        rw [List.map_map]
        exact List.mem_map.mpr ⟨column, hcolumn, hname.symm⟩
      obtain ⟨found, hfound⟩ := Dict.exists_get?_ofList hmem
      rw [hget] at hfound
      cases hfound

theorem mem_compareColumns_of_key {keyColumn column : CompareColumn}
    (hkey : keyColumn ∈ config.key) (hcolumn : column ∈ config.compareColumns)
    (hname : keyColumn.name = column.name) :
  keyColumn ∈ config.compareColumns
  := by
  obtain ⟨hmem, hkept⟩ := List.mem_filter.mp hcolumn
  apply List.mem_filter.mpr
  rw [hname]
  exact ⟨mem_columns_of_key hkey hmem hname, hkept⟩

/-- Rows with equal primary keys have equal values in every key column. -/
theorem beq_of_samePk {record record' : String → PyValue} {identity identity' : Identity}
    (h : SamePk (config.identifiedRow lib record identity)
      (config.identifiedRow lib record' identity'))
    {column : CompareColumn} (hcolumn : column ∈ config.key) :
  (record column.name == record' column.name) = true
  := by
  have hlists : ∀ l : List CompareColumn,
      (l.map (fun c => record c.name) == l.map (fun c => record' c.name)) = true →
      ∀ c ∈ l, (record c.name == record' c.name) = true := by
    intro l
    induction l with
    | nil =>
        intro _ c hc
        cases hc
    | cons head rest ih =>
        intro hl c hc
        rw [List.map_cons, List.map_cons, List.cons_beq_cons, Bool.and_eq_true] at hl
        rcases List.mem_cons.mp hc with rfl | hc
        · apply hl.1
        · apply ih hl.2 c hc
  apply hlists config.key h column hcolumn

/-- Rows whose keys are normalised alike have the same entries in every key column. -/
theorem entry_of_matchKey {record record' : String → PyValue} {identity identity' : Identity}
    {key : Identity}
    (h : matchKey lib config.key config.rules (config.identifiedRow lib record identity) = .ok key)
    (h' : matchKey lib config.key config.rules (config.identifiedRow lib record' identity')
      = .ok key)
    {column : CompareColumn} (hcolumn : column ∈ config.key) :
  entry lib config.rules column (record column.name)
    = entry lib config.rules column (record' column.name)
  := by
  have hentries := (normalizedCompareIdentity_map.mp h).2.symm.trans
    (normalizedCompareIdentity_map.mp h').2
  apply List.map_inj_left.mp hentries column hcolumn

/-- Where the keys decide all that is compared, rows that are matched have the same identity. -/
theorem identity_eq_of_mates (hdecide : config.KeysDecide) {record record' : String → PyValue}
    {identity identity' : Identity} (h : config.recordIdentity lib record = .ok identity)
    (h' : config.recordIdentity lib record' = .ok identity')
    (hmates : config.Mates lib (config.identifiedRow lib record identity)
      (config.identifiedRow lib record' identity')) :
  identity = identity'
  := by
  by_contra hne
  obtain ⟨column, hcolumn, hentry⟩ := (identity_ne_iff h h').mp hne
  apply hentry
  obtain ⟨keyColumn, hkey, hname⟩ := hdecide.keyed column hcolumn
  have hcompared := mem_compareColumns_of_key hkey hcolumn hname
  have hsame : column.type = keyColumn.type
      ∨ (column.type.numeric = true ∧ keyColumn.type.numeric = true) := by
    rcases hdecide.typed with hboolean | ⟨-, hnumeric⟩
    · left
      rw [hboolean column hcolumn, hboolean keyColumn hcompared]
    · right
      exact ⟨hnumeric column hcolumn, hnumeric keyColumn hcompared⟩
  rw [entry_congr hsame, entry_congr hsame, ← hname]
  rcases hmates with ⟨key, hkeys, hkeys'⟩ | ⟨hpk, hintegers⟩
  · apply entry_of_matchKey hkeys hkeys' hkey
  · have hbeq := beq_of_samePk hpk hkey
    rcases hdecide.typed with hboolean | ⟨hsingle, hnumeric⟩
    · apply entry_boolean_congr (hboolean keyColumn hcompared) hbeq
    · obtain ⟨⟨k, type, hk⟩, k', type', hk'⟩ := hintegers hsingle
      obtain ⟨single, -, hsingleKey, -⟩ := exists_key_of_singleIntegerKey hsingle
      obtain rfl : keyColumn = single := by
        rw [hsingleKey] at hkey
        apply List.mem_singleton.mp hkey
      rw [identifiedRow, hsingleKey] at hk hk'
      have hrecord : record keyColumn.name = type.render k := (List.cons.inj hk).1
      have hrecord' : record' keyColumn.name = type'.render k' := (List.cons.inj hk').1
      rw [hrecord, hrecord'] at hbeq ⊢
      rw [((render_beq_iff type type' k k').mp hbeq).1]
      apply entry_render (hnumeric keyColumn hcompared)

/-- Where the keys decide all that is compared, a run reports no differences. -/
theorem bucket_ne_diff (hdecide : config.KeysDecide) {event : CompareDiffEvent Cell}
    (hevent : Reported (config.IsRow lib) (config.IsRow lib) (config.Mates lib) event) :
  event.bucket ≠ .diff
  := by
  cases hevent with
  | onlySource left => simp
  | onlyTarget right => simp
  | pair left right matched =>
      obtain ⟨record, hrecord⟩ := left
      obtain ⟨record', hrecord'⟩ := right
      obtain ⟨identity, hidentity, rfl⟩ := recordRow_eq_ok.mp hrecord
      obtain ⟨identity', hidentity', rfl⟩ := recordRow_eq_ok.mp hrecord'
      have heq := identity_eq_of_mates hdecide hidentity hidentity' matched
      rw [pairEvent_identifiedRow, decide_eq_true heq]
      simp [shownEvent]

/-- Ignored columns do not interfere when no key column is ignored and no ignored column holds
numbers, or the keys decide all that is compared. -/
theorem inert_of_keyKept (hkey : config.KeyKept)
    (h : config.IgnoredReadable ∨ config.KeysDecide) :
  config.Inert lib
  := by
  constructor
  · intro job source source' target target' hs ht
    rw [executeCompareRun_same hkey _ job hs ht]
    rcases h with hreadable | hdecide
    · left
      apply hreadable
    · right
      intro job source target result hresult event hevent
      apply bucket_ne_diff hdecide (compareEvents_reported hresult event hevent)
  · intro job source target result hresult event hevent row hrow
    apply diff_iff_cells (compareEvents_reported hresult event hevent) hrow

end CompareConfig

end Compare

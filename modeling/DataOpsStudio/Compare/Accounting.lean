import DataOpsStudio.Compare.Reader
import Mathlib.Data.List.ReduceOption

/-!
# Which rows a comparison counts

A comparison by segments looks at the range between the smallest and the largest key it
could read.  It counts every row in that range once, and no other row: a row without a key
lies in no range, and a driver that returns the smallest and the largest key as decimal
numbers gives no range at all.
-/

namespace Compare

open Text

/-! ### The range of the keys -/

/-- The keys whose smallest and largest can be read as integers. -/
def Database.readableKeys (db : Database) (name : String) : List ℤ :=
  if db.boundsAs = .decimal then [] else db.integers name

theorem optionalInt_render {type : NumberType} (h : type ≠ .decimal) (k : ℤ) :
  optionalInt (type.render k) = some k
  := by
  cases type with
  | int => rfl
  | decimal => cases h rfl
  | str => apply intOfText?_intText

/-- The bounds of a reader are those of the keys that can be read. -/
theorem bounds_eq {reader : DatabaseCompareReader} {column : CompareColumn} {name : String}
    (hkey : reader.keyColumns = [column]) (hname : reader.selectKeyNames = [name]) :
  reader.bounds = ((reader.db.readableKeys name).min?, (reader.db.readableKeys name).max?)
  := by
  have hread : ∀ bound : Option ℤ,
      optionalInt ((bound.map reader.db.boundsAs.render).getD .none)
        = if reader.db.boundsAs = .decimal then none else bound := by
    intro bound
    cases bound with
    | none => split <;> rfl
    | some k =>
        rw [Option.map_some, Option.getD_some]
        split
        · rename_i hdecimal
          rw [hdecimal]
          rfl
        · rename_i hdecimal
          apply optionalInt_render hdecimal
  unfold DatabaseCompareReader.bounds
  rw [hkey, hname]
  simp only [Database.minMax, hread, Database.readableKeys]
  split
  · rfl
  · rfl

/-- Whether a bound lies below a key can be asked of all keys. -/
theorem exists_min?_le {keys : List ℤ} {k : ℤ} :
  (∃ b ∈ keys.min?, b ≤ k) ↔ ∃ b ∈ keys, b ≤ k
  := by
  constructor
  · rintro ⟨b, hb, hle⟩
    exact ⟨b, List.min?_mem hb, hle⟩
  · rintro ⟨b, hb, hle⟩
    obtain ⟨m, hm⟩ : ∃ m, keys.min? = some m :=
      Option.isSome_iff_exists.mp (List.isSome_min?_of_mem hb)
    exact ⟨m, hm, le_trans ((List.le_min?_iff hm).mp (le_refl m) b hb) hle⟩

/-- Whether a bound lies above a key can be asked of all keys. -/
theorem exists_le_max? {keys : List ℤ} {k : ℤ} :
  (∃ b ∈ keys.max?, k ≤ b) ↔ ∃ b ∈ keys, k ≤ b
  := by
  constructor
  · rintro ⟨b, hb, hle⟩
    exact ⟨b, List.max?_mem hb, hle⟩
  · rintro ⟨b, hb, hle⟩
    obtain ⟨m, hm⟩ : ∃ m, keys.max? = some m :=
      Option.isSome_iff_exists.mp (List.isSome_max?_of_mem hb)
    exact ⟨m, hm, le_trans hle ((List.max?_le_iff hm).mp (le_refl m) b hb)⟩

/-- The keys that lie in the range of a list of bounds. -/
theorem rootSegment_holds {keyColumn : String} {bounds : List ℤ} {root : CompareSegment}
    (h : rootSegment keyColumn bounds = some root) (k : ℤ) :
  root.Holds k ↔ (∃ b ∈ bounds, b ≤ k) ∧ ∃ b ∈ bounds, k ≤ b
  := by
  unfold rootSegment at h
  split at h
  · rename_i low high hlow hhigh
    split at h
    · obtain rfl := Option.some.inj h
      rw [← exists_min?_le, ← exists_le_max?, hlow, hhigh]
      simp only [Option.mem_def, Option.some.injEq, exists_eq_left', CompareSegment.Holds,
        Int.lt_add_one_iff]
    · cases h
  · cases h

/-- Without a range there are no bounds. -/
theorem bounds_eq_nil_of_rootSegment {keyColumn : String} {bounds : List ℤ}
    (h : rootSegment keyColumn bounds = none) :
  bounds = []
  := by
  by_contra hne
  obtain ⟨low, hlow⟩ := Option.isSome_iff_exists.mp (List.isSome_min?_of_ne_nil hne)
  obtain ⟨high, hhigh⟩ := Option.isSome_iff_exists.mp (List.isSome_max?_of_ne_nil hne)
  have hle : low ≤ high := (List.le_min?_iff hlow).mp (le_refl low) high (List.max?_mem hhigh)
  simp only [rootSegment, hlow, hhigh, dif_pos (le_trans hle (Int.le_add_one (le_refl high)))] at h
  cases h

/-- A relation to the bounds of both sides is a relation to their keys. -/
theorem exists_mem_bounds {r : ℤ → Prop} {low high low' high' : Option ℤ} {keys keys' : List ℤ}
    (hlow : (∃ b ∈ low, r b) → ∃ b ∈ keys, r b) (hhigh : (∃ b ∈ high, r b) → ∃ b ∈ keys, r b)
    (hlow' : (∃ b ∈ low', r b) → ∃ b ∈ keys', r b)
    (hhigh' : (∃ b ∈ high', r b) → ∃ b ∈ keys', r b)
    (hkeys : (∃ b ∈ keys, r b) → (∃ b ∈ low, r b) ∨ ∃ b ∈ high, r b)
    (hkeys' : (∃ b ∈ keys', r b) → (∃ b ∈ low', r b) ∨ ∃ b ∈ high', r b) :
  (∃ b ∈ [low, high, low', high'].reduceOption, r b) ↔ ∃ b ∈ keys ++ keys', r b
  := by
  have hmem : ∀ b, b ∈ [low, high, low', high'].reduceOption
      ↔ (b ∈ low ∨ b ∈ high) ∨ (b ∈ low' ∨ b ∈ high') := by
    intro b
    simp [List.reduceOption, or_assoc, @eq_comm _ (some b)]
  simp only [hmem, or_and_right, exists_or, List.mem_append]
  constructor
  · rintro ((h | h) | (h | h))
    · exact .inl (hlow h)
    · exact .inl (hhigh h)
    · exact .inr (hlow' h)
    · exact .inr (hhigh' h)
  · rintro (h | h)
    · exact .inl (hkeys h)
    · exact .inr (hkeys' h)

/-- A key lies between two of the given keys. -/
def Between (keys : List ℤ) (k : ℤ) : Prop := (∃ b ∈ keys, b ≤ k) ∧ ∃ b ∈ keys, k ≤ b

instance (keys : List ℤ) (k : ℤ) : Decidable (Between keys k) :=
  inferInstanceAs (Decidable (_ ∧ _))

/-- The range of a run holds the keys between those that can be read. -/
theorem holds_root_iff {keyColumn : String} {keys keys' : List ℤ} {root : CompareSegment}
    (h : rootSegment keyColumn [keys.min?, keys.max?, keys'.min?, keys'.max?].reduceOption
      = some root) (k : ℤ) :
  root.Holds k ↔ Between (keys ++ keys') k
  := by
  rw [rootSegment_holds h, Between]
  apply and_congr
  · apply exists_mem_bounds exists_min?_le.mp _ exists_min?_le.mp _
      (fun hk => .inl (exists_min?_le.mpr hk)) (fun hk => .inl (exists_min?_le.mpr hk))
    · rintro ⟨b, hb, hle⟩
      exact ⟨b, List.max?_mem hb, hle⟩
    · rintro ⟨b, hb, hle⟩
      exact ⟨b, List.max?_mem hb, hle⟩
  · apply exists_mem_bounds _ exists_le_max?.mp _ exists_le_max?.mp
      (fun hk => .inr (exists_le_max?.mpr hk)) (fun hk => .inr (exists_le_max?.mpr hk))
    · rintro ⟨b, hb, hle⟩
      exact ⟨b, List.min?_mem hb, hle⟩
    · rintro ⟨b, hb, hle⟩
      exact ⟨b, List.min?_mem hb, hle⟩

/-! ### Counting the rows of a segment -/

/-- The number of rows in a segment is the number of keys in it. -/
theorem length_rowsIn (db : Database) (name : String) (segment : CompareSegment) :
  (db.rowsIn name segment).length
    = ((db.integers name : Multiset ℤ).filter
        (fun k => segment.start ≤ k ∧ k < segment.stop)).card
  := by
  rw [Multiset.filter_coe, Multiset.coe_card, ← List.countP_eq_length_filter, Database.integers,
    List.countP_filterMap, Database.rowsIn, ← List.countP_eq_length_filter]
  rfl

/-- The rows of a segment are those of its pieces. -/
theorem length_rowsIn_split (db : Database) (name : String) (segment : CompareSegment)
    (factor : ℕ) :
  (db.rowsIn name segment).length
    = ((splitSegment segment factor).map (fun piece => (db.rowsIn name piece).length)).sum
  := by
  have htiles := (splitSegment_tiles segment factor).filter_eq_sum
    (db.integers name : Multiset ℤ) (fun k => k)
  simp only [length_rowsIn]
  rw [htiles]
  apply (map_list_sum Multiset.cardHom _).trans
  rw [List.map_map, List.map_map]
  rfl

/-- A fingerprint the database computes counts the rows of the segment. -/
def PushdownCounts (db : Database) (name : String) : Prop :=
  ∀ segment fingerprint, db.pushdown segment = .ok (some fingerprint) →
    fingerprint.rowCount = (db.rowsIn name segment).length

section Reader

variable {reader : DatabaseCompareReader} {name : String}

/-- As many rows are fetched as the segment has. -/
theorem length_fetchRows (hname : reader.selectKeyNames = [name]) {segment : CompareSegment}
    {rows : List (CompareRow Cell)} (h : reader.fetchRows (some segment) = .ok rows) :
  rows.length = (reader.db.rowsIn name segment).length
  := by
  have hrows := (Outcome.mapM_eq_ok.mp h).length_eq
  unfold DatabaseCompareReader.selected at hrows
  rw [hname] at hrows
  apply hrows.symm

/-- A fingerprint counts the rows of the segment. -/
theorem rowCount_segmentFingerprint (hname : reader.selectKeyNames = [name])
    (hcounts : PushdownCounts reader.db name) {segment : CompareSegment}
    {fingerprint : SegmentFingerprint} (h : reader.segmentFingerprint segment = .ok fingerprint) :
  fingerprint.rowCount = (reader.db.rowsIn name segment).length
  := by
  unfold DatabaseCompareReader.segmentFingerprint at h
  split at h
  · cases h
  · rename_i found hpushdown
    obtain rfl := Except.ok.inj h
    apply hcounts segment found hpushdown
  · obtain ⟨rows, hrows, heq⟩ := Outcome.bind_eq_ok.mp h
    rw [← Outcome.pure_eq_ok.mp heq]
    apply length_fetchRows hname hrows

end Reader

/-! ### The rows of a run -/

theorem diffAllRows_nil :
  diffAllRows [] [] = .ok ([], {})
  := by
  have hevents : diffRowMaps (indexRows CompareRow.pk ([] : List (CompareRow Cell))).1
      (indexRows CompareRow.pk []).1 = [] := by
    simp [diffRowMaps, unionKeys, sortedCompareKeys, indexRows, Dict.keys, Dict.empty]
  simp only [diffAllRows, rowMap, indexRows, List.foldl_nil] at hevents ⊢
  simp [hevents, bind, Except.bind, pure, Except.pure]

/-- What a comparison by segments returns: the events of the range of the bounds, or nothing
where there are no bounds. -/
theorem runCompareHashdiff_ok {source target : DatabaseCompareReader}
    {keyColumns : List CompareColumn} {limits : RunLimits}
    {result : List (CompareDiffEvent Cell) × HashdiffProgress}
    (hkey : singleIntegerKey keyColumns = true)
    (h : runCompareHashdiff source target keyColumns limits = .ok result) :
  let root := rootSegment ((keyColumns.head?.map CompareColumn.name).getD "")
    [source.bounds.1, source.bounds.2, target.bounds.1, target.bounds.2].reduceOption
  (root = none ∧ result = ([], {}))
    ∨ ∃ segment, root = some segment
      ∧ recursiveHashdiffStream source.segments target.segments segment limits = .ok result
  := by
  intro root
  rw [runCompareHashdiff_of_key limits hkey] at h
  obtain ⟨-, -, h⟩ := Outcome.bind_eq_ok.mp h
  change root.elim _ _ = _ at h
  cases hroot : root with
  | none =>
      left
      rw [hroot] at h
      use rfl
      apply (Except.ok.inj (diffAllRows_nil.symm.trans h)).symm
  | some segment =>
      right
      rw [hroot] at h
      exact ⟨segment, rfl, h⟩

/-- The events and the skipped rows of a run count every row of either side once. -/
def AccountsForRows (result : List (CompareDiffEvent Cell) × HashdiffProgress)
    (sourceRows targetRows : ℕ) : Prop :=
  bucketCount .same result.1 + result.2.skippedRows + bucketCount .diff result.1
      + bucketCount .onlySource result.1 = sourceRows
    ∧ bucketCount .same result.1 + result.2.skippedRows + bucketCount .diff result.1
      + bucketCount .onlyTarget result.1 = targetRows

/-- Every row has a key, and it lies between two of the given keys. -/
def Covered (db : Database) (name : String) (keys : List ℤ) : Prop :=
  ∀ row ∈ db.rows, ∃ k, row name = .integer k ∧ Between keys k

/-- A segment holds all rows when it holds the key of every row. -/
theorem length_rowsIn_eq_iff {db : Database} {name : String} {segment : CompareSegment} :
  (db.rowsIn name segment).length = db.rows.length
    ↔ ∀ row ∈ db.rows, ∃ k, row name = .integer k ∧ segment.Holds k
  := by
  rw [Database.rowsIn, List.length_filter_eq_length_iff]
  apply forall₂_congr
  intro row _
  cases row name with
  | null => simp [DbValue.integer?]
  | integer k => simp [DbValue.integer?]
  | other value => simp [DbValue.integer?]

/-- The rows of both sides in the range are counted by a run. -/
theorem recursiveHashdiffStream_accountsForRows {source target : DatabaseCompareReader}
    {name name' : String} (hname : source.selectKeyNames = [name])
    (hname' : target.selectKeyNames = [name']) (hs : PushdownCounts source.db name)
    (ht : PushdownCounts target.db name') {limits : RunLimits} {root : CompareSegment}
    {result : List (CompareDiffEvent Cell) × HashdiffProgress}
    (h : recursiveHashdiffStream source.segments target.segments root limits = .ok result) :
  AccountsForRows result (source.db.rowsIn name root).length (target.db.rowsIn name' root).length
  := by
  have hdiff : ∀ segment events,
      rowLevelDiff source.segments target.segments segment = .ok events →
      bucketCount .same events + bucketCount .diff events + bucketCount .onlySource events
          = (source.db.rowsIn name segment).length
        ∧ bucketCount .same events + bucketCount .diff events + bucketCount .onlyTarget events
          = (target.db.rowsIn name' segment).length := by
    intro segment events hevents
    obtain ⟨sourceRows, targetRows, -, -, hsr, htr, -⟩ := rowLevelDiff_ok hevents
    rw [← length_fetchRows hname hsr, ← length_fetchRows hname' htr]
    apply rowLevelDiff_counts hevents hsr htr
  have hsource := recursiveHashdiffStream_count
    (fun segment factor => length_rowsIn_split source.db name segment factor)
    (by simp) (by intro l m; simp only [bucketCount_append]; omega)
    (fun segment fingerprint hf _ => rowCount_segmentFingerprint hname hs hf)
    (fun segment events hevents => (hdiff segment events hevents).1) h
  have htarget := recursiveHashdiffStream_count
    (fun segment factor => length_rowsIn_split target.db name' segment factor)
    (by simp) (by intro l m; simp only [bucketCount_append]; omega)
    (fun segment fingerprint _ hf => rowCount_segmentFingerprint hname' ht hf)
    (fun segment events hevents => (hdiff segment events hevents).2) h
  rw [← hsource, ← htarget]
  constructor
  · omega
  · omega

/-- Without bounds there are no keys that can be read. -/
theorem keys_eq_nil_of_rootSegment {keyColumn : String} {keys keys' : List ℤ}
    (h : rootSegment keyColumn [keys.min?, keys.max?, keys'.min?, keys'.max?].reduceOption = none) :
  keys ++ keys' = []
  := by
  have hbounds := bounds_eq_nil_of_rootSegment h
  have hnone : ∀ bound ∈ [keys.min?, keys.max?, keys'.min?, keys'.max?], bound = none := by
    intro bound hmem
    apply List.filterMap_eq_nil_iff.mp hbounds bound hmem
  have hkeys := List.min?_eq_none_iff.mp (hnone keys.min? (by simp))
  have hkeys' := List.min?_eq_none_iff.mp (hnone keys'.min? (by simp))
  rw [hkeys, hkeys', List.append_nil]

/-- Nothing is covered by no keys. -/
theorem covered_nil {db : Database} {name : String} :
  Covered db name [] ↔ db.rows.length = 0
  := by
  rw [List.length_eq_zero_iff, List.eq_nil_iff_forall_not_mem]
  apply forall₂_congr
  intro row _
  constructor
  · rintro ⟨k, -, ⟨b, hb, -⟩, -⟩
    cases hb
  · intro h
    cases h

/-- A comparison by segments counts every row exactly when the range holds every row. -/
theorem runCompareHashdiff_accountsForRows_iff {source target : DatabaseCompareReader}
    {limits : RunLimits} {keyColumns : List CompareColumn} {column : CompareColumn}
    {name name' : String} {result : List (CompareDiffEvent Cell) × HashdiffProgress}
    (hkey : singleIntegerKey keyColumns = true)
    (hsource : source.keyColumns = [column]) (htarget : target.keyColumns = [column])
    (hname : source.selectKeyNames = [name]) (hname' : target.selectKeyNames = [name'])
    (hs : PushdownCounts source.db name) (ht : PushdownCounts target.db name')
    (h : runCompareHashdiff source target keyColumns limits = .ok result) :
  AccountsForRows result source.db.rows.length target.db.rows.length
    ↔ Covered source.db name (source.db.readableKeys name ++ target.db.readableKeys name')
      ∧ Covered target.db name' (source.db.readableKeys name ++ target.db.readableKeys name')
  := by
  have hrun := runCompareHashdiff_ok hkey h
  simp only [bounds_eq hsource hname, bounds_eq htarget hname'] at hrun
  obtain ⟨hroot, rfl⟩ | ⟨root, hroot, hstream⟩ := hrun
  · rw [keys_eq_nil_of_rootSegment hroot, covered_nil, covered_nil, AccountsForRows]
    simp [eq_comm]
  · have haccounts := recursiveHashdiffStream_accountsForRows hname hname' hs ht hstream
    rw [AccountsForRows, haccounts.1, haccounts.2, length_rowsIn_eq_iff, length_rowsIn_eq_iff]
    simp only [holds_root_iff hroot, Covered]

/-- A comparison with a single integer key that returns counts every row of either side once
exactly when every row has a key, and all keys lie between keys whose smallest and largest
the drivers return as integers or texts of integers. -/
theorem runCompare_accountsForRows_iff {config : CompareConfig} {lib : Builtins}
    {source target : Database} {limits : RunLimits} {column : CompareColumn}
    {result : List (CompareDiffEvent Cell) × HashdiffProgress}
    (hkey : config.key = [column]) (htype : column.type = .integer)
    (hs : PushdownCounts source column.name)
    (ht : PushdownCounts target (config.targetName column.name))
    (h : runCompare config lib source target limits = .ok result) :
  AccountsForRows result source.rows.length target.rows.length
    ↔ Covered source column.name
          (source.readableKeys column.name
            ++ target.readableKeys (config.targetName column.name))
      ∧ Covered target (config.targetName column.name)
          (source.readableKeys column.name
            ++ target.readableKeys (config.targetName column.name))
  := by
  obtain ⟨sr, hsr, h⟩ := Outcome.bind_eq_ok.mp h
  obtain ⟨tr, htr, h⟩ := Outcome.bind_eq_ok.mp h
  obtain ⟨_, -, rfl⟩ := DatabaseCompareReader.init_ok hsr
  obtain ⟨_, -, rfl⟩ := DatabaseCompareReader.init_ok htr
  have hsingle : singleIntegerKey config.key = true := by
    rw [hkey]
    apply decide_eq_true htype
  apply runCompareHashdiff_accountsForRows_iff hsingle hkey hkey _ _ hs ht h
  · rw [hkey]
    rfl
  · rw [hkey]
    rfl

/-! ### Tables of keys -/

/-- A configuration with one integer column, which is the key. -/
def idConfig : CompareConfig where
  columns := [{ name := "id", type := .integer }]
  rules := { keyColumns := ["id"] }
  keyColumns_ne := by decide
  compareColumns_ne := by decide

/-- Lower case of ASCII letters, and the hash of the payload of the key `1`. -/
def sampleBuiltins : Builtins where
  lower s := s.map Char.toLower
  lower_ascii _ _ := rfl
  hash64 s := if s = "0␟8␟1.000000".toList then 0xa447b62bd3540c2e else 0
  hash64_lt s := by
    split
    · decide
    · decide

/-- A table of keys. -/
def idTable (keys : List DbValue) (boundsAs : NumberType) : Database where
  rows := keys.map (fun key _ => key)
  boundsAs := boundsAs

theorem pushdownCounts_idTable (keys : List DbValue) (boundsAs : NumberType) (name : String) :
  PushdownCounts (idTable keys boundsAs) name
  := by
  intro segment fingerprint h
  cases h

instance (result : List (CompareDiffEvent Cell) × HashdiffProgress) (m n : ℕ) :
    Decidable (AccountsForRows result m n) :=
  inferInstanceAs (Decidable (_ ∧ _))

/-- A driver that returns the smallest and the largest key as decimal numbers: the run
returns and reports nothing about the row of the source. -/
theorem not_accountsForRows_decimal_bounds :
  ∃ column result, idConfig.key = [column] ∧ column.type = .integer
    ∧ PushdownCounts (idTable [.integer 1] .decimal) column.name
    ∧ PushdownCounts (idTable [] .int) (idConfig.targetName column.name)
    ∧ runCompare idConfig sampleBuiltins (idTable [.integer 1] .decimal) (idTable [] .int) {}
      = .ok result
    ∧ ¬ AccountsForRows result (idTable [.integer 1] .decimal).rows.length
      (idTable [] .int).rows.length
  := by
  refine ⟨{ name := "id", type := .integer }, ([], {}), rfl, rfl, ?_, ?_, ?_, by decide⟩
  · apply pushdownCounts_idTable
  · apply pushdownCounts_idTable
  · apply diffAllRows_nil

/-- Two tables with the same key, one of them behind a driver that returns texts. -/
theorem accountsForRows_text_bounds :
  ∃ result,
    runCompare idConfig sampleBuiltins (idTable [.integer 1] .int) (idTable [.integer 1] .str) {}
        = .ok result
      ∧ AccountsForRows result 1 1
  := by
  have hrun : ∃ result, runCompare idConfig sampleBuiltins (idTable [.integer 1] .int)
      (idTable [.integer 1] .str) {} = .ok result := ⟨_, rfl⟩
  obtain ⟨result, hrun⟩ := hrun
  use result, hrun
  have hkey : idConfig.key = [{ name := "id", type := .integer }] := rfl
  apply (runCompare_accountsForRows_iff hkey rfl (pushdownCounts_idTable _ _ _)
    (pushdownCounts_idTable _ _ _) hrun).mpr
  have hbetween : Between [1, 1] 1 := by decide
  constructor
  · intro row hrow
    obtain rfl := List.mem_singleton.mp hrow
    exact ⟨1, rfl, hbetween⟩
  · intro row hrow
    obtain rfl := List.mem_singleton.mp hrow
    exact ⟨1, rfl, hbetween⟩

end Compare

import DataOpsStudio.Compare.Accounting

/-!
# What equal fingerprints say

The fingerprint of a segment counts its rows and adds up the hashes of their payloads, and a
payload holds the columns that are compared.  Equal fingerprints of two sides mean equal rows,
keys included, exactly when the key is one of the compared columns, both drivers return it in
types that compare equal, and the separator keeps different rows apart.
-/

namespace Compare

open Text

/-! ### Rows and their identities -/

namespace DatabaseCompareReader

variable (reader : DatabaseCompareReader)

/-- The identity of a row. -/
def rowIdentity (row : DbRow) : Except CompareError Identity :=
  normalizedCompareIdentity reader.lib reader.hashColumns
    (reader.hashValues ((reader.rowValues row).drop reader.keyColumns.length)) reader.rules

/-- A row with the given identity, as it is compared. -/
def comparedRow (row : DbRow) (identity : Identity) : CompareRow Cell where
  pk := (reader.rowValues row).take reader.keyColumns.length
  values := identity.map (fun p => Cell.normal p.1 p.2)
  rawValues := some (((reader.rowValues row).drop reader.keyColumns.length).map Cell.raw)
  rowHash64 := some (reader.lib.hash64 (payloadOf reader.rules identity))

/-- The payloads of the rows of a segment. -/
def segmentPayloads (segment : CompareSegment) : Except CompareError (List Text) :=
  (reader.selected (some segment)).mapM
    (fun row => (reader.rowIdentity row).map (payloadOf reader.rules))

/-- The query of a reader has as many columns as its rows are expected to have. -/
def WellShaped : Prop :=
  reader.selectKeyNames.length = reader.keyColumns.length
    ∧ reader.selectValueNames.length = reader.valueColumns.length

variable {reader}

theorem rowToCompare_eq (h : reader.WellShaped) (row : DbRow) :
  reader.rowToCompare (reader.rowValues row)
    = (reader.rowIdentity row).map (reader.comparedRow row)
  := by
  have hlength : (reader.rowValues row).length
      = reader.keyColumns.length + reader.valueColumns.length := by
    rw [rowValues, List.length_map, List.length_append, h.1, h.2]
  rw [rowToCompare, if_neg (not_not.mpr hlength), rowIdentity]
  simp only [compareRowHash64, normalizedComparePayload]
  cases normalizedCompareIdentity reader.lib reader.hashColumns
      (reader.hashValues ((reader.rowValues row).drop reader.keyColumns.length)) reader.rules with
  | error e => rfl
  | ok identity => rfl

/-- The rows a segment returns are those it selects, each with its identity. -/
theorem fetchRows_ok (h : reader.WellShaped) {segment : CompareSegment}
    {rows : List (CompareRow Cell)} (hrows : reader.fetchRows (some segment) = .ok rows) :
  ∃ identified : List (DbRow × Identity),
    identified.map Prod.fst = reader.selected (some segment)
      ∧ (∀ p ∈ identified, reader.rowIdentity p.1 = .ok p.2)
      ∧ rows = identified.map (fun p => reader.comparedRow p.1 p.2)
  := by
  have hforall := Outcome.mapM_eq_ok.mp hrows
  clear hrows
  generalize reader.selected (some segment) = selected at hforall
  induction hforall with
  | nil => exact ⟨[], rfl, by simp, rfl⟩
  | @cons row compared _ _ hrow _ ih =>
      obtain ⟨identified, hfst, hall, hmap⟩ := ih
      rw [rowToCompare_eq h] at hrow
      obtain ⟨identity, hidentity, rfl⟩ := Outcome.map_eq_ok.mp hrow
      use (row, identity) :: identified
      refine ⟨by rw [List.map_cons, hfst], ?_, by rw [List.map_cons, hmap]⟩
      intro p hp
      obtain rfl | hp := List.mem_cons.mp hp
      · apply hidentity
      · apply hall p hp

/-- The payloads of the rows a segment returns. -/
theorem segmentPayloads_ok {segment : CompareSegment} {identified : List (DbRow × Identity)}
    (hfst : identified.map Prod.fst = reader.selected (some segment))
    (hall : ∀ p ∈ identified, reader.rowIdentity p.1 = .ok p.2) :
  reader.segmentPayloads segment
    = .ok (identified.map (fun p => payloadOf reader.rules p.2))
  := by
  rw [segmentPayloads, ← hfst]
  apply Outcome.mapM_eq_ok.mpr
  rw [List.forall₂_map_left_iff, List.forall₂_map_right_iff, List.forall₂_same]
  intro p hp
  rw [hall p hp]
  rfl

end DatabaseCompareReader

/-! ### The readers of a configuration -/

/-- The identity of a row whose columns have the given names and whose integers arrive in the
given type. -/
def CompareConfig.identity (config : CompareConfig) (lib : Builtins) (name : String → String)
    (type : NumberType) (row : DbRow) : Except CompareError Identity :=
  normalizedCompareIdentity lib config.compareColumns
    (config.compareColumns.map (fun column => type.fetch (row (name column.name)))) config.rules

/-- The reader of a side whose columns have the given names. -/
def CompareConfig.reader (config : CompareConfig) (lib : Builtins) (name : String → String)
    (db : Database) : Except CompareError DatabaseCompareReader :=
  DatabaseCompareReader.init lib db config.key config.columns config.compareColumns
    (config.key.map (fun column => name column.name))
    (config.columns.map (fun column => name column.name)) config.rules

theorem sourceReader_eq (config : CompareConfig) (lib : Builtins) (db : Database) :
  config.sourceReader lib db = config.reader lib (fun n => n) db
  := rfl

theorem targetReader_eq (config : CompareConfig) (lib : Builtins) (db : Database) :
  config.targetReader lib db = config.reader lib config.targetName db
  := rfl

theorem hashIndex_ok {valueColumns : List CompareColumn} {column : CompareColumn} {index : ℕ}
    (h : hashIndex valueColumns column = .ok index) :
  ∃ found, valueColumns[index]? = some found ∧ found.name = column.name
  := by
  simp only [hashIndex] at h
  split at h
  · cases h
  · rename_i found hfound
    obtain rfl := Except.ok.inj h
    obtain ⟨p, hp, heq⟩ := List.mem_map.mp (Dict.mem_of_get?_ofList hfound)
    obtain ⟨hname, rfl⟩ := Prod.mk.inj heq
    exact ⟨p.1, List.mem_zipIdx_iff_getElem?.mp hp, hname⟩

theorem exists_hashIndex {valueColumns : List CompareColumn} {column : CompareColumn}
    (h : column ∈ valueColumns) :
  ∃ index, hashIndex valueColumns column = .ok index
  := by
  obtain ⟨i, hi, hget⟩ := List.getElem_of_mem h
  have hmem : column.name ∈ (valueColumns.zipIdx.map (fun p => (p.1.name, p.2))).map Prod.fst := by
    rw [List.map_map]
    apply List.mem_map.mpr
    refine ⟨(column, i), ?_, rfl⟩
    rw [List.mem_zipIdx_iff_getElem?, List.getElem?_eq_getElem hi, hget]
  obtain ⟨index, hindex⟩ := Dict.exists_get?_ofList hmem
  use index
  rw [hashIndex, hindex]

/-- A hashed column stands at its index among the value columns. -/
theorem hashColumnSlice_ok {valueColumns hashColumns : List CompareColumn} {indexes : List ℕ}
    (h : hashColumnSlice valueColumns hashColumns = .ok (hashColumns, indexes)) :
  List.Forall₂ (fun column index =>
      ∃ found, valueColumns[index]? = some found ∧ found.name = column.name)
    hashColumns indexes
  := by
  obtain ⟨indexes', hindexes, heq⟩ := Outcome.map_eq_ok.mp h
  obtain ⟨-, rfl⟩ := Prod.mk.inj heq
  apply (Outcome.mapM_eq_ok.mp hindexes).imp
  intro column index hindex
  apply hashIndex_ok hindex

/-- What a reader of a configuration with one key column reads. -/
structure ReadsSide (config : CompareConfig) (lib : Builtins) (name : String → String)
    (db : Database) (column : CompareColumn) (reader : DatabaseCompareReader) : Prop where
  lib_eq : reader.lib = lib
  db_eq : reader.db = db
  rules_eq : reader.rules = config.rules
  shaped : reader.WellShaped
  selected : ∀ segment, reader.selected (some segment) = db.rowsIn (name column.name) segment
  identity : ∀ row, reader.rowIdentity row = config.identity lib name db.integersAs row
  pk : ∀ row identity, (reader.comparedRow row identity).pk
    = [db.integersAs.fetch (row (name column.name))]

section Side

variable {config : CompareConfig} {lib : Builtins} {name : String → String} {db : Database}
  {column : CompareColumn}

/-- The hashed values of a row are those of the hashed columns. -/
theorem hashValues_eq {valueColumns hashColumns : List CompareColumn} {indexes : List ℕ}
    (values : CompareColumn → PyValue)
    (hvalues : ∀ c c' : CompareColumn, c.name = c'.name → values c = values c')
    (h : List.Forall₂ (fun column index =>
        ∃ found, valueColumns[index]? = some found ∧ found.name = column.name)
      hashColumns indexes) :
  indexes.map (fun index => (valueColumns.map values).getD index .none)
    = hashColumns.map values
  := by
  induction h with
  | nil => rfl
  | @cons column index _ _ hfound _ ih =>
      obtain ⟨found, hget, hname⟩ := hfound
      rw [List.map_cons, List.map_cons, ih, List.getD_eq_getElem?_getD, List.getElem?_map, hget,
        Option.map_some, Option.getD_some, hvalues found column hname]

theorem readsSide_of_reader {reader : DatabaseCompareReader} (hkey : config.key = [column])
    (h : config.reader lib name db = .ok reader) :
  ReadsSide config lib name db column reader
  := by
  obtain ⟨indexes, hslice, rfl⟩ := DatabaseCompareReader.init_ok h
  have hdrop : ∀ row : DbRow, (((config.key.map (fun column => name column.name)
      ++ config.columns.map (fun column => name column.name)).map
        (fun n => db.integersAs.fetch (row n))).drop config.key.length)
      = config.columns.map (fun column => db.integersAs.fetch (row (name column.name))) := by
    intro row
    rw [List.map_append, List.drop_left' (by simp), List.map_map]
    rfl
  refine ⟨rfl, rfl, rfl, ⟨by simp, by simp⟩, ?_, ?_, ?_⟩
  · intro segment
    unfold DatabaseCompareReader.selected
    rw [hkey]
    rfl
  · intro row
    rw [DatabaseCompareReader.rowIdentity, CompareConfig.identity]
    congr 1
    rw [DatabaseCompareReader.hashValues, DatabaseCompareReader.rowValues, hdrop]
    apply hashValues_eq _ _ (hashColumnSlice_ok hslice)
    intro c c' hc
    rw [hc]
  · intro row identity
    rw [DatabaseCompareReader.comparedRow, DatabaseCompareReader.rowValues, hkey]
    rfl

theorem exists_reader (config : CompareConfig) (lib : Builtins) (name : String → String)
    (db : Database) :
  ∃ reader, config.reader lib name db = .ok reader
  := by
  obtain ⟨indexes, hindexes⟩ : ∃ indexes,
      config.compareColumns.mapM (hashIndex config.columns) = .ok indexes := by
    apply Outcome.exists_mapM
    intro column hcolumn
    apply exists_hashIndex (List.mem_filter.mp hcolumn).1
  rw [CompareConfig.reader, DatabaseCompareReader.init, hashColumnSlice, hindexes]
  exact ⟨_, rfl⟩

end Side

/-! ### Keys and identities -/

/-- Whatever type carries an integer, its text is that of the integer. -/
theorem text_render (type : NumberType) (k : ℤ) :
  (type.render k).text = intText k
  := by
  cases type with
  | int => rfl
  | str => rfl
  | decimal =>
      have hpos : 0 < (natText k.natAbs).length := List.length_pos_iff.mpr (natText_ne_nil _)
      have hsix : (-6 : ℤ) < (natText k.natAbs).length := by omega
      have hplace : ¬ ((natText k.natAbs).length : ℤ) ≤ 0 := by omega
      have hsign : ∀ k : ℤ, (if decide (k < 0) then ['-'] else []) ++ natText k.natAbs
          = intText k := by
        intro k
        cases k with
        | ofNat n => rfl
        | negSucc n =>
            rw [if_pos (decide_eq_true (Int.negSucc_lt_zero n))]
            rfl
      rw [← hsign k]
      simp [NumberType.render, PyValue.text, Decimal.text, hsix, natText_ne_nil]

theorem value_render_decimal (k : ℤ) :
  Decimal.value ⟨decide (k < 0), k.natAbs, 0⟩ = k
  := by
  rw [Decimal.value]
  by_cases hk : k < 0
  · simp [hk, abs_of_neg hk]
  · simp [hk, abs_of_nonneg (not_lt.mp hk)]

theorem numeric?_render (type : NumberType) (k : ℤ) :
  (type.render k).numeric? = if type = .str then none else some (k : ℚ)
  := by
  cases type with
  | int => rfl
  | str => rfl
  | decimal =>
      show some (Decimal.value ⟨decide (k < 0), k.natAbs, 0⟩) = _
      rw [value_render_decimal]
      rfl

/-- Keys compare equal when they are the same integer and both are numbers or both texts. -/
theorem render_beq_iff (type type' : NumberType) (k k' : ℤ) :
  (type.render k == type'.render k') = true ↔ k = k' ∧ (type = .str ↔ type' = .str)
  := by
  rw [PyValue.beq_iff, numeric?_render, numeric?_render]
  by_cases h : type = .str
  · by_cases h' : type' = .str
    · rw [h, h']
      have hinj : intText k = intText k' ↔ k = k' := by
        constructor
        · intro heq
          have hread := congrArg intOfText? heq
          rw [intOfText?_intText, intOfText?_intText] at hread
          apply Option.some.inj hread
        · intro heq
          rw [heq]
      simp [NumberType.render, hinj]
    · have hne : type.render k ≠ type'.render k' := by
        intro heq
        have hnumeric := congrArg PyValue.numeric? heq
        rw [numeric?_render, numeric?_render, if_pos h, if_neg h'] at hnumeric
        cases hnumeric
      rw [h] at hne
      simp [hne, h, h']
  · by_cases h' : type' = .str
    · simp [h, h']
    · simp [h, h', eq_comm]

theorem identity_eq_mapM (config : CompareConfig) (lib : Builtins) (name : String → String)
    (type : NumberType) (row : DbRow) :
  config.identity lib name type row
    = (config.compareColumns.mapM (fun column =>
        normalizeValue lib column (type.fetch (row (name column.name))) config.rules)).map
      (fun values => values.map (identityOf config.rules))
  := by
  rw [CompareConfig.identity, normalizedCompareIdentity, normalizedValues, if_neg (by simp),
    ← List.map_prod_left_eq_zip, List.mapM_map]
  rfl

/-- The identity of a row has an entry for every compared column. -/
theorem identity_ok {config : CompareConfig} {lib : Builtins} {name : String → String}
    {type : NumberType} {row : DbRow} {identity : Identity}
    (h : config.identity lib name type row = .ok identity) :
  List.Forall₂ (fun column entry =>
      ∃ normalized, normalizeValue lib column (type.fetch (row (name column.name))) config.rules
          = .ok normalized
        ∧ entry = identityOf config.rules normalized)
    config.compareColumns identity
  := by
  rw [identity_eq_mapM] at h
  obtain ⟨values, hvalues, rfl⟩ := Outcome.map_eq_ok.mp h
  rw [List.forall₂_map_right_iff]
  apply (Outcome.mapM_eq_ok.mp hvalues).imp
  intro column normalized hnormalized
  exact ⟨normalized, hnormalized, rfl⟩

/-- Entries under the same column of two lists in relation to the columns. -/
theorem exists_common_entry {α β : Type} {r r' : α → β → Prop} {l : List α} {m : List β}
    (h : List.Forall₂ r l m) (h' : List.Forall₂ r' l m) {a : α} (ha : a ∈ l) :
  ∃ b, r a b ∧ r' a b
  := by
  induction h with
  | nil => cases ha
  | @cons a' b _ _ hab _ ih =>
      obtain ⟨hab', h'⟩ := List.forall₂_cons.mp h'
      obtain rfl | ha := List.mem_cons.mp ha
      · exact ⟨b, hab, hab'⟩
      · apply ih h' ha

/-- Rows with the same identity have the same key, when the key is compared. -/
theorem key_eq_of_identity {config : CompareConfig} {lib : Builtins}
    {name name' : String → String} {type type' : NumberType} {row row' : DbRow}
    {identity : Identity} {column : CompareColumn} {k k' : ℤ}
    (hcolumn : column ∈ config.compareColumns) (htype : column.type = .integer)
    (hrow : row (name column.name) = .integer k) (hrow' : row' (name' column.name) = .integer k')
    (h : config.identity lib name type row = .ok identity)
    (h' : config.identity lib name' type' row' = .ok identity) :
  k = k'
  := by
  obtain ⟨entry, ⟨n, hn, rfl⟩, ⟨n', hn', heq⟩⟩ :=
    exists_common_entry (identity_ok h) (identity_ok h') hcolumn
  have hnumber : ∀ (t : NumberType) (j : ℤ),
      normalizeValue lib column (t.fetch (.integer j)) config.rules
        = (normalizeDecimal (t.render j) config.rules.numericScale).map some := by
    intro t j
    have hne : t.fetch (.integer j) ≠ .none := by
      cases t with
      | int => simp [NumberType.fetch, NumberType.render]
      | decimal => simp [NumberType.fetch, NumberType.render]
      | str => simp [NumberType.fetch, NumberType.render]
    rw [normalizeValue, if_neg hne, htype]
    rfl
  rw [hrow, hnumber] at hn
  rw [hrow', hnumber] at hn'
  obtain ⟨s, hs, rfl⟩ := Outcome.map_eq_ok.mp hn
  obtain ⟨s', hs', rfl⟩ := Outcome.map_eq_ok.mp hn'
  obtain rfl : s = s' := (Prod.mk.inj heq).2
  apply normalizeDecimal_integer_inj (text_render type k) (text_render type' k') hs hs'

/-! ### Skipping a segment -/

/-- Every row of one side has a row with an equal key and equal values on the other. -/
def SamePkRows (sourceRows targetRows : List (CompareRow Cell)) : Prop :=
  (∀ row ∈ sourceRows, ∃ other ∈ targetRows,
      (row.pk == other.pk) = true ∧ rowsEquivalent row other = true)
    ∧ ∀ row ∈ targetRows, ∃ other ∈ sourceRows,
      (other.pk == row.pk) = true ∧ rowsEquivalent other row = true

/-- What a dictionary of rows holds under a key equal to that of one of the rows. -/
theorem get?_rowMap_of_mem {rows : List (CompareRow Cell)} {side : Side}
    {d : Dict (List PyValue) (CompareRow Cell)} (hd : rowMap rows side = .ok d)
    {row : CompareRow Cell} (hrow : row ∈ rows) {pk : List PyValue}
    (hpk : (row.pk == pk) = true) :
  d.get? pk = some row
  := by
  rw [← Dict.get?_congr d hpk]
  apply Dict.get?_of_mem
  rw [rowMap_items hd]
  apply List.mem_map_of_mem hrow

/-- Sides with the same rows have no differences. -/
theorem same_of_samePkRows {source target : CompareSegmentReader Cell} {segment : CompareSegment}
    {sourceRows targetRows : List (CompareRow Cell)} {events : List (CompareDiffEvent Cell)}
    (hs : source.fetchRows segment = .ok sourceRows)
    (ht : target.fetchRows segment = .ok targetRows) (h : SamePkRows sourceRows targetRows)
    (hevents : rowLevelDiff source target segment = .ok events) :
  ∀ event ∈ events, event.bucket = .same
  := by
  obtain ⟨sourceRows', targetRows', sourceMap, targetMap, hs', ht', hsm, htm, rfl⟩ :=
    rowLevelDiff_ok hevents
  obtain rfl := Except.ok.inj (hs.symm.trans hs')
  obtain rfl := Except.ok.inj (ht.symm.trans ht')
  have hmem : ∀ {rows : List (CompareRow Cell)} {side : Side}
      {d : Dict (List PyValue) (CompareRow Cell)} {pk : List PyValue} {row : CompareRow Cell},
      rowMap rows side = .ok d → d.get? pk = some row → row ∈ rows ∧ (row.pk == pk) = true := by
    intro rows side d pk row hd hget
    obtain ⟨k, hk, hitem⟩ := Dict.exists_mem_of_get? hget
    rw [rowMap_items hd] at hitem
    obtain ⟨found, hfound, heq⟩ := List.mem_map.mp hitem
    obtain ⟨rfl, rfl⟩ := Prod.mk.inj heq
    exact ⟨hfound, hk⟩
  intro event hevent
  obtain ⟨pk, -, hevent⟩ := List.mem_filterMap.mp hevent
  cases hsource : sourceMap.get? pk with
  | some row =>
      obtain ⟨hrow, hpk⟩ := hmem hsm hsource
      obtain ⟨other, hother, hpk', heq⟩ := h.1 row hrow
      rw [hsource, get?_rowMap_of_mem htm hother (BEq.trans (BEq.symm hpk') hpk)] at hevent
      obtain rfl := Option.some.inj hevent
      simp only [pairEvent, heq, if_true]
  | none =>
      cases htarget : targetMap.get? pk with
      | none =>
          rw [hsource, htarget] at hevent
          cases hevent
      | some row =>
          obtain ⟨hrow, hpk⟩ := hmem htm htarget
          obtain ⟨other, hother, hpk', -⟩ := h.2 row hrow
          rw [get?_rowMap_of_mem hsm hother (BEq.trans hpk' hpk)] at hsource
          cases hsource

/-- The hash tells the payloads of two sides apart, and sums of hashes that are equal have
equal terms. -/
structure HashSeparates (hash64 : Text → ℕ) (payloads payloads' : List Text) : Prop where
  injective : ∀ p ∈ payloads ++ payloads', ∀ q ∈ payloads ++ payloads', hash64 p = hash64 q → p = q
  sums : (payloads.map hash64).sum = (payloads'.map hash64).sum →
    (payloads.map hash64).Perm (payloads'.map hash64)

/-- Two sides with equal sums of hashes have the same payloads. -/
theorem HashSeparates.mem_iff {hash64 : Text → ℕ} {payloads payloads' : List Text}
    (h : HashSeparates hash64 payloads payloads')
    (hsum : (payloads.map hash64).sum = (payloads'.map hash64).sum) {p : Text} :
  p ∈ payloads ↔ p ∈ payloads'
  := by
  have hhash : ∀ n, n ∈ payloads.map hash64 ↔ n ∈ payloads'.map hash64 :=
    fun n => (h.sums hsum).mem_iff
  constructor
  · intro hp
    obtain ⟨q, hq, heq⟩ := List.mem_map.mp ((hhash _).mp (List.mem_map_of_mem hp))
    rw [← h.injective q (List.mem_append_right _ hq) p (List.mem_append_left _ hp) heq]
    apply hq
  · intro hp
    obtain ⟨q, hq, heq⟩ := List.mem_map.mp ((hhash _).mpr (List.mem_map_of_mem hp))
    rw [← h.injective q (List.mem_append_left _ hq) p (List.mem_append_right _ hp) heq]
    apply hq

/-- A fingerprint the database computes is that of the rows it would return. -/
def PushdownFaithful (reader : DatabaseCompareReader) : Prop :=
  ∀ segment fingerprint, reader.db.pushdown segment = .ok (some fingerprint) →
    reader.clientFingerprint segment = .ok fingerprint

/-- Skipping is sound for a configuration and two types of integers: where a comparison runs
by segments, two sides with the same fingerprint in a segment hold the same rows in it, keys
included, and no row of it is reported as different. -/
def SkipSound (config : CompareConfig) (lib : Builtins) (type type' : NumberType) : Prop :=
  singleIntegerKey config.key = true →
  ∀ (source target : Database) (sourceReader targetReader : DatabaseCompareReader)
    (segment : CompareSegment) (fingerprint : SegmentFingerprint) (payloads payloads' : List Text),
    source.integersAs = type → target.integersAs = type' →
    config.sourceReader lib source = .ok sourceReader →
    config.targetReader lib target = .ok targetReader →
    PushdownFaithful sourceReader → PushdownFaithful targetReader →
    sourceReader.segmentFingerprint segment = .ok fingerprint →
    targetReader.segmentFingerprint segment = .ok fingerprint →
    sourceReader.segmentPayloads segment = .ok payloads →
    targetReader.segmentPayloads segment = .ok payloads' →
    HashSeparates lib.hash64 payloads payloads' →
    ∃ sourceRows targetRows,
      sourceReader.fetchRows (some segment) = .ok sourceRows
        ∧ targetReader.fetchRows (some segment) = .ok targetRows
        ∧ SamePkRows sourceRows targetRows
        ∧ ∀ events,
          rowLevelDiff sourceReader.segments targetReader.segments segment = .ok events →
          ∀ event ∈ events, event.bucket = .same

/-- Rows of two sides that have a key and the same payload have the same identity. -/
def PayloadsSeparate (config : CompareConfig) (lib : Builtins) (type type' : NumberType) : Prop :=
  ∀ column ∈ config.key, ∀ (row row' : DbRow) (k k' : ℤ) (identity identity' : Identity),
    row column.name = .integer k → row' (config.targetName column.name) = .integer k' →
    config.identity lib (fun n => n) type row = .ok identity →
    config.identity lib config.targetName type' row' = .ok identity' →
    payloadOf config.rules identity = payloadOf config.rules identity' → identity = identity'

/-- A separator that does not start with a digit keeps different rows apart. -/
theorem payloadsSeparate_of_fieldSeparator {config : CompareConfig} (lib : Builtins)
    (type type' : NumberType) {c : Char} {tail : Text}
    (hseparator : config.rules.fieldSeparator = c :: tail) (hc : c.isDigit = false) :
  PayloadsSeparate config lib type type'
  := by
  intro column _ row row' k k' identity identity' _ _ h h' hpayload
  apply payloadOf_inj hseparator hc _ hpayload
  rw [← (identity_ok h).length_eq, ← (identity_ok h').length_eq]

instance : ReflBEq Cell where
  rfl := by
    intro cell
    cases cell with
    | raw value => apply BEq.refl value
    | normal b s => apply decide_eq_true ⟨rfl, rfl⟩

/-- Normalised values compare equal when they are equal. -/
theorem normal_beq_iff {identity identity' : Identity} :
  (identity.map (fun p => Cell.normal p.1 p.2) == identity'.map (fun p => Cell.normal p.1 p.2))
      = true
    ↔ identity = identity'
  := by
  constructor
  · intro h
    induction identity generalizing identity' with
    | nil =>
        cases identity' with
        | nil => rfl
        | cons q rest' => cases h
    | cons p rest ih =>
        cases identity' with
        | nil => cases h
        | cons q rest' =>
            rw [List.map_cons, List.map_cons, List.cons_beq_cons, Bool.and_eq_true] at h
            obtain ⟨hfst, hsnd⟩ := of_decide_eq_true h.1
            rw [ih h.2, Prod.ext hfst hsnd]
  · intro h
    rw [h]
    apply BEq.rfl

/-- A segment with a fingerprint returns its rows, and the fingerprint is that of the rows. -/
theorem fetchRows_of_segmentFingerprint {reader : DatabaseCompareReader}
    (hfaithful : PushdownFaithful reader) {segment : CompareSegment}
    {fingerprint : SegmentFingerprint} (h : reader.segmentFingerprint segment = .ok fingerprint) :
  ∃ rows, reader.fetchRows (some segment) = .ok rows
    ∧ fingerprint.aggregateHash = (rows.map (fun row => row.rowHash64.getD 0)).sum
  := by
  have hclient : reader.clientFingerprint segment = .ok fingerprint := by
    unfold DatabaseCompareReader.segmentFingerprint at h
    split at h
    · cases h
    · rename_i found hpushdown
      obtain rfl := Except.ok.inj h
      apply hfaithful segment found hpushdown
    · apply h
  obtain ⟨rows, hrows, heq⟩ := Outcome.bind_eq_ok.mp hclient
  refine ⟨rows, hrows, ?_⟩
  rw [← Outcome.pure_eq_ok.mp heq]

/-- A row of a segment has an integer as its key. -/
theorem exists_key_of_mem_rowsIn {db : Database} {name : String} {segment : CompareSegment}
    {row : DbRow} (h : row ∈ db.rowsIn name segment) :
  ∃ k, row name = .integer k
  := by
  have hin := (List.mem_filter.mp h).2
  cases hvalue : row name with
  | null =>
      rw [hvalue] at hin
      cases hin
  | integer k => exact ⟨k, rfl⟩
  | other value =>
      rw [hvalue] at hin
      cases hin

/-- The hashes of rows with their identities. -/
theorem map_rowHash64 {reader : DatabaseCompareReader} (identified : List (DbRow × Identity)) :
  (identified.map (fun p => reader.comparedRow p.1 p.2)).map (fun row => row.rowHash64.getD 0)
    = (identified.map (fun p => payloadOf reader.rules p.2)).map reader.lib.hash64
  := by
  rw [List.map_map, List.map_map]
  rfl

/-- When the key is compared, both drivers return keys of comparable types, and payloads keep
different rows apart, skipping is sound. -/
theorem skipSound_of_keyHashed {config : CompareConfig} {lib : Builtins} {type type' : NumberType}
    (hhashed : ∀ column ∈ config.key, column.name ∉ config.rules.ignoreColumns)
    (htypes : type = .str ↔ type' = .str) (hseparate : PayloadsSeparate config lib type type') :
  SkipSound config lib type type'
  := by
  intro hsingle source target sr tr segment fingerprint payloads payloads' htype htype' hsr htr
    hfaithful hfaithful' hsf htf hpayloads hpayloads' hhash
  obtain ⟨column, hcolumn, hkey, hinteger⟩ := exists_key_of_singleIntegerKey hsingle
  have hmem : column ∈ config.key := by
    rw [hkey]
    apply List.mem_singleton_self
  have hcompared : column ∈ config.compareColumns :=
    List.mem_filter.mpr ⟨hcolumn, decide_eq_true (hhashed column hmem)⟩
  have hside := readsSide_of_reader hkey ((sourceReader_eq config lib source).symm.trans hsr)
  have hside' := readsSide_of_reader hkey ((targetReader_eq config lib target).symm.trans htr)
  obtain ⟨rows, hrows, hsum⟩ := fetchRows_of_segmentFingerprint hfaithful hsf
  obtain ⟨rows', hrows', hsum'⟩ := fetchRows_of_segmentFingerprint hfaithful' htf
  obtain ⟨identified, hfst, hall, rfl⟩ := sr.fetchRows_ok hside.shaped hrows
  obtain ⟨identified', hfst', hall', rfl⟩ := tr.fetchRows_ok hside'.shaped hrows'
  obtain rfl := Except.ok.inj (hpayloads.symm.trans (sr.segmentPayloads_ok hfst hall))
  obtain rfl := Except.ok.inj (hpayloads'.symm.trans (tr.segmentPayloads_ok hfst' hall'))
  rw [map_rowHash64, hside.lib_eq] at hsum
  rw [map_rowHash64, hside'.lib_eq] at hsum'
  have hmem_iff := fun p => hhash.mem_iff (hsum.symm.trans hsum') (p := p)
  -- rows with equal payloads agree in key and values
  have hagree : ∀ p ∈ identified, ∀ q ∈ identified',
      payloadOf sr.rules p.2 = payloadOf tr.rules q.2 →
      ((sr.comparedRow p.1 p.2).pk == (tr.comparedRow q.1 q.2).pk) = true
        ∧ rowsEquivalent (sr.comparedRow p.1 p.2) (tr.comparedRow q.1 q.2) = true := by
    intro p hp q hq hpq
    have hselected : p.1 ∈ source.rowsIn column.name segment := by
      rw [← hside.selected, ← hfst]
      apply List.mem_map_of_mem hp
    have hselected' : q.1 ∈ target.rowsIn (config.targetName column.name) segment := by
      rw [← hside'.selected, ← hfst']
      apply List.mem_map_of_mem hq
    obtain ⟨k, hk⟩ := exists_key_of_mem_rowsIn hselected
    obtain ⟨k', hk'⟩ := exists_key_of_mem_rowsIn hselected'
    have hidentity := (hside.identity p.1).symm.trans (hall p hp)
    have hidentity' := (hside'.identity q.1).symm.trans (hall' q hq)
    rw [htype] at hidentity
    rw [htype'] at hidentity'
    rw [hside.rules_eq, hside'.rules_eq] at hpq
    have hsame := hseparate column hmem p.1 q.1 k k' p.2 q.2 hk hk' hidentity hidentity' hpq
    rw [← hsame] at hidentity'
    have hkk := key_eq_of_identity hcompared hinteger hk hk' hidentity hidentity'
    constructor
    · rw [hside.pk, hside'.pk, hk, hk', htype, htype', List.cons_beq_cons]
      simp only [NumberType.fetch, Bool.and_eq_true]
      exact ⟨(render_beq_iff type type' k k').mpr ⟨hkk, htypes⟩, rfl⟩
    · rw [← hsame]
      apply normal_beq_iff.mpr rfl
  have hrowsSame : SamePkRows (identified.map (fun p => sr.comparedRow p.1 p.2))
      (identified'.map (fun p => tr.comparedRow p.1 p.2)) := by
    constructor
    · intro row hrow
      obtain ⟨p, hp, rfl⟩ := List.mem_map.mp hrow
      obtain ⟨q, hq, heq⟩ := List.mem_map.mp ((hmem_iff _).mp (List.mem_map_of_mem hp))
      exact ⟨_, List.mem_map_of_mem hq, hagree p hp q hq heq.symm⟩
    · intro row hrow
      obtain ⟨q, hq, rfl⟩ := List.mem_map.mp hrow
      obtain ⟨p, hp, heq⟩ := List.mem_map.mp ((hmem_iff _).mpr (List.mem_map_of_mem hq))
      exact ⟨_, List.mem_map_of_mem hp, hagree p hp q hq heq⟩
  refine ⟨_, _, hrows, hrows', hrowsSame, ?_⟩
  intro events hevents
  have hs : sr.segments.fetchRows segment = .ok _ := hrows
  have ht : tr.segments.fetchRows segment = .ok _ := hrows'
  apply same_of_samePkRows hs ht hrowsSame hevents

/-! ### When skipping is not sound -/

/-- A table with one row. -/
def oneRow (type : NumberType) (row : DbRow) : Database where
  rows := [row]
  integersAs := type

theorem rowsIn_oneRow {type : NumberType} {row : DbRow} {name : String} {k : ℤ}
    (hrow : row name = .integer k) {segment : CompareSegment} (hk : segment.Holds k) :
  (oneRow type row).rowsIn name segment = [row]
  := by
  apply List.filter_eq_self.mpr
  intro r hr
  obtain rfl := List.mem_singleton.mp hr
  rw [hrow]
  apply decide_eq_true hk

/-- What a segment that holds the only row of a table returns. -/
theorem oneRow_segment {config : CompareConfig} {lib : Builtins} {name : String → String}
    {type : NumberType} {row : DbRow} {column : CompareColumn} {reader : DatabaseCompareReader}
    {k : ℤ} {identity : Identity} {segment : CompareSegment}
    (hside : ReadsSide config lib name (oneRow type row) column reader)
    (hrow : row (name column.name) = .integer k) (hk : segment.Holds k)
    (hidentity : config.identity lib name type row = .ok identity) :
  reader.fetchRows (some segment) = .ok [reader.comparedRow row identity]
    ∧ reader.segmentFingerprint segment
      = .ok ⟨1, lib.hash64 (payloadOf config.rules identity)⟩
    ∧ reader.segmentPayloads segment = .ok [payloadOf config.rules identity]
    ∧ PushdownFaithful reader
  := by
  have hselected : reader.selected (some segment) = [row] := by
    rw [hside.selected, rowsIn_oneRow hrow hk]
  have hreads : reader.rowIdentity row = .ok identity := (hside.identity row).trans hidentity
  have hpushdown : ∀ segment, reader.db.pushdown segment = .ok none := by
    intro segment
    rw [hside.db_eq]
    rfl
  have hfetch : reader.fetchRows (some segment) = .ok [reader.comparedRow row identity] := by
    rw [DatabaseCompareReader.fetchRows, hselected]
    apply Outcome.mapM_eq_ok.mpr
    refine .cons ?_ .nil
    rw [DatabaseCompareReader.rowToCompare_eq hside.shaped, hreads]
    rfl
  refine ⟨hfetch, ?_, ?_, ?_⟩
  · unfold DatabaseCompareReader.segmentFingerprint
    rw [hpushdown]
    simp only [DatabaseCompareReader.clientFingerprint, hfetch]
    rw [← hside.lib_eq, ← hside.rules_eq]
    rfl
  · rw [← hside.rules_eq]
    have hall : ∀ p ∈ [(row, identity)], reader.rowIdentity p.1 = .ok p.2 := by
      intro p hp
      obtain rfl := List.mem_singleton.mp hp
      apply hreads
    have hfst : [(row, identity)].map Prod.fst = reader.selected (some segment) := hselected.symm
    apply DatabaseCompareReader.segmentPayloads_ok hfst hall
  · intro segment fingerprint hfound
    rw [hpushdown] at hfound
    cases hfound

/-- When skipping is sound, rows with a key and the same payload have the same key and the
same identity. -/
theorem SkipSound.agree {config : CompareConfig} {lib : Builtins} {type type' : NumberType}
    (h : SkipSound config lib type type') {column : CompareColumn} (hkey : config.key = [column])
    (hinteger : column.type = .integer) {row row' : DbRow} {k k' : ℤ}
    {identity identity' : Identity} (hrow : row column.name = .integer k)
    (hrow' : row' (config.targetName column.name) = .integer k')
    (hidentity : config.identity lib (fun n => n) type row = .ok identity)
    (hidentity' : config.identity lib config.targetName type' row' = .ok identity')
    (hpayload : payloadOf config.rules identity = payloadOf config.rules identity') :
  (type.render k == type'.render k') = true ∧ identity = identity'
  := by
  have hsingle : singleIntegerKey config.key = true := by
    rw [hkey]
    apply decide_eq_true hinteger
  obtain ⟨sr, hsr⟩ := exists_reader config lib (fun n => n) (oneRow type row)
  obtain ⟨tr, htr⟩ := exists_reader config lib config.targetName (oneRow type' row')
  have hside := readsSide_of_reader hkey hsr
  have hside' := readsSide_of_reader hkey htr
  let segment : CompareSegment :=
    ⟨column.name, min k k', max k k' + 1, by omega⟩
  have hholds : segment.Holds k := ⟨min_le_left _ _, Int.lt_add_one_of_le (le_max_left _ _)⟩
  have hholds' : segment.Holds k' := ⟨min_le_right _ _, Int.lt_add_one_of_le (le_max_right _ _)⟩
  obtain ⟨hfetch, hfp, hpayloads, hfaithful⟩ := oneRow_segment hside hrow hholds hidentity
  obtain ⟨hfetch', hfp', hpayloads', hfaithful'⟩ :=
    oneRow_segment hside' hrow' hholds' hidentity'
  rw [← hpayload] at hfp' hpayloads'
  have hseparates : HashSeparates lib.hash64 [payloadOf config.rules identity]
      [payloadOf config.rules identity] := by
    constructor
    · intro p hp q hq _
      simp only [List.cons_append, List.nil_append, List.mem_cons, List.not_mem_nil, or_false,
        or_self] at hp hq
      rw [hp, hq]
    · intro _
      apply List.Perm.refl
  obtain ⟨rows, rows', hrows, hrows', hsame, -⟩ := h hsingle _ _ sr tr segment _ _ _ rfl rfl hsr
    htr hfaithful hfaithful' hfp hfp' hpayloads hpayloads' hseparates
  obtain rfl := Except.ok.inj (hfetch.symm.trans hrows)
  obtain rfl := Except.ok.inj (hfetch'.symm.trans hrows')
  obtain ⟨other, hother, hpk, hvalues⟩ := hsame.1 _ (List.mem_singleton_self _)
  obtain rfl := List.mem_singleton.mp hother
  constructor
  · rw [hside.pk, hside'.pk, hrow, hrow', List.cons_beq_cons, Bool.and_eq_true] at hpk
    apply hpk.1
  · apply normal_beq_iff.mp hvalues

/-- The integer `1` is normalised without an error, and alike in every type. -/
theorem exists_normalizeValue_one (lib : Builtins) (column : CompareColumn) (rules : CompareRules) :
  ∃ normalized, ∀ type : NumberType,
    normalizeValue lib column (type.fetch (.integer 1)) rules = .ok normalized
  := by
  have hne : ∀ type : NumberType, type.fetch (.integer 1) ≠ .none := by
    intro type
    cases type with
    | int => simp [NumberType.fetch, NumberType.render]
    | decimal => simp [NumberType.fetch, NumberType.render]
    | str => simp [NumberType.fetch, NumberType.render]
  have htext : ∀ type : NumberType, (type.fetch (.integer 1)).text = ['1'] :=
    fun type => text_render type 1
  have hdecimal : ∀ type : NumberType,
      normalizeDecimal (type.fetch (.integer 1)) rules.numericScale
        = .ok (fixedText false (10 ^ rules.numericScale) rules.numericScale) := by
    intro type
    have hlt : ¬ 10 ^ decimalPrecision ≤ (1 : ℤ).natAbs * 10 ^ rules.numericScale := by
      rw [Int.natAbs_one, one_mul, not_le]
      apply Nat.pow_lt_pow_right (by decide)
      apply lt_of_le_of_lt rules.numericScale_le (by decide)
    apply (normalizeDecimal_integer (text_render type 1) _).trans
    rw [if_neg hlt, Int.natAbs_one, one_mul]
    rfl
  have htruthy : ∀ type : NumberType, truthy lib (type.fetch (.integer 1)) = true := by
    intro type
    cases type with
    | int => rfl
    | decimal => rfl
    | str =>
        have hlower : lib.lower ['1'] = ['1'] := lib.lower_ascii ['1'] (by decide)
        show ["1", "true", "t", "yes", "y"].any
          (fun word => decide (lib.lower ['1'] = word.toList)) = true
        rw [hlower]
        rfl
  have hother : ∀ type : NumberType, normalizeDate (type.fetch (.integer 1)) = ['1']
      ∧ normalizeTime (type.fetch (.integer 1)) rules.timestampPrecision = ['1']
      ∧ normalizeDatetime (type.fetch (.integer 1)) rules.timestampPrecision = ['1'] := by
    intro type
    cases type with
    | int => exact ⟨rfl, rfl, rfl⟩
    | decimal => exact ⟨rfl, rfl, rfl⟩
    | str => exact ⟨rfl, rfl, rfl⟩
  simp only [normalizeValue, if_neg (hne _)]
  cases column.type with
  | integer => exact ⟨_, fun type => by rw [hdecimal]; rfl⟩
  | decimal => exact ⟨_, fun type => by rw [hdecimal]; rfl⟩
  | float => exact ⟨_, fun type => by rw [hdecimal]; rfl⟩
  | boolean => exact ⟨_, fun type => by rw [htruthy, if_pos rfl]⟩
  | date => exact ⟨_, fun type => by rw [(hother type).1]⟩
  | time => exact ⟨_, fun type => by rw [(hother type).2.1]⟩
  | datetime => exact ⟨_, fun type => by rw [(hother type).2.2]⟩
  | string => exact ⟨_, fun type => by rw [normalizeText, htext]⟩
  | bytes => exact ⟨_, fun type => by rw [normalizeText, htext]⟩
  | json => exact ⟨_, fun type => by rw [normalizeText, htext]⟩
  | unknown => exact ⟨_, fun type => by rw [normalizeText, htext]⟩

/-- Rows that hold only missing values and the integer `1`, in the same columns, have the same
identity in every type. -/
theorem exists_common_identity (config : CompareConfig) (lib : Builtins)
    (name name' : String → String) (row row' : DbRow)
    (h : ∀ column ∈ config.compareColumns,
      row (name column.name) = row' (name' column.name)
        ∧ (row' (name' column.name) = .null ∨ row' (name' column.name) = .integer 1))
    (type type' : NumberType) :
  ∃ identity, config.identity lib name type row = .ok identity
    ∧ config.identity lib name' type' row' = .ok identity
  := by
  have hcommon : ∀ column ∈ config.compareColumns, ∃ normalized, ∀ t : NumberType,
      normalizeValue lib column (t.fetch (row' (name' column.name))) config.rules
        = .ok normalized := by
    intro column hcolumn
    obtain hnull | hone := (h column hcolumn).2
    · rw [hnull]
      use none
      intro t
      apply if_pos rfl
    · rw [hone]
      apply exists_normalizeValue_one
  obtain ⟨values, hvalues⟩ := Outcome.exists_mapM (l := config.compareColumns)
    (fun column hcolumn => (hcommon column hcolumn).imp (fun _ hn => hn type'))
  have hsource : config.compareColumns.mapM (fun column =>
      normalizeValue lib column (type.fetch (row (name column.name))) config.rules)
      = .ok values := by
    rw [← hvalues]
    apply Outcome.mapM_congr
    intro column hcolumn
    obtain ⟨normalized, hn⟩ := hcommon column hcolumn
    rw [(h column hcolumn).1, hn type, hn type']
  use values.map (identityOf config.rules)
  rw [identity_eq_mapM, identity_eq_mapM, hsource, hvalues]
  exact ⟨rfl, rfl⟩

/-- A row with the integer `1` in one column and missing values in the others. -/
def onlyColumn (name : String) : DbRow := fun n => if n = name then .integer 1 else .null

theorem onlyColumn_cases (name n : String) :
  onlyColumn name n = .null ∨ onlyColumn name n = .integer 1
  := by
  rw [onlyColumn]
  split
  · right
    rfl
  · left
    rfl

/-- A configuration that ignores its key column. -/
def ignoredKeyConfig : CompareConfig where
  columns := [{ name := "id", type := .integer }, { name := "v", type := .string }]
  rules :=
    { keyColumns := ["id"], ignoreColumns := ["id"]
      numericScale_le := defaultNumericScale_le
      timestampPrecision_le := defaultTimestampPrecision_le }
  keyColumns_ne := by decide
  compareColumns_ne := by decide

end Compare

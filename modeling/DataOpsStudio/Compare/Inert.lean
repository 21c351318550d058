import DataOpsStudio.Compare.Leaks

/-!
# Ignored columns do not interfere

Ignored columns do not interfere exactly when no key column is ignored and no ignored column holds
numbers, or the keys decide all that is compared.  Where this fails, there are rows that show it:
values that compare equal and are written differently.
-/

namespace Compare

open Text

/-! ### Values with different texts -/

/-- A value is normalised by its text alone, which starts with a digit and has no blank. -/
structure Spelled (value : PyValue) (c : Char) : Prop where
  ne_none : value ≠ .none
  date : normalizeDate value = value.text.take 10
  time : ∀ precision, normalizeTime value precision = trimFraction value.text precision
  datetime : ∀ precision, normalizeDatetime value precision
    = trimFraction (value.text.map (fun c => if c = 'T' then ' ' else c)) precision
  head : ∃ rest, value.text = c :: rest
  digit : c.isDigit = true
  plain : ∀ d ∈ value.text, d.toNat < 128 ∧ d ≠ ' '

/-- The first digit of a text stays where it is. -/
theorem trimFraction_digit {c : Char} (hc : c.isDigit = true) (rest : Text) (precision : ℕ) :
  ∃ tail, trimFraction (c :: rest) precision = c :: tail
  := by
  have hpoint : (c != '.') = true := by
    rw [bne_iff_ne]
    rintro rfl
    cases hc
  rw [trimFraction]
  split
  · exact ⟨_, rfl⟩
  · rw [List.takeWhile_cons_of_pos (p := fun c => c != '.') hpoint]
    simp only []
    split
    · exact ⟨_, rfl⟩
    · exact ⟨_, rfl⟩

section Values

variable {lib : Builtins} {rules : CompareRules} {column : CompareColumn}

variable (lib rules) in
/-- The first digit of a value is the first character of what it is normalised to. -/
theorem Spelled.normalized {value : PyValue} {c : Char} (h : Spelled value c)
    (hnumeric : column.type.numeric = false) (hboolean : column.type ≠ .boolean) :
  ∃ tail, normalizeValue lib column value rules = .ok (some (c :: tail))
  := by
  obtain ⟨rest, htext⟩ := h.head
  have hplain := h.plain
  rw [htext] at hplain
  have hletter : (if c = 'T' then ' ' else c) = c := by
    apply if_neg
    rintro rfl
    cases h.digit
  have hnormal : ∃ tail, normalizeText lib rules value = some (c :: tail) := by
    have htrim : stripBy (fun c => c == ' ') (c :: rest) = c :: rest := by
      apply stripBy_of_forall
      intro d hd
      simpa using (hplain d hd).2
    have hlower : lib.lower (c :: rest) = c :: rest.map Char.toLower := by
      rw [lib.lower_ascii _ (fun d hd => (hplain d hd).1), List.map_cons,
        toLower_of_isDigit h.digit]
    obtain ⟨tail, htail⟩ : ∃ tail,
        (if rules.caseInsensitive then lib.lower (c :: rest) else c :: rest) = c :: tail := by
      split
      · exact ⟨_, hlower⟩
      · exact ⟨_, rfl⟩
    use tail
    rw [normalizeText, htext]
    simp only [htrim, ite_self, htail]
    simp
  rw [normalizeValue, if_neg h.ne_none]
  cases htype : column.type with
  | integer | decimal | float =>
      rw [htype] at hnumeric
      cases hnumeric
  | boolean => exact absurd htype hboolean
  | date =>
      rw [h.date, htext]
      exact ⟨_, rfl⟩
  | time =>
      obtain ⟨tail, htail⟩ := trimFraction_digit h.digit rest rules.timestampPrecision
      rw [h.time, htext, htail]
      exact ⟨_, rfl⟩
  | datetime =>
      obtain ⟨tail, htail⟩ := trimFraction_digit h.digit
        (rest.map (fun c => if c = 'T' then ' ' else c)) rules.timestampPrecision
      rw [h.datetime, htext, List.map_cons, hletter, htail]
      exact ⟨_, rfl⟩
  | _ =>
      obtain ⟨tail, htail⟩ := hnormal
      rw [htail]
      exact ⟨_, rfl⟩

/-- Values that start with different digits have different entries. -/
theorem entry_ne_of_spelled {value value' : PyValue} {c c' : Char} (h : Spelled value c)
    (h' : Spelled value' c') (hne : c ≠ c') (hnumeric : column.type.numeric = false)
    (hboolean : column.type ≠ .boolean) :
  entry lib rules column value ≠ entry lib rules column value'
  := by
  obtain ⟨tail, htail⟩ := h.normalized lib rules hnumeric hboolean
  obtain ⟨tail', htail'⟩ := h'.normalized lib rules hnumeric hboolean
  rw [entry, entry, htail, htail']
  intro heq
  apply hne
  apply (List.cons.inj (Prod.mk.inj heq).2).1

end Values

/-! ### Values that compare equal -/

/-- A small number as a float, which is written with an exponent. -/
def smallFloat : PyValue := .float (1 / 16384) "6.103515625e-05".toList

/-- The same number as a decimal number, which is written with leading zeros. -/
def smallDecimal : PyValue := .decimal ⟨false, 6103515625, -14⟩

theorem spelled_str {s rest : Text} {c : Char} (hs : s = c :: rest) (hdigit : c.isDigit = true)
    (hplain : ∀ d ∈ s, d.toNat < 128 ∧ d ≠ ' ') :
  Spelled (.str s) c
  := by
  refine ⟨by simp, rfl, fun _ => rfl, fun _ => rfl, ⟨rest, hs⟩, hdigit, hplain⟩

theorem spelled_smallFloat :
  Spelled smallFloat '6'
  := by
  refine ⟨by simp [smallFloat], rfl, fun _ => rfl, fun _ => rfl, ⟨_, rfl⟩, rfl, ?_⟩
  decide

theorem spelled_smallDecimal :
  Spelled smallDecimal '0'
  := by
  refine ⟨by simp [smallDecimal], rfl, fun _ => rfl, fun _ => rfl,
    ⟨".00006103515625".toList, ?_⟩, rfl, ?_⟩
  · rfl
  · decide

/-- Two numbers that compare equal and are normalised to different numbers at a scale: the text of
a float has no more than seventeen digits. -/
def roundedFloat (scale : ℕ) : PyValue :=
  if scale ≤ 9 then .float (2 ^ 60) "1.152921504606847e+18".toList
  else .float (1234567809999999962747097015380859375 / 10 ^ 29) "12345678.1".toList

/-- The number with all its digits. -/
def exactNumber (scale : ℕ) : PyValue :=
  if scale ≤ 9 then .int (2 ^ 60)
  else .decimal ⟨false, 1234567809999999962747097015380859375, -29⟩

theorem roundedFloat_beq (scale : ℕ) :
  (roundedFloat scale == exactNumber scale) = true
  := by
  rw [roundedFloat, exactNumber]
  split
  · rfl
  · decide +kernel

theorem normalizeDecimal_roundedFloat :
  ∀ scale ≤ 18, (normalizeDecimal (roundedFloat scale) scale).toOption.isSome = true
    ∧ (normalizeDecimal (exactNumber scale) scale).toOption.isSome = true
    ∧ (normalizeDecimal (roundedFloat scale) scale).toOption
      ≠ (normalizeDecimal (exactNumber scale) scale).toOption
  := by
  decide

theorem normalizeDecimal_small :
  ∀ scale ≤ 18, (normalizeDecimal smallFloat scale).toOption.isSome = true
    ∧ (normalizeDecimal smallDecimal scale).toOption.isSome = true
  := by
  decide

section Values

variable {lib : Builtins} {rules : CompareRules} {column : CompareColumn}

/-- The entry of a number. -/
theorem entry_numeric (hnumeric : column.type.numeric = true) {value : PyValue}
    (hvalue : value ≠ .none) {text : Text}
    (htext : normalizeDecimal value rules.numericScale = .ok text) :
  entry lib rules column value = (false, text)
  := by
  rw [entry, normalizeValue, if_neg hvalue]
  cases htype : column.type with
  | integer | decimal | float =>
      rw [htext]
      rfl
  | _ =>
      rw [htype] at hnumeric
      cases hnumeric

/-- The entry of a truth value. -/
theorem entry_boolean (hboolean : column.type = .boolean) {value : PyValue}
    (hvalue : value ≠ .none) :
  entry lib rules column value = (false, if truthy lib value then ['1'] else ['0'])
  := by
  rw [entry, normalizeValue, if_neg hvalue, hboolean]
  rfl

theorem entry_roundedFloat_ne (hnumeric : column.type.numeric = true) :
  entry lib rules column (roundedFloat rules.numericScale)
    ≠ entry lib rules column (exactNumber rules.numericScale)
  := by
  obtain ⟨h, h', hne⟩ := normalizeDecimal_roundedFloat _ rules.numericScale_le
  obtain ⟨text, htext⟩ := Outcome.exists_of_isSome h
  obtain ⟨text', htext'⟩ := Outcome.exists_of_isSome h'
  have hfloat : roundedFloat rules.numericScale ≠ .none := by
    rw [roundedFloat]
    split
    · simp
    · simp
  have hexact : exactNumber rules.numericScale ≠ .none := by
    rw [exactNumber]
    split
    · simp
    · simp
  rw [entry_numeric hnumeric hfloat htext, entry_numeric hnumeric hexact htext']
  intro heq
  apply hne
  rw [htext, htext', (Prod.mk.inj heq).2]

theorem normalizeDecimal_one :
  ∀ scale ≤ 18, (normalizeDecimal (.int 1) scale).toOption.isSome = true
    ∧ (normalizeDecimal (.str "1".toList) scale).toOption.isSome = true
    ∧ (normalizeDecimal (.str "01".toList) scale).toOption
      = (normalizeDecimal (.str "1".toList) scale).toOption
  := by
  decide

theorem spelled_one :
  Spelled (.int 1) '1'
  := by
  refine ⟨by simp, rfl, fun _ => rfl, fun _ => rfl, ⟨[], rfl⟩, rfl, ?_⟩
  decide

/-- The integer `1` is not normalised like a missing value. -/
theorem entry_none_ne_one :
  entry lib rules column .none ≠ entry lib rules column (.int 1)
  := by
  have hone : (entry lib rules column (.int 1)).1 = false := by
    cases hnumeric : column.type.numeric with
    | true =>
        obtain ⟨text, htext⟩ :=
          Outcome.exists_of_isSome (normalizeDecimal_one _ rules.numericScale_le).1
        rw [entry_numeric hnumeric (by simp) htext]
    | false =>
        by_cases hboolean : column.type = .boolean
        · rw [entry_boolean hboolean (by simp)]
        · obtain ⟨tail, htail⟩ := spelled_one.normalized lib rules hnumeric hboolean
          rw [entry, htail]
          rfl
  intro heq
  rw [← heq] at hone
  cases hone

/-- The texts `1` and `01` are the same number, and are normalised differently in a column that
holds no numbers. -/
theorem entry_texts_ne (hnumeric : column.type.numeric = false) :
  entry lib rules column (.str "1".toList) ≠ entry lib rules column (.str "01".toList)
  := by
  by_cases hboolean : column.type = .boolean
  · have hone : truthy lib (.str "1".toList) = true := by
      have hlower : lib.lower ['1'] = ['1'] := lib.lower_ascii ['1'] (by decide)
      show ["1", "true", "t", "yes", "y"].any
        (fun word => decide (lib.lower ['1'] = word.toList)) = true
      rw [hlower]
      rfl
    have hother : truthy lib (.str "01".toList) = false := by
      have hlower : lib.lower ['0', '1'] = ['0', '1'] := lib.lower_ascii ['0', '1'] (by decide)
      show ["1", "true", "t", "yes", "y"].any
        (fun word => decide (lib.lower ['0', '1'] = word.toList)) = false
      rw [hlower]
      rfl
    rw [entry_boolean hboolean (by simp), entry_boolean hboolean (by simp), hone, hother]
    decide
  · apply entry_ne_of_spelled (spelled_str rfl rfl (by decide)) (spelled_str rfl rfl (by decide))
      _ hnumeric hboolean
    decide

end Values

namespace CompareConfig

variable {config : CompareConfig} {lib : Builtins}

/-! ### Ignored keys -/

/-- A written key tells the value of every key column. -/
theorem get?_valuesDict {columns : List CompareColumn} {column : CompareColumn}
    (h : column ∈ columns) (record : String → PyValue) :
  (valuesDict columns (columns.map (fun c => record c.name))).get? column.name
    = some (record column.name)
  := by
  have hitems : (columns.map CompareColumn.name).zip (columns.map (fun c => record c.name))
      = columns.map (fun c => (c.name, record c.name)) := by
    apply List.zip_map'
  rw [valuesDict, hitems]
  obtain ⟨value, hvalue⟩ : ∃ value,
      (Dict.ofList (columns.map (fun c => (c.name, record c.name)))).get? column.name
        = some value := by
    apply Dict.exists_get?_ofList
    rw [List.map_map]
    exact List.mem_map.mpr ⟨column, h, rfl⟩
  obtain ⟨c, -, hc⟩ := List.mem_map.mp (Dict.mem_of_get?_ofList hvalue)
  obtain ⟨hname, rfl⟩ := Prod.mk.inj hc
  rw [hvalue, hname]

theorem not_inert_of_ignoredKey {keyColumn : CompareColumn} (hkey : keyColumn ∈ config.key)
    (hignored : keyColumn.name ∈ config.rules.ignoreColumns) :
  ¬ config.Inert lib
  := by
  intro hinert
  have hreads : ∀ (record : String → PyValue), (∀ n, record n = .none ∨ record n = .int 1) →
      ∀ column : CompareColumn,
        ∃ normalized, normalizeValue lib column (record column.name) config.rules
          = .ok normalized := by
    intro record hrecord column
    rcases hrecord column.name with h | h
    · rw [h]
      exact ⟨none, rfl⟩
    · rw [h]
      apply exists_normalizeValue_of_decimal
        (normalizeDecimal_one _ config.rules.numericScale_le).1
  have hrun : ∀ (record : String → PyValue), (∀ n, record n = .none ∨ record n = .int 1) →
      ∃ counts,
        (executeCompareRun lib config {} (.rows [record] (fun _ => false))
            (.rows [] (fun _ => false))).map CompareReport.decided
          = .ok (counts, [(.onlySource,
              valuesDict config.key (config.key.map (fun c => record c.name)), [])]) := by
    intro record hrecord
    obtain ⟨identity, hidentity⟩ : ∃ identity,
        config.recordIdentity lib record = .ok identity :=
      ⟨_, recordIdentity_eq_ok.mpr ⟨fun c _ => hreads record hrecord c, rfl⟩⟩
    have hmatch : matchKey lib config.key config.rules (config.identifiedRow lib record identity)
        = .ok _ :=
      normalizedCompareIdentity_map.mpr ⟨fun c _ => hreads record hrecord c, rfl⟩
    rw [executeCompareRun_decided,
      compareEvents_left (recordRow_eq_ok.mpr ⟨_, hidentity, rfl⟩) hmatch]
    exact ⟨_, rfl⟩
  have hnone : ∀ n, (fun _ : String => PyValue.none) n = .none
      ∨ (fun _ : String => PyValue.none) n = .int 1 := fun _ => .inl rfl
  have hone : ∀ n, Function.update (fun _ : String => PyValue.none) keyColumn.name (.int 1) n
        = .none
      ∨ Function.update (fun _ : String => PyValue.none) keyColumn.name (.int 1) n = .int 1 := by
    intro n
    by_cases hn : n = keyColumn.name
    · right
      rw [hn, Function.update_self]
    · left
      rw [Function.update_of_ne hn]
  have hside : config.SameSide (fun n => n) (.rows [fun _ => .none] (fun _ => false))
      (.rows [Function.update (fun _ => .none) keyColumn.name (.int 1)] (fun _ => false)) :=
    .rows _ (.cons (sameOutside_update hignored _ _) .nil)
  obtain ⟨counts, hfirst⟩ := hrun _ hnone
  obtain ⟨counts', hsecond⟩ := hrun _ hone
  have hdecided := hinert.decided {} _ _ _ _ hside
    (sameSide_refl config.targetName (.rows [] (fun _ => false)))
  rw [hfirst, hsecond] at hdecided
  have hrows := (Prod.mk.inj (Option.some.inj hdecided)).2
  have hpk := (Prod.mk.inj (Prod.mk.inj (List.cons.inj hrows).1).2).1
  have hvalue := congrArg (fun d => d.get? keyColumn.name) hpk
  rw [get?_valuesDict hkey (fun _ => .none), get?_valuesDict hkey, Function.update_self] at hvalue
  cases Option.some.inj hvalue

/-! ### The exact condition -/

/-- When no key column is ignored and an ignored column holds numbers, ignored columns do not
interfere only if the keys decide all that is compared. -/
theorem keysDecide_of_inert (hkey : config.KeyKept) {ignored : CompareColumn}
    (hmem : ignored ∈ config.columns) (hignored : ignored.name ∈ config.rules.ignoreColumns)
    (hnumeric : ignored.type.numeric = true) (hinert : config.Inert lib) :
  config.KeysDecide
  := by
  have hscale := config.rules.numericScale_le
  have hreads : ∀ {value : PyValue},
      (normalizeDecimal value config.rules.numericScale).toOption.isSome = true →
      ∀ column, ∃ normalized, normalizeValue lib column value config.rules = .ok normalized :=
    exists_normalizeValue_of_decimal
  have hkeyed : ∀ column ∈ config.compareColumns,
      ∃ keyColumn ∈ config.key, keyColumn.name = column.name := by
    -- a value that is missing on one side only, under equal keys
    intro column hcolumn
    by_contra hnot
    apply not_inert_of_rows
      (fun n => if n ∈ config.key.map CompareColumn.name then .int 1 else .none) (.int 1)
      hkey hmem hignored hnumeric _ _ _ hinert
    · intro c
      refine ⟨?_, hreads (normalizeDecimal_one _ hscale).1 c⟩
      split
      · apply hreads (normalizeDecimal_one _ hscale).1
      · exact ⟨none, rfl⟩
    · refine ⟨column, hcolumn, ?_⟩
      rw [if_neg]
      · apply entry_none_ne_one
      · intro h
        apply hnot
        apply List.mem_map.mp h
    · intro c hc
      rw [if_pos (List.mem_map_of_mem hc)]
  use hkeyed
  by_contra htyped
  push Not at htyped
  obtain ⟨⟨column, hcolumn, hboolean⟩, hnumbers⟩ := htyped
  cases hsingle : singleIntegerKey config.key with
  | true =>
      -- a number that is written in two ways, in a column that is compared as a text
      obtain ⟨other, hother, htype⟩ := hnumbers hsingle
      obtain ⟨single, -, hsingleKey, hinteger⟩ := exists_key_of_singleIntegerKey hsingle
      obtain ⟨-, hone, hsame⟩ := normalizeDecimal_one _ hscale
      have hzero : (normalizeDecimal (.str "01".toList) config.rules.numericScale).toOption.isSome
          = true := by
        rw [hsame]
        apply hone
      apply not_inert_of_rows (fun _ => .str "1".toList) (.str "01".toList) hkey hmem hignored
        hnumeric _ _ _ hinert
      · intro c
        exact ⟨hreads hone c, hreads hzero c⟩
      · exact ⟨other, hother, entry_texts_ne (by simpa using htype)⟩
      · intro c hc
        obtain rfl : c = single := by
          rw [hsingleKey] at hc
          apply List.mem_singleton.mp hc
        have hc : c.type.numeric = true := by
          rw [hinteger]
          rfl
        obtain ⟨text, htext⟩ := Outcome.exists_of_isSome hone
        obtain ⟨text', htext'⟩ := Outcome.exists_of_isSome hzero
        rw [entry_numeric hc (by simp) htext, entry_numeric hc (by simp) htext']
        rw [htext, htext'] at hsame
        rw [Option.some.inj hsame]
  | false =>
      cases htype : column.type.numeric with
      | false =>
          -- a small number that two types write in two ways
          obtain ⟨hfloat, hdecimal⟩ := normalizeDecimal_small _ hscale
          apply not_inert_of_tables (fun _ => smallFloat) smallDecimal hkey hmem hignored hnumeric
            _ _ hsingle _ hinert
          · intro c
            exact ⟨hreads hfloat c, hreads hdecimal c⟩
          · exact ⟨column, hcolumn, entry_ne_of_spelled spelled_smallFloat spelled_smallDecimal
              (by decide) htype hboolean⟩
          · intro c _
            decide +kernel
      | true =>
          -- a number that a float does not write with all its digits
          obtain ⟨hfloat, hexact, -⟩ := normalizeDecimal_roundedFloat _ hscale
          apply not_inert_of_tables (fun _ => roundedFloat config.rules.numericScale)
            (exactNumber config.rules.numericScale) hkey hmem hignored hnumeric _ _ hsingle _ hinert
          · intro c
            exact ⟨hreads hfloat c, hreads hexact c⟩
          · exact ⟨column, hcolumn, entry_roundedFloat_ne htype⟩
          · intro c _
            apply roundedFloat_beq

/-- Ignored columns do not interfere exactly when no key column is ignored, and no ignored column
holds numbers or the keys decide all that is compared. -/
theorem inert_iff (config : CompareConfig) (lib : Builtins) :
  config.Inert lib ↔ config.KeyKept ∧ (config.IgnoredReadable ∨ config.KeysDecide)
  := by
  constructor
  · intro hinert
    have hkey : config.KeyKept := by
      intro column hcolumn hignored
      apply not_inert_of_ignoredKey hcolumn hignored hinert
    use hkey
    by_cases hreadable : config.IgnoredReadable
    · left
      apply hreadable
    · right
      rw [IgnoredReadable] at hreadable
      push Not at hreadable
      obtain ⟨ignored, hmem, hignored, hnumeric⟩ := hreadable
      apply keysDecide_of_inert hkey hmem hignored (by simpa using hnumeric) hinert
  · rintro ⟨hkey, h⟩
    apply inert_of_keyKept hkey h

end CompareConfig

/-! ### A number that is ignored -/

/-- A configuration with a key, a text that is compared and a number that is ignored. -/
def ignoredNumberConfig : CompareConfig where
  columns := [{ name := "id", type := .integer }, { name := "v", type := .string },
    { name := "x", type := .decimal }]
  rules :=
    { keyColumns := ["id"], ignoreColumns := ["x"]
      numericScale_le := defaultNumericScale_le
      timestampPrecision_le := defaultTimestampPrecision_le }
  keyColumns_ne := by decide
  compareColumns_ne := by decide

/-- A record with the key `1`. -/
def ignoredNumberRecord (v x : String) (n : String) : PyValue :=
  if n = "id" then .int 1 else if n = "v" then .str v.toList else .str x.toList

/-- A side with one record. -/
def ignoredNumberSide (v x : String) : CompareSide :=
  .rows [ignoredNumberRecord v x] (fun _ => false)

theorem ignoredNumber_events (x : String) :
  ∃ identity identity' pk progress, identity ≠ identity'
    ∧ compareEvents sampleBuiltins ignoredNumberConfig {} (ignoredNumberSide "a" x)
        (ignoredNumberSide "b" "1")
      = .ok ([pairEvent pk
          (ignoredNumberConfig.identifiedRow sampleBuiltins (ignoredNumberRecord "a" x) identity)
          (ignoredNumberConfig.identifiedRow sampleBuiltins (ignoredNumberRecord "b" "1")
            identity')], progress)
  := by
  have hidentity : normalizedCompareIdentity sampleBuiltins ignoredNumberConfig.compareColumns
      [.int 1, .str ['a']] ignoredNumberConfig.rules
        = .ok [(false, "1.000000".toList), (false, ['a'])] := by rfl
  have hidentity' : normalizedCompareIdentity sampleBuiltins ignoredNumberConfig.compareColumns
      [.int 1, .str ['b']] ignoredNumberConfig.rules
        = .ok [(false, "1.000000".toList), (false, ['b'])] := by rfl
  have hmatch : normalizedCompareIdentity sampleBuiltins ignoredNumberConfig.key [.int 1]
      ignoredNumberConfig.rules = .ok [(false, "1.000000".toList)] := by rfl
  have hs : ignoredNumberConfig.recordIdentity sampleBuiltins (ignoredNumberRecord "a" x)
      = .ok [(false, "1.000000".toList), (false, ['a'])] := hidentity
  have ht : ignoredNumberConfig.recordIdentity sampleBuiltins (ignoredNumberRecord "b" "1")
      = .ok [(false, "1.000000".toList), (false, ['b'])] := hidentity'
  have hne : [(false, "1.000000".toList), (false, ['a'])]
      ≠ [(false, "1.000000".toList), (false, ['b'])] := by decide
  exact ⟨_, _, _, _, hne, CompareConfig.compareEvents_rows _ _
    (CompareConfig.recordRow_eq_ok.mpr ⟨_, hs, rfl⟩)
    (CompareConfig.recordRow_eq_ok.mpr ⟨_, ht, rfl⟩) hmatch hmatch⟩

/-- Two runs that differ in the ignored number only: one reports a difference, and the other one
raises. -/
theorem not_inert_ignoredNumber :
  ignoredNumberConfig.SameSide (fun n => n) (ignoredNumberSide "a" "1")
      (ignoredNumberSide "a" "abc")
    ∧ ((executeCompareRun sampleBuiltins ignoredNumberConfig {} (ignoredNumberSide "a" "1")
        (ignoredNumberSide "b" "1")).map CompareReport.decided).toOption ≠ none
    ∧ ((executeCompareRun sampleBuiltins ignoredNumberConfig {} (ignoredNumberSide "a" "abc")
        (ignoredNumberSide "b" "1")).map CompareReport.decided).toOption = none
  := by
  refine ⟨.rows _ (.cons ?_ .nil), ?_, ?_⟩
  · intro column hcolumn hkept
    have hnames : ∀ c ∈ ignoredNumberConfig.key ++ ignoredNumberConfig.columns,
        c.name ∉ ignoredNumberConfig.rules.ignoreColumns → c.name = "id" ∨ c.name = "v" := by
      decide
    rcases hnames column hcolumn hkept with hname | hname
    · rw [hname]
      rfl
    · rw [hname]
      rfl
  · obtain ⟨identity, identity', pk, progress, hne, hevents⟩ := ignoredNumber_events "1"
    apply (CompareConfig.exists_decided_iff hevents hne).mpr
    have hreads : ∀ v ∈ ["a", "b"], ∀ column ∈ ignoredNumberConfig.columns,
        (normalizeValue sampleBuiltins column (ignoredNumberRecord v "1" column.name)
          ignoredNumberConfig.rules).toOption.isSome = true := by
      decide
    intro column hcolumn
    exact ⟨Outcome.exists_of_isSome (hreads "a" (by simp) column hcolumn),
      Outcome.exists_of_isSome (hreads "b" (by simp) column hcolumn)⟩
  · obtain ⟨identity, identity', pk, progress, hne, hevents⟩ := ignoredNumber_events "abc"
    by_contra hsome
    have hread := ((CompareConfig.exists_decided_iff hevents hne).mp hsome
      { name := "x", type := .decimal } (by decide)).1
    obtain ⟨normalized, hnormalized⟩ := hread
    have hletters : normalizeValue sampleBuiltins { name := "x", type := .decimal }
        (ignoredNumberRecord "a" "abc" "x") ignoredNumberConfig.rules = .error .invalidOperation :=
      normalizeValue_letters rfl
    cases hletters.symm.trans hnormalized

end Compare

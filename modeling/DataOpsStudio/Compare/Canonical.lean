import DataOpsStudio.Compare.Accounting
import DataOpsStudio.Compare.Agreement

/-!
# Canonical texts

Rows are compared by the texts of their values, and so a text has to say all about a value that
matters and nothing else.  The payload of a row determines its texts.  The text of a number is that
of the rounded number, unless the number is too long or a zero that started below zero.  The text of
a time is the same whether a driver returns the time or a text of it, unless that text leaves out a
fraction of zero.
-/

namespace Compare

open Text

/-! ### Payloads -/

theorem length_normalizedCompareIdentity {lib : Builtins} {columns : List CompareColumn}
    {values : List PyValue} {rules : CompareRules} {identity : Identity}
    (h : normalizedCompareIdentity lib columns values rules = .ok identity) :
  identity.length = columns.length
  := by
  obtain ⟨normalized, hnormalized, rfl⟩ := Outcome.map_eq_ok.mp h
  rw [normalizedValues] at hnormalized
  split at hnormalized
  · cases hnormalized
  · rename_i hlength
    have hsame : columns.length = values.length := not_not.mp hlength
    rw [List.length_map, ← (Outcome.mapM_eq_ok.mp hnormalized).length_eq, List.length_zip, hsame,
      min_self]

/-- Rows of as many columns with the same payload have the same identity. -/
theorem normalizedComparePayload_inj {lib : Builtins} {rules : CompareRules}
    {columns columns' : List CompareColumn} {values values' : List PyValue} {payload : Text}
    (hcolumns : columns.length = columns'.length) (hseparator : rules.fieldSeparator ≠ [])
    (hdigit : rules.fieldSeparator.head?.any Char.isDigit = false)
    (h : normalizedComparePayload lib columns values rules = .ok payload)
    (h' : normalizedComparePayload lib columns' values' rules = .ok payload) :
  normalizedCompareIdentity lib columns values rules
    = normalizedCompareIdentity lib columns' values' rules
  := by
  obtain ⟨c, tail, hcons⟩ := List.exists_cons_of_ne_nil hseparator
  have hc : c.isDigit = false := by
    rw [hcons] at hdigit
    simpa using hdigit
  obtain ⟨identity, hidentity, hpayload⟩ := Outcome.map_eq_ok.mp h
  obtain ⟨identity', hidentity', hpayload'⟩ := Outcome.map_eq_ok.mp h'
  have hlength : identity.length = identity'.length := by
    rw [length_normalizedCompareIdentity hidentity, length_normalizedCompareIdentity hidentity',
      hcolumns]
  rw [hidentity, hidentity', payloadOf_inj hcons hc hlength (hpayload.trans hpayload'.symm)]

/-- A text with the separator inside, and an integer that is shown as a text. -/
theorem normalizedComparePayload_inj_separator :
  normalizedCompareIdentity sampleBuiltins [⟨"a", .string⟩, ⟨"b", .string⟩]
      [.str "1␟1".toList, .int 7] {}
    = normalizedCompareIdentity sampleBuiltins [⟨"a", .json⟩, ⟨"b", .string⟩]
      [.str "1␟1".toList, .str ['7']] {}
  := normalizedComparePayload_inj rfl (by decide) (by decide)
    (show normalizedComparePayload sampleBuiltins _ _ _ = .ok "0␟0␟3␟1␟1␟1␟7".toList by decide)
    (by decide)

/-! ### Numbers -/

/-- The number that an integer, a decimal number or the text of a number stands for, if it is
finite. -/
def PyValue.finiteNumber? : PyValue → Option Decimal
  | .int n => some ⟨decide (n < 0), n.natAbs, 0⟩
  | .decimal d => some d
  | .str s =>
      match parseDecimal? s with
      | some (.finite d) => some d
      | _ => Option.none
  | _ => Option.none

/-- A number at a scale, as the integer next to it; halves are rounded away from zero. -/
def rounded (d : Decimal) (scale : ℕ) : ℤ := roundHalfAway (d.value * 10 ^ scale)

/-- The decimal text of a rounded number. -/
def roundedText (d : Decimal) (scale : ℕ) : Text :=
  fixedText (decide (rounded d scale < 0)) (rounded d scale).natAbs scale

/-- The number of a value is what its text is read as. -/
theorem normalizeDecimal_finite {value : PyValue} {d : Decimal} (h : value.finiteNumber? = some d)
    (scale : ℕ) :
  normalizeDecimal value scale
    = (quantize d scale).map (fun q => fixedText q.negative q.coefficient scale)
  := by
  cases value with
  | int n =>
      obtain rfl := Option.some.inj h
      exact normalizeDecimal_shown rfl scale
  | decimal d' =>
      obtain rfl := Option.some.inj h
      exact normalizeDecimal_shown rfl scale
  | str s =>
      rw [PyValue.finiteNumber?] at h
      split at h
      · rename_i d' hparse
        obtain rfl := Option.some.inj h
        rw [normalizeDecimal, PyValue.text, hparse]
      · cases h
  | none => cases h
  | bool b => cases h
  | float q text => cases h
  | date d' => cases h
  | time t => cases h
  | datetime d' t => cases h

theorem rounded_eq (d : Decimal) (scale : ℕ) :
  rounded d scale = if d.negative then -(rescaled d scale : ℤ) else (rescaled d scale : ℤ)
  := roundHalfAway_value d scale

theorem natAbs_rounded (d : Decimal) (scale : ℕ) :
  (rounded d scale).natAbs = rescaled d scale
  := natAbs_roundHalfAway d scale

/-- A number that is not too long is shown as its sign and its rounded digits, and one that is too
long raises. -/
theorem normalizeDecimal_eq {value : PyValue} {d : Decimal} (h : value.finiteNumber? = some d)
    (scale : ℕ) :
  normalizeDecimal value scale
    = if (rounded d scale).natAbs < 10 ^ decimalPrecision then
        .ok (fixedText d.negative (rounded d scale).natAbs scale)
      else .error .invalidOperation
  := by
  rw [normalizeDecimal_finite h, quantize, natAbs_rounded]
  by_cases hlong : 10 ^ decimalPrecision ≤ rescaled d scale
  · rw [if_pos hlong, if_neg (not_lt.mpr hlong)]
    rfl
  · rw [if_neg hlong, if_pos (not_le.mp hlong)]
    rfl

/-- A number is normalised to the text of the rounded number exactly when that has at most 28 digits
and is not a zero that started below zero.  Two numbers that are rounded to the same one have the
same text exactly when it has at most 28 digits, and neither or both started below zero if it is
zero. -/
theorem normalizeDecimal_rounded_iff {value : PyValue} {d : Decimal}
    (h : value.finiteNumber? = some d) (scale : ℕ) :
  (normalizeDecimal value scale = .ok (roundedText d scale)
      ↔ (rounded d scale).natAbs < 10 ^ decimalPrecision
        ∧ ¬ (d.negative = true ∧ rounded d scale = 0))
    ∧ ∀ (value' : PyValue) (d' : Decimal), value'.finiteNumber? = some d' →
        rounded d scale = rounded d' scale →
        ((∃ text, normalizeDecimal value scale = .ok text ∧ normalizeDecimal value' scale = .ok text)
          ↔ (rounded d scale).natAbs < 10 ^ decimalPrecision
            ∧ (rounded d scale = 0 → d.negative = d'.negative))
  := by
  have hsign : ∀ e : Decimal, rounded e scale ≠ 0 →
      e.negative = decide (rounded e scale < 0) := by
    intro e hne
    rw [rounded_eq] at hne ⊢
    cases e.negative with
    | false => simp
    | true => simp at hne ⊢; omega
  constructor
  · rw [normalizeDecimal_eq h, roundedText]
    by_cases hshort : (rounded d scale).natAbs < 10 ^ decimalPrecision
    · rw [if_pos hshort, Except.ok.injEq]
      constructor
      · intro heq
        use hshort
        rintro ⟨hnegative, hzero⟩
        have hsame := (fixedText_inj heq).1
        rw [hnegative, hzero] at hsame
        cases hsame
      · rintro ⟨-, hnotZero⟩
        by_cases hzero : rounded d scale = 0
        · have hpositive : d.negative = false := by
            rw [← Bool.not_eq_true]
            exact fun hnegative => hnotZero ⟨hnegative, hzero⟩
          rw [hpositive, hzero]
          rfl
        · rw [hsign d hzero]
    · rw [if_neg hshort]
      simp [hshort]
  · intro value' d' h' hsame
    rw [normalizeDecimal_eq h, normalizeDecimal_eq h', ← hsame]
    by_cases hshort : (rounded d scale).natAbs < 10 ^ decimalPrecision
    · rw [if_pos hshort, if_pos hshort]
      simp only [Except.ok.injEq, hshort, true_and]
      constructor
      · rintro ⟨text, htext, htext'⟩ -
        exact (fixedText_inj (htext.trans htext'.symm)).1
      · intro hzero
        have hsigns : d.negative = d'.negative := by
          by_cases hne : rounded d scale = 0
          · exact hzero hne
          · rw [hsign d hne, hsame, ← hsign d' (hsame ▸ hne)]
        exact ⟨_, rfl, by rw [hsigns]⟩
    · rw [if_neg hshort, if_neg hshort]
      simp [hshort]

/-- Half a unit of the last digit is rounded away from zero, below zero too. -/
theorem normalizeDecimal_rounded_half :
  normalizeDecimal (.str "-0.0000005".toList) 6 = .ok "-0.000001".toList
  := by
  have hrounded := (normalizeDecimal_rounded_iff
    (show (PyValue.str "-0.0000005".toList).finiteNumber? = some ⟨true, 5, -7⟩ by rfl)
    6).1.mpr (by decide +kernel)
  have htext : roundedText ⟨true, 5, -7⟩ 6 = "-0.000001".toList := by decide +kernel
  rw [hrounded, htext]

/-- A number just below zero and zero are rounded to the same number and have different texts, and a
long integer has none. -/
theorem not_normalizeDecimal_rounded :
  rounded ⟨true, 1, -7⟩ 6 = rounded ⟨false, 0, 0⟩ 6
    ∧ normalizeDecimal (.decimal ⟨true, 1, -7⟩) 6 = .ok "-0.000000".toList
    ∧ normalizeDecimal (.int 0) 6 = .ok "0.000000".toList
    ∧ normalizeDecimal (.int (10 ^ 22)) 6 = .error .invalidOperation
  := by decide +kernel

/-! ### Times -/

/-- A time of day, with or without its date. -/
inductive Moment where
  | time (t : PyTime)
  | datetime (d : PyDate) (t : PyTime)
deriving DecidableEq

/-- The time of day of a moment. -/
def Moment.clock : Moment → PyTime
  | .time t => t
  | .datetime _ t => t

/-- The value that stands for a moment. -/
def Moment.value : Moment → PyValue
  | .time t => .time t
  | .datetime d t => .datetime d t

/-- A way to write a moment: whether the letter `T` or a blank separates the date from the time, and
the digits of the fraction, if there is one. -/
structure Spelling where
  letter : Bool
  fraction : Option Text

/-- What stands behind the seconds. -/
def Spelling.ending (spelling : Spelling) : Text :=
  match spelling.fraction with
  | none => []
  | some fraction => '.' :: fraction

/-- A spelling is one of a number of microseconds: no fraction for none, and otherwise their six
digits, with zeros added or left out at the end. -/
def Spelling.Spells (spelling : Spelling) (microsecond : ℕ) : Prop :=
  match spelling.fraction with
  | none => microsecond = 0
  | some fraction =>
      ∃ zeros, fraction ++ List.replicate zeros '0' = zeroPad 6 microsecond
        ∨ fraction = zeroPad 6 microsecond ++ List.replicate zeros '0'

/-- The text of a moment. -/
def Moment.spelled (spelling : Spelling) : Moment → Text
  | .time t => t.seconds ++ spelling.ending
  | .datetime d t =>
      d.isoformat ++ (if spelling.letter then 'T' else ' ') :: t.seconds ++ spelling.ending

/-- A moment and its text have the same normalised text in a column of a type. -/
def SameText (rules : CompareRules) (spelling : Spelling) : ColumnType → Moment → Prop
  | .time, .time _ => rules.timestampPrecision = 0 ∨ spelling.fraction.isSome = true
  | .datetime, .datetime _ _ => rules.timestampPrecision = 0 ∨ spelling.fraction.isSome = true
  | .datetime, .time t =>
      rules.timestampPrecision = 0 ∨ (spelling.fraction.isSome = true ↔ t.microsecond ≠ 0)
  | _, _ => False

theorem trimFraction_of_not_mem {base : Text} (h : '.' ∉ base) (precision : ℕ) :
  trimFraction base precision = base
  := if_pos h

theorem trimFraction_point {base fraction : Text} (h : '.' ∉ base) (precision : ℕ) :
  trimFraction (base ++ '.' :: fraction) precision
    = if precision = 0 then base
      else base ++ '.' :: (fraction.take precision
        ++ List.replicate (precision - (fraction.take precision).length) '0')
  := by
  have hpass : ∀ c ∈ base, (c != '.') = true := by
    intro c hc
    rw [bne_iff_ne]
    rintro rfl
    exact h hc
  have htake : (base ++ '.' :: fraction).takeWhile (fun c => c != '.') = base := by
    rw [List.takeWhile_append_of_pos hpass, List.takeWhile_cons_of_neg (by simp), List.append_nil]
  have hdrop : ((base ++ '.' :: fraction).dropWhile (fun c => c != '.')).drop 1 = fraction := by
    rw [List.dropWhile_append_of_pos hpass, List.dropWhile_cons_of_neg (by simp)]
    rfl
  rw [trimFraction, if_neg (by simp), htake, hdrop]
  simp

/-- The kept digits of a fraction are those of the microseconds, however many of them are written. -/
theorem padded_fraction {fraction : Text} {microsecond precision zeros : ℕ}
    (hmicrosecond : microsecond < 10 ^ 6) (hprecision : precision ≤ 6)
    (h : fraction ++ List.replicate zeros '0' = zeroPad 6 microsecond
      ∨ fraction = zeroPad 6 microsecond ++ List.replicate zeros '0') :
  fraction.take precision ++ List.replicate (precision - (fraction.take precision).length) '0'
    = (zeroPad 6 microsecond).take precision
  := by
  have hlength : (zeroPad 6 microsecond).length = 6 := length_zeroPad (by norm_num) hmicrosecond
  rcases h with h | rfl
  · have hsum : fraction.length + zeros = 6 := by
      rw [← hlength, ← h, List.length_append, List.length_replicate]
    have hpad : precision - (fraction.take precision).length
        = min (precision - fraction.length) zeros := by
      rw [List.length_take]
      omega
    rw [← h, List.take_append, List.take_replicate, hpad]
  · have hle : precision ≤ (zeroPad 6 microsecond).length := by
      rw [hlength]
      exact hprecision
    rw [List.take_append_of_le_length hle, List.length_take, min_eq_left hle, Nat.sub_self]
    exact List.append_nil _

/-- A text of a time is normalised as the time is when it has a fraction, and kept otherwise. -/
theorem trimFraction_spelled {base : Text} {spelling : Spelling} {microsecond precision : ℕ}
    (hbase : '.' ∉ base) (hmicrosecond : microsecond < 10 ^ 6) (hprecision : precision ≤ 6)
    (hspells : spelling.Spells microsecond) :
  trimFraction (base ++ spelling.ending) precision
    = if spelling.fraction.isSome then appendFraction base microsecond precision else base
  := by
  rw [Spelling.Spells] at hspells
  rw [Spelling.ending]
  cases hfraction : spelling.fraction with
  | none =>
      rw [List.append_nil]
      exact trimFraction_of_not_mem hbase precision
  | some fraction =>
      rw [hfraction] at hspells
      obtain ⟨zeros, hzeros⟩ := hspells
      rw [trimFraction_point hbase, padded_fraction hmicrosecond hprecision hzeros]
      simp only [Option.isSome_some, if_true, appendFraction]
      split
      · rfl
      · rw [Nat.add_assoc, List.take_length_add_append, Nat.add_comm 1, List.take_succ_cons]

theorem appendFraction_eq_self_iff {base : Text} {microsecond precision : ℕ} :
  appendFraction base microsecond precision = base ↔ precision = 0
  := by
  rw [appendFraction]
  split
  · rename_i hzero
    simp [hzero]
  · rename_i hne
    rw [Nat.add_assoc, List.take_length_add_append, Nat.add_comm 1, List.take_succ_cons]
    simp [hne]

theorem mem_seconds {t : PyTime} {c : Char} (h : c ∈ t.seconds) :
  c = ':' ∨ c.isDigit = true
  := by
  rw [PyTime.seconds] at h
  simp only [List.mem_append, List.mem_cons] at h
  rcases h with (h | rfl | h) | rfl | h
  · exact .inr (isDigit_of_mem_zeroPad h)
  · exact .inl rfl
  · exact .inr (isDigit_of_mem_zeroPad h)
  · exact .inl rfl
  · exact .inr (isDigit_of_mem_zeroPad h)

theorem mem_isoformat {d : PyDate} {c : Char} (h : c ∈ d.isoformat) :
  c = '-' ∨ c.isDigit = true
  := by
  rw [PyDate.isoformat] at h
  simp only [List.mem_append, List.mem_cons] at h
  rcases h with (h | rfl | h) | rfl | h
  · exact .inr (isDigit_of_mem_zeroPad h)
  · exact .inl rfl
  · exact .inr (isDigit_of_mem_zeroPad h)
  · exact .inl rfl
  · exact .inr (isDigit_of_mem_zeroPad h)

theorem mem_ending {spelling : Spelling} {microsecond : ℕ} {c : Char}
    (hspells : spelling.Spells microsecond) (h : c ∈ spelling.ending) :
  c = '.' ∨ c.isDigit = true
  := by
  rw [Spelling.Spells] at hspells
  rw [Spelling.ending] at h
  cases hfraction : spelling.fraction with
  | none =>
      rw [hfraction] at h
      cases h
  | some fraction =>
      rw [hfraction] at h hspells
      obtain ⟨zeros, hzeros⟩ := hspells
      rcases List.mem_cons.mp h with rfl | hmem
      · exact .inl rfl
      · right
        rcases hzeros with hzeros | rfl
        · have hdigits : c ∈ zeroPad 6 microsecond := hzeros ▸ List.mem_append_left _ hmem
          exact isDigit_of_mem_zeroPad hdigits
        · rcases List.mem_append.mp hmem with hmem | hmem
          · exact isDigit_of_mem_zeroPad hmem
          · rw [List.eq_of_mem_replicate hmem]
            rfl

/-- A text without the letter `T` is kept as it is. -/
theorem map_letter_of_not_mem {s : Text} (h : 'T' ∉ s) :
  s.map (fun c => if c = 'T' then ' ' else c) = s
  := by
  have hsame : ∀ c ∈ s, (if c = 'T' then ' ' else c) = id c := by
    intro c hc
    have hne : c ≠ 'T' := by
      rintro rfl
      exact h hc
    rw [if_neg hne]
    rfl
  rw [List.map_congr_left hsame, List.map_id]

theorem not_mem_seconds {t : PyTime} {c : Char} (hcolon : c ≠ ':') (hdigit : c.isDigit = false) :
  c ∉ t.seconds
  := by
  intro h
  rcases mem_seconds h with rfl | h
  · exact hcolon rfl
  · rw [hdigit] at h
    cases h

theorem not_mem_isoformat {d : PyDate} {c : Char} (hdash : c ≠ '-') (hdigit : c.isDigit = false) :
  c ∉ d.isoformat
  := by
  intro h
  rcases mem_isoformat h with rfl | h
  · exact hdash rfl
  · rw [hdigit] at h
    cases h

theorem not_mem_ending {spelling : Spelling} {microsecond : ℕ} {c : Char}
    (hspells : spelling.Spells microsecond) (hpoint : c ≠ '.') (hdigit : c.isDigit = false) :
  c ∉ spelling.ending
  := by
  intro h
  rcases mem_ending hspells h with rfl | h
  · exact hpoint rfl
  · rw [hdigit] at h
    cases h

/-- A time is written with a fraction exactly when it has microseconds. -/
def PyTime.spelling (t : PyTime) : Spelling :=
  ⟨false, if t.microsecond = 0 then none else some (zeroPad 6 t.microsecond)⟩

theorem PyTime.isoformat_eq (t : PyTime) :
  t.isoformat = t.seconds ++ t.spelling.ending
  := by
  rw [PyTime.isoformat, PyTime.spelling, Spelling.ending]
  split
  · rw [List.append_nil]
  · rfl

theorem PyTime.spells (t : PyTime) :
  t.spelling.Spells t.microsecond
  := by
  by_cases hzero : t.microsecond = 0
  · rw [PyTime.spelling, if_pos hzero]
    exact hzero
  · rw [PyTime.spelling, if_neg hzero]
    exact ⟨0, .inl (List.append_nil _)⟩

/-- A time and a text of it are normalised alike in a column of times. -/
theorem normalizeTime_spelled {t : PyTime} {spelling : Spelling} {precision : ℕ}
    (hmicrosecond : t.microsecond < 10 ^ 6) (hprecision : precision ≤ 6)
    (hspells : spelling.Spells t.microsecond) :
  normalizeTime (.time t) precision = normalizeTime (.str (t.seconds ++ spelling.ending)) precision
    ↔ precision = 0 ∨ spelling.fraction.isSome = true
  := by
  have htext : normalizeTime (.str (t.seconds ++ spelling.ending)) precision
      = trimFraction (t.seconds ++ spelling.ending) precision := rfl
  rw [htext, trimFraction_spelled (not_mem_seconds (by decide) (by decide)) hmicrosecond hprecision
    hspells, normalizeTime]
  cases spelling.fraction with
  | none => simpa using appendFraction_eq_self_iff
  | some fraction => simp

/-- A time with its date and a text of it are normalised alike in a column of such times. -/
theorem normalizeDatetime_spelled {d : PyDate} {t : PyTime} {spelling : Spelling} {precision : ℕ}
    (hmicrosecond : t.microsecond < 10 ^ 6) (hprecision : precision ≤ 6)
    (hspells : spelling.Spells t.microsecond) :
  normalizeDatetime (.datetime d t) precision
      = normalizeDatetime (.str ((Moment.datetime d t).spelled spelling)) precision
    ↔ precision = 0 ∨ spelling.fraction.isSome = true
  := by
  have hletter : ((Moment.datetime d t).spelled spelling).map (fun c => if c = 'T' then ' ' else c)
      = (d.isoformat ++ ' ' :: t.seconds) ++ spelling.ending := by
    rw [Moment.spelled, List.map_append, List.map_append,
      map_letter_of_not_mem (not_mem_ending hspells (by decide) (by decide)),
      map_letter_of_not_mem (not_mem_isoformat (by decide) (by decide)), List.map_cons,
      map_letter_of_not_mem (not_mem_seconds (by decide) (by decide))]
    cases spelling.letter with
    | false => rfl
    | true => rfl
  have htext : normalizeDatetime (.str ((Moment.datetime d t).spelled spelling)) precision
      = trimFraction ((d.isoformat ++ ' ' :: t.seconds) ++ spelling.ending) precision := by
    rw [← hletter]
    rfl
  have hbase : '.' ∉ d.isoformat ++ ' ' :: t.seconds := by
    rw [List.mem_append, List.mem_cons]
    rintro (h | h | h)
    · exact not_mem_isoformat (by decide) (by decide) h
    · cases h
    · exact not_mem_seconds (by decide) (by decide) h
  rw [htext, trimFraction_spelled hbase hmicrosecond hprecision hspells, normalizeDatetime]
  cases spelling.fraction with
  | none => simpa using appendFraction_eq_self_iff
  | some fraction => simp

/-- In a column of times with their dates a time is normalised as its own text is. -/
theorem normalizeDatetime_time_spelled {t : PyTime} {spelling : Spelling} {precision : ℕ}
    (hmicrosecond : t.microsecond < 10 ^ 6) (hprecision : precision ≤ 6)
    (hspells : spelling.Spells t.microsecond) :
  normalizeDatetime (.time t) precision
      = normalizeDatetime (.str (t.seconds ++ spelling.ending)) precision
    ↔ precision = 0 ∨ (spelling.fraction.isSome = true ↔ t.microsecond ≠ 0)
  := by
  have hletter : ∀ s : Spelling, s.Spells t.microsecond →
      (t.seconds ++ s.ending).map (fun c => if c = 'T' then ' ' else c) = t.seconds ++ s.ending := by
    intro s hs
    apply map_letter_of_not_mem
    rw [List.mem_append]
    rintro (h | h)
    · exact not_mem_seconds (by decide) (by decide) h
    · exact not_mem_ending hs (by decide) (by decide) h
  have hbase : '.' ∉ t.seconds := not_mem_seconds (by decide) (by decide)
  have htext : normalizeDatetime (.str (t.seconds ++ spelling.ending)) precision
      = if spelling.fraction.isSome then appendFraction t.seconds t.microsecond precision
        else t.seconds := by
    rw [← trimFraction_spelled hbase hmicrosecond hprecision hspells]
    exact congrArg (trimFraction · precision) (hletter spelling hspells)
  have hvalue : normalizeDatetime (.time t) precision
      = if t.spelling.fraction.isSome then appendFraction t.seconds t.microsecond precision
        else t.seconds := by
    rw [← trimFraction_spelled hbase hmicrosecond hprecision t.spells, ← hletter _ t.spells,
      ← t.isoformat_eq]
    rfl
  have hfraction : t.spelling.fraction.isSome = true ↔ t.microsecond ≠ 0 := by
    rw [PyTime.spelling]
    by_cases hzero : t.microsecond = 0
    · simp [hzero]
    · simp [hzero]
  rw [htext, hvalue, ← hfraction]
  cases spelling.fraction.isSome with
  | false =>
      cases t.spelling.fraction.isSome with
      | false => simp
      | true => simpa using appendFraction_eq_self_iff
  | true =>
      cases t.spelling.fraction.isSome with
      | false =>
          have hself : appendFraction t.seconds t.microsecond precision = t.seconds ↔ _ :=
            appendFraction_eq_self_iff
          simpa [eq_comm] using hself
      | true => simp

/-- In a column of times without their dates a text keeps its date. -/
theorem normalizeTime_datetime_spelled {d : PyDate} {t : PyTime} {spelling : Spelling}
    {precision : ℕ} (hmicrosecond : t.microsecond < 10 ^ 6) (hprecision : precision ≤ 6)
    (hspells : spelling.Spells t.microsecond) :
  normalizeTime (.datetime d t) precision
    ≠ normalizeTime (.str ((Moment.datetime d t).spelled spelling)) precision
  := by
  generalize hbase : d.isoformat ++ (if spelling.letter then 'T' else ' ') :: t.seconds = base
  have hpoint : '.' ∉ base := by
    rw [← hbase, List.mem_append, List.mem_cons]
    rintro (h | h | h)
    · exact not_mem_isoformat (by decide) (by decide) h
    · split at h <;> cases h
    · exact not_mem_seconds (by decide) (by decide) h
  have htext : normalizeTime (.str ((Moment.datetime d t).spelled spelling)) precision
      = if spelling.fraction.isSome then appendFraction base t.microsecond precision else base := by
    rw [← trimFraction_spelled hpoint hmicrosecond hprecision hspells, ← hbase]
    rfl
  have hdash : '-' ∈ base := by
    rw [← hbase, PyDate.isoformat]
    simp
  have hkept : ∀ front : Text, '-' ∈ front → '-' ∈ appendFraction front t.microsecond precision := by
    intro front hfront
    rw [appendFraction]
    split
    · exact hfront
    · rw [Nat.add_assoc, List.take_length_add_append]
      exact List.mem_append_left _ hfront
  have hmem : '-' ∈ normalizeTime (.str ((Moment.datetime d t).spelled spelling)) precision := by
    rw [htext]
    split
    · exact hkept base hdash
    · exact hdash
  intro h
  rw [← h, normalizeTime, appendFraction] at hmem
  split at hmem
  · exact not_mem_seconds (by decide) (by decide) hmem
  · rcases List.mem_append.mp (List.mem_of_mem_take hmem) with hmem | hmem
    · exact not_mem_seconds (by decide) (by decide) hmem
    · rcases List.mem_cons.mp hmem with hmem | hmem
      · cases hmem
      · cases isDigit_of_mem_zeroPad hmem

/-- A time and any text of it, in a column of times with or without their dates, are normalised
alike exactly when no digits of the fraction are kept or the text has a fraction.  Where the column
does not fit the value, a time is normalised as the text that the interpreter gives it, and a date
in a text is kept. -/
theorem normalizeValue_spelled_iff (lib : Builtins) (rules : CompareRules) (name : String)
    {type : ColumnType} (htype : type = .time ∨ type = .datetime) {moment : Moment}
    (hmoment : moment.clock.Valid) {spelling : Spelling}
    (hspells : spelling.Spells moment.clock.microsecond) :
  normalizeValue lib ⟨name, type⟩ moment.value rules
      = normalizeValue lib ⟨name, type⟩ (.str (moment.spelled spelling)) rules
    ↔ SameText rules spelling type moment
  := by
  have hmicrosecond := hmoment.2.2.2
  have hprecision := rules.timestampPrecision_le
  rcases htype with rfl | rfl
  · cases moment with
    | time t =>
        simp only [normalizeValue, Moment.value, Moment.spelled, reduceCtorEq, if_false,
          Except.ok.injEq, Option.some.injEq]
        exact normalizeTime_spelled hmicrosecond hprecision hspells
    | datetime d t =>
        simp only [normalizeValue, Moment.value, reduceCtorEq, if_false, Except.ok.injEq,
          Option.some.injEq, SameText, iff_false]
        exact normalizeTime_datetime_spelled hmicrosecond hprecision hspells
  · cases moment with
    | time t =>
        simp only [normalizeValue, Moment.value, Moment.spelled, reduceCtorEq, if_false,
          Except.ok.injEq, Option.some.injEq]
        exact normalizeDatetime_time_spelled hmicrosecond hprecision hspells
    | datetime d t =>
        simp only [normalizeValue, Moment.value, reduceCtorEq, if_false, Except.ok.injEq,
          Option.some.injEq]
        exact normalizeDatetime_spelled hmicrosecond hprecision hspells

/-- Half a second past ten, and its text with one digit of the fraction. -/
theorem normalizeValue_spelled_half :
  normalizeValue sampleBuiltins ⟨"at", .datetime⟩ (.datetime ⟨2024, 1, 31⟩ ⟨10, 0, 0, 500000⟩) {}
    = normalizeValue sampleBuiltins ⟨"at", .datetime⟩ (.str "2024-01-31T10:00:00.5".toList) {}
  := (normalizeValue_spelled_iff sampleBuiltins {} "at" (.inr rfl)
      (show (Moment.datetime ⟨2024, 1, 31⟩ ⟨10, 0, 0, 500000⟩).clock.Valid by
        exact ⟨by decide, by decide, by decide, by decide⟩)
      (show (⟨true, some ['5']⟩ : Spelling).Spells 500000 from ⟨5, .inl (by decide)⟩)).mpr (.inr rfl)

/-- A text without a fraction is not filled up. -/
theorem not_normalizeValue_spelled :
  normalizeValue sampleBuiltins ⟨"at", .datetime⟩ (.datetime ⟨2024, 1, 31⟩ ⟨10, 0, 0, 0⟩) {}
    ≠ normalizeValue sampleBuiltins ⟨"at", .datetime⟩ (.str "2024-01-31 10:00:00".toList) {}
  := by decide

end Compare

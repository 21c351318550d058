import DataOpsStudio.Compare.Accounting
import DataOpsStudio.Compare.DecimalText
import Mathlib.Tactic.IntervalCases

/-!
# When the database and the client agree

Two programs normalise a column: the client, in its own language, and the database, by the
expression it is sent.  Here is exactly when they give the same text.  They differ on numbers that
are rounded to zero from below, on numbers too long for the client, on numbers whose double is not
the number it shows, on the words and numbers for true, and on times that are rounded up.
-/

namespace Compare

open Text

/-! ### Values of a column type -/

/-- The types whose normalisation can be left to the database. -/
def supportedDbHashTypes : List ColumnType :=
  [.string, .integer, .float, .decimal, .boolean, .datetime, .date, .time]

/-- The fields of a time of day are in range. -/
def PyTime.Valid (t : PyTime) : Prop :=
  t.hour < 24 ∧ t.minute < 60 ∧ t.second < 60 ∧ t.microsecond < 10 ^ 6

/-- The decimal number that a number is shown as. -/
def PyValue.shownDecimal? : PyValue → Option Decimal
  | .int n => some ⟨decide (n < 0), n.natAbs, 0⟩
  | .decimal d => some d
  | .float _ text =>
      match parseDecimal? text with
      | some (.finite d) => some d
      | _ => Option.none
  | _ => Option.none

/-- A value that a column of a type can have.  A missing value is one of every type. -/
def HasType : ColumnType → PyValue → Prop
  | type, .none => type ∈ supportedDbHashTypes
  | .string, .str _ => True
  | .integer, .int _ => True
  | .integer, .decimal _ => True
  | .decimal, .int _ => True
  | .decimal, .decimal _ => True
  | .float, .float q text => (PyValue.float q text).shownDecimal?.isSome
  | .boolean, .bool _ => True
  | .boolean, .int _ => True
  | .boolean, .str _ => True
  | .date, .date _ => True
  | .time, .time t => t.Valid
  | .datetime, .datetime _ t => t.Valid
  | _, _ => False

/-! ### Numbers -/

/-- A number with exact value `q` that is shown as `d`: both are rounded to the same number at the
scale, it has at most as many digits as a decimal operation keeps, and it is not a zero that
started below zero. -/
def NumberAgrees (d : Decimal) (q : ℚ) (scale : ℕ) : Prop :=
  roundHalfAway (q * 10 ^ scale) = roundHalfAway (d.value * 10 ^ scale)
    ∧ (roundHalfAway (d.value * 10 ^ scale)).natAbs < 10 ^ decimalPrecision
    ∧ ¬ (d.negative = true ∧ roundHalfAway (d.value * 10 ^ scale) = 0)

theorem natAbs_roundHalfAway (d : Decimal) (scale : ℕ) :
  (roundHalfAway (d.value * 10 ^ scale)).natAbs = rescaled d scale
  := by
  rw [roundHalfAway_value]
  split
  · rw [Int.natAbs_neg, Int.natAbs_natCast]
  · apply Int.natAbs_natCast

/-- Showing a rounded number rounds it no further. -/
theorem showNumber_round (q : ℚ) (scale : ℕ) :
  showNumber (roundHalfAway (q * 10 ^ scale) / 10 ^ scale) scale = showNumber q scale
  := by
  have hscale : ((10 : ℚ) ^ scale) ≠ 0 := by positivity
  rw [showNumber, div_mul_cancel₀ _ hscale, roundHalfAway_intCast]
  rfl

theorem mem_fixedText {negative : Bool} {coefficient scale : ℕ} {c : Char}
    (h : c ∈ fixedText negative coefficient scale) :
  c = '-' ∨ c = '.' ∨ c.isDigit = true
  := by
  by_cases hpoint : c = '.'
  · right
    left
    apply hpoint
  · have hmem : c ∈ (fixedText negative coefficient scale).filter (fun c => c != '.') := by
      rw [List.mem_filter]
      exact ⟨h, bne_iff_ne.mpr hpoint⟩
    rw [filter_fixedText] at hmem
    rcases List.mem_append.mp hmem with hmem | hmem
    · left
      cases negative with
      | false => cases hmem
      | true => apply List.mem_singleton.mp hmem
    · right
      right
      apply isDigit_of_mem_zeroPad hmem

/-- A number that fits its format is shown as its sign and its digits, and only then. -/
theorem showNumber_eq_fixedText_iff {q : ℚ} {negative : Bool} {coefficient scale : ℕ}
    (hsmall : coefficient < 10 ^ (numberFormatDigits + scale)) :
  showNumber q scale = fixedText negative coefficient scale
    ↔ roundHalfAway (q * 10 ^ scale) = (if negative then -(coefficient : ℤ) else coefficient)
      ∧ ¬ (negative = true ∧ coefficient = 0)
  := by
  rw [showNumber]
  generalize roundHalfAway (q * 10 ^ scale) = c
  constructor
  · intro h
    split at h
    · have hmem : '#' ∈ fixedText negative coefficient scale := by
        rw [← h]
        apply List.mem_replicate.mpr
        exact ⟨by omega, rfl⟩
      rcases mem_fixedText hmem with hmark | hmark | hmark
      · cases hmark
      · cases hmark
      · cases hmark
    · obtain ⟨hsign, hvalue⟩ := fixedText_inj h
      subst hsign hvalue
      constructor
      · split
        · rename_i hneg
          rw [decide_eq_true_eq] at hneg
          omega
        · rename_i hneg
          rw [decide_eq_true_eq] at hneg
          omega
      · rw [decide_eq_true_eq]
        omega
  · rintro ⟨rfl, hzero⟩
    cases negative with
    | false =>
        simp only [Bool.false_eq_true, if_false, Int.natAbs_natCast]
        rw [if_neg (not_le.mpr hsmall), decide_eq_false (by omega)]
    | true =>
        simp only [if_true, Int.natAbs_neg, Int.natAbs_natCast]
        have hpos : coefficient ≠ 0 := fun h => hzero ⟨rfl, h⟩
        rw [if_neg (not_le.mpr hsmall), decide_eq_true (by omega)]

/-- The client's text of a number. -/
theorem normalizeDecimal_shown {value : PyValue} {d : Decimal}
    (h : value.shownDecimal? = some d) (scale : ℕ) :
  normalizeDecimal value scale
    = (quantize d scale).map (fun q => fixedText q.negative q.coefficient scale)
  := by
  have hparse : parseDecimal? value.text = some (.finite d) := by
    cases value with
    | int n =>
        obtain rfl := Option.some.inj h
        apply parseDecimal?_intText
    | decimal d' =>
        obtain rfl := Option.some.inj h
        apply parseDecimal?_text
    | float q text =>
        rw [PyValue.shownDecimal?] at h
        split at h
        · rename_i d' hd'
          obtain rfl := Option.some.inj h
          apply hd'
        · cases h
    | none => cases h
    | bool b => cases h
    | str s => cases h
    | date d' => cases h
    | time t => cases h
    | datetime d' t => cases h
  rw [normalizeDecimal, hparse]

/-- The two texts of a number are the same exactly when the number agrees. -/
theorem normalizeDecimal_eq_iff {value : PyValue} {d : Decimal} {q : ℚ} {scale : ℕ}
    (h : value.shownDecimal? = some d) :
  normalizeDecimal value scale = .ok (showNumber q scale) ↔ NumberAgrees d q scale
  := by
  rw [normalizeDecimal_shown h, quantize, NumberAgrees, natAbs_roundHalfAway]
  by_cases hlong : 10 ^ decimalPrecision ≤ rescaled d scale
  · rw [if_pos hlong]
    constructor
    · intro hok
      cases hok
    · rintro ⟨-, hlt, -⟩
      omega
  · rw [if_neg hlong]
    have hfits : rescaled d scale < 10 ^ (numberFormatDigits + scale) := by
      have hle : 10 ^ decimalPrecision ≤ 10 ^ (numberFormatDigits + scale) :=
        Nat.pow_le_pow_right (by norm_num) (by simp [decimalPrecision, numberFormatDigits]; omega)
      omega
    have hzero : roundHalfAway (d.value * 10 ^ scale) = 0 ↔ rescaled d scale = 0 := by
      rw [← natAbs_roundHalfAway, Int.natAbs_eq_zero]
    have hshow : showNumber q scale = fixedText d.negative (rescaled d scale) scale ↔ _ :=
      showNumber_eq_fixedText_iff hfits
    rw [← roundHalfAway_value] at hshow
    rw [hzero]
    constructor
    · intro hok
      obtain ⟨hround, hne⟩ := hshow.mp (Except.ok.inj hok).symm
      exact ⟨hround, not_le.mp hlong, hne⟩
    · rintro ⟨hround, -, hne⟩
      rw [hshow.mpr ⟨hround, hne⟩]
      rfl

/-! ### Texts of digits -/

theorem digitsValue_append (s t : Text) :
  digitsValue (s ++ t) = digitsValue s * 10 ^ t.length + digitsValue t
  := by
  have hfold : ∀ (t : Text) (n : ℕ), t.foldl (fun n c => 10 * n + (digit? c).getD 0) n
      = n * 10 ^ t.length + digitsValue t := by
    intro t
    induction t with
    | nil =>
        intro n
        simp [digitsValue]
    | cons c t ih =>
        intro n
        rw [digitsValue, List.foldl_cons, List.foldl_cons, ih, ih, List.length_cons]
        ring
  rw [digitsValue, List.foldl_append, hfold]
  rfl

theorem digitsValue_cons {c : Char} {s : Text} (hc : c.isDigit = true) :
  digitsValue (c :: s) = (c.toNat - 48) * 10 ^ s.length + digitsValue s
  := by
  have happend := digitsValue_append [c] s
  have hone : digitsValue [c] = c.toNat - 48 := by
    simp [digitsValue, digit?_of_isDigit hc]
  rw [hone] at happend
  exact happend

theorem digitsValue_lt {s : Text} (h : ∀ c ∈ s, c.isDigit = true) :
  digitsValue s < 10 ^ s.length
  := by
  induction s with
  | nil => decide
  | cons c s ih =>
      have hc := h c List.mem_cons_self
      have hs := ih (fun d hd => h d (List.mem_cons_of_mem _ hd))
      have hdigit : c.toNat - 48 ≤ 9 := by
        have := (isDigit_iff c).mp hc
        omega
      rw [digitsValue_cons hc, List.length_cons, pow_succ]
      calc (c.toNat - 48) * 10 ^ s.length + digitsValue s
          < 9 * 10 ^ s.length + 10 ^ s.length :=
            Nat.add_lt_add_of_le_of_lt (Nat.mul_le_mul_right _ hdigit) hs
        _ = 10 ^ s.length * 10 := by ring

/-- Digits are determined by how many there are and by their number. -/
theorem eq_of_digitsValue_eq {s t : Text} (hs : ∀ c ∈ s, c.isDigit = true)
    (ht : ∀ c ∈ t, c.isDigit = true) (hlength : s.length = t.length)
    (h : digitsValue s = digitsValue t) :
  s = t
  := by
  induction s generalizing t with
  | nil => exact (List.length_eq_zero_iff.mp hlength.symm).symm
  | cons c s ih =>
      obtain ⟨d, t, rfl⟩ := List.exists_cons_of_length_eq_add_one hlength.symm
      have hlength := Nat.succ.inj hlength
      have hc := hs c List.mem_cons_self
      have hd := ht d List.mem_cons_self
      have hs' := fun e he => hs e (List.mem_cons_of_mem _ he)
      have ht' := fun e he => ht e (List.mem_cons_of_mem _ he)
      have hlt := digitsValue_lt hs'
      have hlt' := digitsValue_lt ht'
      rw [digitsValue_cons hc, digitsValue_cons hd, hlength] at h
      rw [hlength] at hlt
      have hhead : c.toNat - 48 = d.toNat - 48 := by
        have hdiv := congrArg (· / 10 ^ t.length) h
        simp only [Nat.mul_comm _ (10 ^ t.length)] at hdiv
        rwa [Nat.mul_add_div (by positivity), Nat.mul_add_div (by positivity),
          Nat.div_eq_of_lt hlt, Nat.div_eq_of_lt hlt'] at hdiv
      have hchar : c = d := by
        have := (isDigit_iff c).mp hc
        have := (isDigit_iff d).mp hd
        apply Char.toNat_inj.mp
        omega
      rw [hchar, ih hs' ht' hlength (by rw [hhead] at h; omega)]

/-- The number of the first digits of a text. -/
theorem digitsValue_take {s : Text} (h : ∀ c ∈ s, c.isDigit = true) (n : ℕ) :
  digitsValue (s.take n) = digitsValue s / 10 ^ (s.length - n)
  := by
  have hsplit := digitsValue_append (s.take n) (s.drop n)
  have hlt := digitsValue_lt (fun c hc => h c (List.mem_of_mem_drop hc) : ∀ c ∈ s.drop n, _)
  rw [List.take_append_drop, List.length_drop] at hsplit
  rw [List.length_drop] at hlt
  rw [hsplit, Nat.mul_comm, Nat.mul_add_div (by positivity), Nat.div_eq_of_lt hlt, Nat.add_zero]

theorem length_natText_le {n width : ℕ} (hwidth : 0 < width) (h : n < 10 ^ width) :
  (natText n).length ≤ width
  := by
  rw [natText]
  exact (Nat.length_toDigits_le_iff (by norm_num) hwidth).mpr h

theorem length_zeroPad {width n : ℕ} (hwidth : 0 < width) (h : n < 10 ^ width) :
  (zeroPad width n).length = width
  := by
  have hle := length_natText_le hwidth h
  rw [zeroPad, List.length_append, List.length_replicate]
  omega

theorem zeroPad_inj {width m n : ℕ} (h : zeroPad width m = zeroPad width n) :
  m = n
  := by
  have hvalue := congrArg digitsValue h
  rwa [digitsValue_zeroPad, digitsValue_zeroPad] at hvalue

/-! ### Times of day -/

/-- The text of a time of day with some digits of the fraction. -/
def PyTime.clockText (t : PyTime) (precision : ℕ) : Text :=
  t.seconds ++ if precision = 0 then [] else '.' :: (zeroPad 6 t.microsecond).take precision

theorem appendFraction_clockText (front : Text) (t : PyTime) (precision : ℕ) :
  appendFraction (front ++ t.seconds) t.microsecond precision = front ++ t.clockText precision
  := by
  rw [appendFraction, PyTime.clockText]
  split
  · rw [List.append_nil]
  · rw [Nat.add_assoc, List.take_length_add_append, Nat.add_comm 1, List.take_succ_cons,
      List.append_assoc]

/-- The units of a precision that have passed since midnight. -/
def PyTime.units (t : PyTime) (precision : ℕ) : ℕ := t.sinceMidnight / precisionUnit precision

/-- The seconds since midnight. -/
def PyTime.wholeSeconds (t : PyTime) : ℕ := (t.hour * 60 + t.minute) * 60 + t.second

theorem PyTime.units_eq (t : PyTime) {precision : ℕ} (hprecision : precision ≤ 6) :
  t.units precision
    = t.wholeSeconds * 10 ^ precision + t.microsecond / precisionUnit precision
  := by
  have hpow : 10 ^ 6 = precisionUnit precision * 10 ^ precision := by
    rw [precisionUnit, ← pow_add, Nat.sub_add_cancel hprecision]
  rw [PyTime.units, PyTime.sinceMidnight, PyTime.wholeSeconds, hpow, Nat.mul_left_comm,
    Nat.mul_add_div (by rw [precisionUnit]; positivity)]

theorem PyTime.length_seconds {t : PyTime} (ht : t.Valid) :
  t.seconds.length = 8
  := by
  obtain ⟨hhour, hminute, hsecond, -⟩ := ht
  have htwo : ∀ n, n < 60 → (zeroPad 2 n).length = 2 := by
    intro n hn
    apply length_zeroPad (by norm_num)
    omega
  simp [PyTime.seconds, htwo _ hminute, htwo _ hsecond, htwo t.hour (by omega)]

theorem PyTime.length_clockText {t : PyTime} (ht : t.Valid) {precision : ℕ}
    (hprecision : precision ≤ 6) :
  (t.clockText precision).length = 8 + if precision = 0 then 0 else precision + 1
  := by
  rw [PyTime.clockText, List.length_append, PyTime.length_seconds ht]
  split
  · rfl
  · rw [List.length_cons, List.length_take, length_zeroPad (by norm_num) ht.2.2.2]
    omega

theorem PyTime.seconds_inj {t t' : PyTime} (ht : t.Valid) (ht' : t'.Valid) :
  t.seconds = t'.seconds ↔ t.wholeSeconds = t'.wholeSeconds
  := by
  obtain ⟨hhour, hminute, hsecond, -⟩ := ht
  obtain ⟨hhour', hminute', hsecond', -⟩ := ht'
  have htwo : ∀ n, n < 60 → (zeroPad 2 n).length = 2 := by
    intro n hn
    apply length_zeroPad (by norm_num)
    omega
  constructor
  · intro h
    rw [PyTime.seconds, PyTime.seconds, List.append_assoc, List.append_assoc] at h
    obtain ⟨hh, h⟩ := List.append_inj h
      ((htwo t.hour (by omega)).trans (htwo t'.hour (by omega)).symm)
    obtain ⟨hm, h⟩ := List.append_inj (List.tail_eq_of_cons_eq h)
      ((htwo _ hminute).trans (htwo _ hminute').symm)
    rw [PyTime.wholeSeconds, PyTime.wholeSeconds, zeroPad_inj hh, zeroPad_inj hm,
      zeroPad_inj (List.tail_eq_of_cons_eq h)]
  · intro h
    rw [PyTime.wholeSeconds, PyTime.wholeSeconds] at h
    have hs : t.second = t'.second := by omega
    have hm : t.minute = t'.minute := by omega
    have hh : t.hour = t'.hour := by omega
    rw [PyTime.seconds, PyTime.seconds, hs, hm, hh]

theorem take_zeroPad_inj {m n precision : ℕ} (hm : m < 10 ^ 6) (hn : n < 10 ^ 6) :
  (zeroPad 6 m).take precision = (zeroPad 6 n).take precision
    ↔ m / precisionUnit precision = n / precisionUnit precision
  := by
  have hvalue : ∀ k, k < 10 ^ 6 →
      digitsValue ((zeroPad 6 k).take precision) = k / precisionUnit precision := by
    intro k hk
    rw [digitsValue_take (fun c hc => isDigit_of_mem_zeroPad hc), digitsValue_zeroPad,
      length_zeroPad (by norm_num) hk, precisionUnit]
  constructor
  · intro h
    rw [← hvalue m hm, ← hvalue n hn, h]
  · intro h
    apply eq_of_digitsValue_eq
    · intro c hc
      apply isDigit_of_mem_zeroPad (List.mem_of_mem_take hc)
    · intro c hc
      apply isDigit_of_mem_zeroPad (List.mem_of_mem_take hc)
    · rw [List.length_take, List.length_take, length_zeroPad (by norm_num) hm,
        length_zeroPad (by norm_num) hn]
    · rw [hvalue m hm, hvalue n hn, h]

/-- The text of a time shows the units that have passed, and nothing else. -/
theorem PyTime.clockText_inj {t t' : PyTime} (ht : t.Valid) (ht' : t'.Valid) {precision : ℕ}
    (hprecision : precision ≤ 6) :
  t.clockText precision = t'.clockText precision ↔ t.units precision = t'.units precision
  := by
  have hfraction : ∀ r : PyTime, r.Valid → r.microsecond / precisionUnit precision < 10 ^ precision := by
    intro r hr
    apply Nat.div_lt_of_lt_mul
    rw [precisionUnit, ← pow_add, Nat.sub_add_cancel hprecision]
    apply hr.2.2.2
  have hunits : t.units precision = t'.units precision
      ↔ t.wholeSeconds = t'.wholeSeconds
        ∧ t.microsecond / precisionUnit precision = t'.microsecond / precisionUnit precision := by
    rw [t.units_eq hprecision, t'.units_eq hprecision]
    have hlt := hfraction t ht
    have hlt' := hfraction t' ht'
    constructor
    · intro h
      have hdiv := congrArg (· / 10 ^ precision) h
      simp only [Nat.mul_comm _ (10 ^ precision)] at hdiv
      rw [Nat.mul_add_div (by positivity), Nat.mul_add_div (by positivity),
        Nat.div_eq_of_lt hlt, Nat.div_eq_of_lt hlt', Nat.add_zero, Nat.add_zero] at hdiv
      rw [hdiv] at h
      exact ⟨hdiv, Nat.add_left_cancel h⟩
    · rintro ⟨hwhole, hpart⟩
      rw [hwhole, hpart]
  rw [hunits, ← PyTime.seconds_inj ht ht', ← take_zeroPad_inj ht.2.2.2 ht'.2.2.2,
    PyTime.clockText, PyTime.clockText]
  constructor
  · intro h
    obtain ⟨hseconds, hrest⟩ := List.append_inj h
      ((PyTime.length_seconds ht).trans (PyTime.length_seconds ht').symm)
    use hseconds
    split at hrest
    · rename_i hzero
      rw [hzero, List.take_zero, List.take_zero]
    · apply List.tail_eq_of_cons_eq hrest
  · rintro ⟨hseconds, hpart⟩
    rw [hseconds, hpart]

/-- A time whose last digits are less than half a unit of the precision is rounded down. -/
def PyTime.RoundsDown (t : PyTime) (precision : ℕ) : Prop :=
  2 * (t.microsecond % precisionUnit precision) < precisionUnit precision

theorem PyTime.valid_rounded (t : PyTime) (precision : ℕ) :
  (t.rounded precision).Valid
  := by
  have hlt : roundMicroseconds t.sinceMidnight precision % dayMicroseconds < dayMicroseconds :=
    Nat.mod_lt _ (by decide)
  rw [PyTime.rounded]
  generalize roundMicroseconds t.sinceMidnight precision % dayMicroseconds = n at hlt ⊢
  rw [dayMicroseconds] at hlt
  simp only [PyTime.Valid, PyTime.ofSinceMidnight]
  omega

theorem PyTime.sinceMidnight_ofSinceMidnight (n : ℕ) :
  (PyTime.ofSinceMidnight n).sinceMidnight = n
  := by
  simp only [PyTime.sinceMidnight, PyTime.ofSinceMidnight]
  omega

/-- Rounding changes the units that have passed exactly when it rounds up. -/
theorem PyTime.units_rounded_iff {t : PyTime} (ht : t.Valid) {precision : ℕ}
    (hprecision : precision ≤ 6) :
  t.units precision = (t.rounded precision).units precision ↔ t.RoundsDown precision
  := by
  obtain ⟨hhour, hminute, hsecond, hmicro⟩ := ht
  rw [PyTime.units, PyTime.units, PyTime.rounded, PyTime.sinceMidnight_ofSinceMidnight,
    PyTime.RoundsDown, roundMicroseconds, PyTime.sinceMidnight]
  interval_cases precision
  all_goals
    simp only [precisionUnit, dayMicroseconds]
    omega

/-- The rounded time has the same text exactly when it was rounded down. -/
theorem PyTime.clockText_rounded_iff {t : PyTime} (ht : t.Valid) {precision : ℕ}
    (hprecision : precision ≤ 6) :
  t.clockText precision = (t.rounded precision).clockText precision ↔ t.RoundsDown precision
  := by
  rw [PyTime.clockText_inj ht (t.valid_rounded precision) hprecision,
    PyTime.units_rounded_iff ht hprecision]

theorem PyTime.roundMicroseconds_lt {t : PyTime} (ht : t.Valid) {precision : ℕ}
    (hprecision : precision ≤ 6) (h : t.RoundsDown precision) :
  roundMicroseconds t.sinceMidnight precision < dayMicroseconds
  := by
  obtain ⟨hhour, hminute, hsecond, hmicro⟩ := ht
  rw [PyTime.RoundsDown] at h
  rw [roundMicroseconds, PyTime.sinceMidnight]
  interval_cases precision
  all_goals
    simp only [precisionUnit, dayMicroseconds] at h ⊢
    omega

/-! ### Words for true -/

/-- The texts that the database takes for true. -/
def trueSpellings : List String := ["1", "Y", "y", "TRUE", "true"]

/-- The words that the client takes for true, in lower case. -/
def trueWords : List String := ["1", "true", "t", "yes", "y"]

theorem any_trueLiterals_number (n : ℤ) :
  (trueLiterals.any (fun l => l.isValue (.number n))) = decide (n = 1)
  := by
  have hone : ∀ k : ℤ, intText k = "1".toList → k = 1 := by
    intro k hk
    have hread := intOfText?_intText k
    rw [hk] at hread
    exact (Option.some.inj hread).symm
  have hother : ∀ (k : ℤ) (s : Text), intOfText? s = none → intText k ≠ s := by
    rintro k s hs rfl
    rw [intOfText?_intText] at hs
    cases hs
  by_cases hn : n = 1
  · subst hn
    rfl
  · rw [decide_eq_false hn]
    simp only [trueLiterals, List.any_cons, List.any_nil, SqlLiteral.isValue, Int.cast_inj, hn,
      Rat.den_intCast, Rat.num_intCast, true_and, decide_false,
      decide_eq_false (fun h => hn (hone n h)),
      decide_eq_false (hother n "Y".toList (by rfl)),
      decide_eq_false (hother n "y".toList (by rfl)),
      decide_eq_false (hother n "TRUE".toList (by rfl)),
      decide_eq_false (hother n "true".toList (by rfl)), Bool.or_self]

theorem any_trueLiterals_text (s : Text) :
  (trueLiterals.any (fun l => l.isValue (.text s)))
    = decide (s ∈ trueSpellings.map String.toList)
  := by
  have hone : intText 1 = "1".toList := by rfl
  rw [Bool.eq_iff_iff, decide_eq_true_iff]
  simp only [trueLiterals, trueSpellings, List.any_cons, List.any_nil, SqlLiteral.isValue, hone,
    Bool.or_eq_true, decide_eq_true_eq, List.map_cons, List.map_nil, List.mem_cons,
    List.not_mem_nil, Bool.or_false, or_false]
  tauto

/-- What the database takes for true the client takes for true. -/
theorem truthy_of_mem_trueSpellings (lib : Builtins) {s : Text}
    (h : s ∈ trueSpellings.map String.toList) :
  truthy lib (.str s) = true
  := by
  have hascii : ∀ c ∈ stripBy isSpace s, c.toNat < 128 := by
    simp only [trueSpellings, List.map_cons, List.map_nil, List.mem_cons, List.not_mem_nil,
      or_false] at h
    rcases h with rfl | rfl | rfl | rfl | rfl
    all_goals decide
  rw [truthy, lib.lower_ascii _ hascii]
  simp only [trueSpellings, List.map_cons, List.map_nil, List.mem_cons, List.not_mem_nil,
    or_false] at h
  rcases h with rfl | rfl | rfl | rfl | rfl
  all_goals rfl

/-! ### Values that agree -/

/-- The values of a column type on which the database and the client agree. -/
def Agrees (lib : Builtins) (rules : CompareRules) : ColumnType → PyValue → Prop
  | _, .none => True
  | .boolean, .int n => n = 0 ∨ n = 1
  | .boolean, .str s =>
      s ∈ trueSpellings.map String.toList
        ∨ lib.lower (strip s) ∉ trueWords.map String.toList
  | .time, .time t => t.RoundsDown rules.timestampPrecision
  | .datetime, .datetime _ t => t.RoundsDown rules.timestampPrecision
  | _, .int n => NumberAgrees ⟨decide (n < 0), n.natAbs, 0⟩ n rules.numericScale
  | _, .decimal d => NumberAgrees d d.value rules.numericScale
  | _, .float q text =>
      ∃ d, (PyValue.float q text).shownDecimal? = some d ∧ NumberAgrees d q rules.numericScale
  | _, _ => True

/-- The client's value is what the database's expression denotes. -/
def ValueAgrees (lib : Builtins) (rules : CompareRules) (column : CompareColumn)
    (row : String → PyValue) : Prop :=
  (normalizeValue lib column (row column.name) rules).map SqlValue.ofText?
    = .ok ((normalizedValueExpression column rules).denote lib
        (fun name => .ofPyValue (row name)))

section Values

variable {lib : Builtins} {rules : CompareRules} {column : CompareColumn} {row : String → PyValue}

theorem valueAgrees_none (htype : HasType column.type .none) (h : row column.name = .none) :
  ValueAgrees lib rules column row
  := by
  obtain ⟨name, type⟩ := column
  rw [ValueAgrees, normalizeValue, if_pos h]
  cases type with
  | string =>
      rw [normalizedValueExpression]
      cases rules.trimStrings <;> cases rules.caseInsensitive <;> cases rules.emptyAsNull <;>
        simp [SqlExpr.denote, h, SqlValue.ofPyValue, SqlValue.mapText, Except.map,
          SqlValue.ofText?]
  | integer | decimal | float | boolean | date | time | datetime =>
      simp [normalizedValueExpression, dmTimeExpr, dmTimestampExpr, SqlExpr.denote, h,
        SqlValue.ofPyValue, Except.map, SqlValue.ofText?, DateFormat.shown]
  | bytes | json | unknown => simp [HasType, supportedDbHashTypes] at htype

theorem valueAgrees_number {d : Decimal} {q : ℚ} (hne : row column.name ≠ .none)
    (htype : column.type = .integer ∨ column.type = .decimal ∨ column.type = .float)
    (hshown : (row column.name).shownDecimal? = some d)
    (hvalue : SqlValue.ofPyValue (row column.name) = .number q) :
  ValueAgrees lib rules column row ↔ NumberAgrees d q rules.numericScale
  := by
  have hclient : normalizeValue lib column (row column.name) rules
      = (normalizeDecimal (row column.name) rules.numericScale).map some := by
    rw [normalizeValue, if_neg hne]
    rcases htype with h | h | h
    all_goals rw [h]
  have hdatabase : (normalizedValueExpression column rules).denote lib
      (fun name => .ofPyValue (row name)) = .text (showNumber q rules.numericScale) := by
    rw [← showNumber_round, normalizedValueExpression]
    rcases htype with h | h | h
    all_goals simp [h, SqlExpr.denote, hvalue]
  rw [ValueAgrees, hclient, hdatabase, ← normalizeDecimal_eq_iff hshown]
  cases normalizeDecimal (row column.name) rules.numericScale with
  | error e => simp [Except.map]
  | ok s => simp [Except.map, SqlValue.ofText?]

theorem valueAgrees_flag {b c : Bool} (hne : row column.name ≠ .none)
    (htype : column.type = .boolean) (hclient : truthy lib (row column.name) = b)
    (hdatabase : trueLiterals.any (fun l => l.isValue (.ofPyValue (row column.name))) = c) :
  ValueAgrees lib rules column row ↔ b = c
  := by
  have hnotNull : SqlValue.ofPyValue (row column.name) ≠ .null := by
    cases hvalue : row column.name with
    | none => exact fun _ => hne hvalue
    | _ => nofun
  have hdenote : (normalizedValueExpression column rules).denote lib
      (fun name => .ofPyValue (row name)) = .text (if c then ['1'] else ['0']) := by
    rw [normalizedValueExpression, htype, ← hdatabase]
    simp only [SqlExpr.denote]
  rw [ValueAgrees, normalizeValue, if_neg hne, htype, hdenote, hclient]
  cases b with
  | false =>
      cases c with
      | false => simp [Except.map, SqlValue.ofText?]
      | true => simp [Except.map, SqlValue.ofText?]
  | true =>
      cases c with
      | false => simp [Except.map, SqlValue.ofText?]
      | true => simp [Except.map, SqlValue.ofText?]

theorem valueAgrees_str {s : Text} (h : row column.name = .str s)
    (htype : column.type = .boolean) :
  ValueAgrees lib rules column row
    ↔ s ∈ trueSpellings.map String.toList ∨ lib.lower (strip s) ∉ trueWords.map String.toList
  := by
  have hdatabase : trueLiterals.any (fun l => l.isValue (.ofPyValue (row column.name)))
      = decide (s ∈ trueSpellings.map String.toList) := by
    rw [h]
    apply any_trueLiterals_text
  have hclient : truthy lib (row column.name)
      = decide (lib.lower (strip s) ∈ trueWords.map String.toList) := by
    rw [h, truthy, Bool.eq_iff_iff, List.any_eq_true, decide_eq_true_iff]
    simp only [decide_eq_true_eq, List.mem_map, trueWords, strip]
    simp only [eq_comm]
  have hsubset := fun hs => truthy_of_mem_trueSpellings lib (s := s) hs
  rw [← h, hclient, decide_eq_true_eq] at hsubset
  rw [valueAgrees_flag (by rw [h]; nofun) htype hclient hdatabase, decide_eq_decide]
  tauto

theorem valueAgrees_time {t : PyTime} (h : row column.name = .time t)
    (htype : column.type = .time) (ht : t.Valid) :
  ValueAgrees lib rules column row ↔ t.RoundsDown rules.timestampPrecision
  := by
  have hclient : normalizeValue lib column (row column.name) rules
      = .ok (some (t.clockText rules.timestampPrecision)) := by
    rw [normalizeValue, h, if_neg nofun, htype]
    simp only [normalizeTime]
    have htext := appendFraction_clockText [] t rules.timestampPrecision
    rw [List.nil_append, List.nil_append] at htext
    rw [htext]
  have hdatabase : (normalizedValueExpression column rules).denote lib
      (fun name => .ofPyValue (row name))
      = .text ((t.rounded rules.timestampPrecision).clockText rules.timestampPrecision) := by
    have htext := appendFraction_clockText [] (t.rounded rules.timestampPrecision)
      rules.timestampPrecision
    rw [List.nil_append, List.nil_append] at htext
    rw [normalizedValueExpression, htype, ← htext]
    simp only [dmTimeExpr, SqlExpr.denote, h, SqlValue.ofPyValue, DateFormat.shown]
  rw [ValueAgrees, hclient, hdatabase,
    ← PyTime.clockText_rounded_iff ht rules.timestampPrecision_le]
  simp [Except.map, SqlValue.ofText?]

theorem valueAgrees_datetime {d : PyDate} {t : PyTime} (h : row column.name = .datetime d t)
    (htype : column.type = .datetime) (ht : t.Valid) :
  ValueAgrees lib rules column row ↔ t.RoundsDown rules.timestampPrecision
  := by
  have hfront : ∀ (d : PyDate) (t : PyTime),
      appendFraction (d.isoformat ++ ' ' :: t.seconds) t.microsecond rules.timestampPrecision
        = (d.isoformat ++ [' ']) ++ t.clockText rules.timestampPrecision := by
    intro d t
    rw [← appendFraction_clockText, List.append_assoc]
    rfl
  have hclient : normalizeValue lib column (row column.name) rules
      = .ok (some ((d.isoformat ++ [' ']) ++ t.clockText rules.timestampPrecision)) := by
    rw [normalizeValue, h, if_neg nofun, htype, ← hfront]
    rfl
  have hdatabase : (normalizedValueExpression column rules).denote lib
      (fun name => .ofPyValue (row name))
      = .text (((d.rounded t rules.timestampPrecision).isoformat ++ [' '])
          ++ (t.rounded rules.timestampPrecision).clockText rules.timestampPrecision) := by
    rw [normalizedValueExpression, htype, ← hfront]
    simp only [dmTimestampExpr, SqlExpr.denote, h, SqlValue.ofPyValue, DateFormat.shown]
  rw [ValueAgrees, hclient, hdatabase,
    ← PyTime.clockText_rounded_iff ht rules.timestampPrecision_le]
  simp only [Except.map, SqlValue.ofText?, Except.ok.injEq, SqlValue.text.injEq]
  constructor
  · intro heq
    apply (List.append_inj' heq _).2
    rw [PyTime.length_clockText ht rules.timestampPrecision_le,
      PyTime.length_clockText (t.valid_rounded _) rules.timestampPrecision_le]
  · intro heq
    have hdown := (PyTime.clockText_rounded_iff ht rules.timestampPrecision_le).mp heq
    rw [PyDate.rounded, if_pos (PyTime.roundMicroseconds_lt ht rules.timestampPrecision_le hdown),
      heq]

theorem valueAgrees_date {d : PyDate} (h : row column.name = .date d)
    (htype : column.type = .date) :
  ValueAgrees lib rules column row
  := by
  rw [ValueAgrees, normalizeValue, h, if_neg nofun, normalizedValueExpression, htype]
  simp only [SqlExpr.denote, h]
  rfl

theorem valueAgrees_string {s : Text} (h : row column.name = .str s)
    (htype : column.type = .string) :
  ValueAgrees lib rules column row
  := by
  rw [ValueAgrees, normalizeValue, h, if_neg nofun, normalizedValueExpression, htype]
  simp only [normalizeText, PyValue.text]
  cases rules.trimStrings <;> cases rules.caseInsensitive <;> cases rules.emptyAsNull <;>
    simp only [SqlExpr.denote, h, SqlValue.ofPyValue, SqlValue.mapText, Except.map,
      Bool.false_eq_true, if_false, if_true, Bool.true_and, Bool.false_and, decide_eq_true_eq]
  all_goals first | rfl | (split <;> rfl)

/-- The database and the client agree on a value of a column exactly when it is one of those. -/
theorem valueAgrees_iff (htype : HasType column.type (row column.name)) :
  ValueAgrees lib rules column row ↔ Agrees lib rules column.type (row column.name)
  := by
  cases hvalue : row column.name with
  | none =>
      rw [hvalue] at htype
      simpa only [Agrees, iff_true] using valueAgrees_none htype hvalue
  | bool b =>
      rw [hvalue] at htype
      cases hcolumn : column.type with
      | boolean =>
          have hany : trueLiterals.any (fun l => l.isValue (.ofPyValue (row column.name))) = b := by
            rw [hvalue]
            cases b with
            | false => rfl
            | true => rfl
          have hclient : truthy lib (row column.name) = b := by
            rw [hvalue]
            rfl
          rw [valueAgrees_flag (by rw [hvalue]; nofun) hcolumn hclient hany]
          simp only [Agrees]
      | _ =>
          rw [hcolumn] at htype
          apply htype.elim
  | int n =>
      have hshown : (row column.name).shownDecimal? = some ⟨decide (n < 0), n.natAbs, 0⟩ := by
        rw [hvalue]
        rfl
      have hnumber : SqlValue.ofPyValue (row column.name) = .number n := by
        rw [hvalue]
        rfl
      have hne : row column.name ≠ .none := by
        rw [hvalue]
        nofun
      rw [hvalue] at htype
      cases hcolumn : column.type with
      | integer =>
          rw [valueAgrees_number hne (.inl hcolumn) hshown hnumber, Agrees]
          nofun
      | decimal =>
          rw [valueAgrees_number hne (.inr (.inl hcolumn)) hshown hnumber, Agrees]
          nofun
      | boolean =>
          have hany : trueLiterals.any (fun l => l.isValue (.ofPyValue (row column.name)))
              = decide (n = 1) := by
            rw [hvalue]
            apply any_trueLiterals_number
          have hclient : truthy lib (row column.name) = decide (n ≠ 0) := by
            rw [hvalue]
            rfl
          rw [valueAgrees_flag hne hcolumn hclient hany, Agrees, decide_eq_decide]
          omega
      | _ =>
          rw [hcolumn] at htype
          apply htype.elim
  | float q text =>
      have hne : row column.name ≠ .none := by
        rw [hvalue]
        nofun
      rw [hvalue] at htype
      cases hcolumn : column.type with
      | float =>
          rw [hcolumn] at htype
          obtain ⟨d, hd⟩ := Option.isSome_iff_exists.mp htype
          have hnumber : SqlValue.ofPyValue (row column.name) = .number q := by
            rw [hvalue]
            rfl
          rw [valueAgrees_number hne (.inr (.inr hcolumn)) (by rw [hvalue, hd]) hnumber, Agrees, hd]
          simp only [Option.some.injEq, exists_eq_left']
      | _ =>
          rw [hcolumn] at htype
          apply htype.elim
  | decimal d =>
      have hshown : (row column.name).shownDecimal? = some d := by
        rw [hvalue]
        rfl
      have hnumber : SqlValue.ofPyValue (row column.name) = .number d.value := by
        rw [hvalue]
        rfl
      have hne : row column.name ≠ .none := by
        rw [hvalue]
        nofun
      rw [hvalue] at htype
      cases hcolumn : column.type with
      | integer => rw [valueAgrees_number hne (.inl hcolumn) hshown hnumber, Agrees]
      | decimal => rw [valueAgrees_number hne (.inr (.inl hcolumn)) hshown hnumber, Agrees]
      | _ =>
          rw [hcolumn] at htype
          apply htype.elim
  | str s =>
      rw [hvalue] at htype
      cases hcolumn : column.type with
      | string => simpa only [Agrees, iff_true] using valueAgrees_string hvalue hcolumn
      | boolean => rw [valueAgrees_str hvalue hcolumn, Agrees]
      | _ =>
          rw [hcolumn] at htype
          apply htype.elim
  | date d =>
      rw [hvalue] at htype
      cases hcolumn : column.type with
      | date => simpa only [Agrees, iff_true] using valueAgrees_date hvalue hcolumn
      | _ =>
          rw [hcolumn] at htype
          apply htype.elim
  | time t =>
      rw [hvalue] at htype
      cases hcolumn : column.type with
      | time =>
          rw [hcolumn] at htype
          rw [valueAgrees_time hvalue hcolumn htype, Agrees]
      | _ =>
          rw [hcolumn] at htype
          apply htype.elim
  | datetime d t =>
      rw [hvalue] at htype
      cases hcolumn : column.type with
      | datetime =>
          rw [hcolumn] at htype
          rw [valueAgrees_datetime hvalue hcolumn htype, Agrees]
      | _ =>
          rw [hcolumn] at htype
          apply htype.elim

end Values

/-! ### Payloads -/

/-- The hash of a row as the database computes it from the payload. -/
def dbRowHash64 (lib : Builtins) (payload : SqlValue) : Option ℕ := payload.text?.map lib.hash64

/-- The database and the client agree on a row: on the value of every column, on the payload and
on the hash. -/
structure RowAgrees (lib : Builtins) (rules : CompareRules) (columns : List CompareColumn)
    (row : String → PyValue) : Prop where
  values : ∀ column ∈ columns, ValueAgrees lib rules column row
  payload :
    (normalizedComparePayload lib columns (columns.map (fun column => row column.name)) rules).map
        SqlValue.text
      = .ok ((rowPayloadExpression columns rules).denote lib (fun name => .ofPyValue (row name)))
  hash :
    (compareRowHash64 lib columns (columns.map (fun column => row column.name)) rules).map some
      = .ok (dbRowHash64 lib ((rowPayloadExpression columns rules).denote lib
          (fun name => .ofPyValue (row name))))

/-- A row with one value of every kind that is treated in two ways. -/
def sampleRow : String → PyValue
  | "at" => .datetime ⟨2024, 1, 31⟩ ⟨23, 59, 59, 999995⟩
  | "flag" => .str "T".toList
  | "amount" => .decimal ⟨true, 1, -7⟩
  | "total" => .int 12
  | _ => .none

/-- The rules with five digits of the fraction of a second. -/
def sampleRules : CompareRules where
  timestampPrecision := 5
  numericScale_le := defaultNumericScale_le

section Payload

variable {lib : Builtins} {rules : CompareRules} {columns : List CompareColumn}
  {row : String → PyValue}

theorem denoteAll_eq_map (values : String → SqlValue) (es : List SqlExpr) :
  SqlExpr.denote.denoteAll lib values es = es.map (SqlExpr.denote lib values)
  := by
  induction es with
  | nil => rfl
  | cons e es ih => rw [SqlExpr.denote.denoteAll, ih, List.map_cons]

theorem joinValues_texts {separator : Text} {texts : List Text} (h : texts ≠ []) :
  joinValues separator (texts.map SqlValue.text) = .text (joinText separator texts)
  := by
  have hmapM : (texts.map SqlValue.text).mapM SqlValue.text? = some texts := by
    induction texts with
    | nil => rfl
    | cons s texts ih =>
        cases texts with
        | nil => rfl
        | cons t texts =>
            rw [List.map_cons, List.mapM_cons, ih (List.cons_ne_nil _ _)]
            rfl
  rw [joinValues, if_neg (by simpa using h), hmapM]

/-- The values of the columns that the client computes are those the database computes. -/
theorem normalizedValues_of_valueAgrees
    (h : ∀ column ∈ columns, ValueAgrees lib rules column row) :
  ∃ normalized : List (Option Text),
    normalizedValues lib columns (columns.map (fun column => row column.name)) rules
        = .ok normalized
      ∧ List.Forall₂
          (fun e v => SqlExpr.denote lib (fun name => .ofPyValue (row name)) e = .ofText? v)
          (columns.map (fun column => normalizedValueExpression column rules)) normalized
  := by
  induction columns with
  | nil => exact ⟨[], rfl, .nil⟩
  | cons column columns ih =>
      obtain ⟨rest, hrest, hdatabase⟩ := ih (fun c hc => h c (List.mem_cons_of_mem _ hc))
      have hvalue := h column List.mem_cons_self
      rw [ValueAgrees] at hvalue
      obtain ⟨v, hv, hdenote⟩ := Outcome.map_eq_ok.mp hvalue
      rw [normalizedValues, if_neg (by simp)] at hrest
      refine ⟨v :: rest, ?_, .cons hdenote.symm hdatabase⟩
      rw [normalizedValues, if_neg (by simp), List.map_cons, List.zip_cons_cons, List.mapM_cons,
        hv, hrest]
      rfl

theorem denote_nullBit {values : String → SqlValue} {e : SqlExpr} {v : Option Text}
    (h : e.denote lib values = .ofText? v) :
  (SqlExpr.nullBit e).denote lib values = .text (if v.isNone then ['1'] else ['0'])
  := by
  cases v with
  | none =>
      rw [SqlExpr.denote, h]
      rfl
  | some s =>
      rw [SqlExpr.denote, h]
      rfl

theorem denote_coalescedValue {values : String → SqlValue} {e : SqlExpr} {v : Option Text}
    (h : e.denote lib values = .ofText? v) :
  (coalescedValue e rules).denote lib values = .text (v.getD rules.nullSentinel)
  := by
  cases v with
  | none =>
      rw [coalescedValue, SqlExpr.denote, h]
      rfl
  | some s =>
      rw [coalescedValue, SqlExpr.denote, h]
      rfl

/-- The parts of a payload denote the flags and the values after their lengths. -/
theorem map_denote_parts {values : String → SqlValue} {es : List SqlExpr}
    {normalized : List (Option Text)}
    (h : List.Forall₂ (fun e v => SqlExpr.denote lib values e = .ofText? v) es normalized) :
  (es.map SqlExpr.nullBit
      ++ (es.map (fun e => coalescedValue e rules)).flatMap (fun e => [SqlExpr.length e, e])).map
        (SqlExpr.denote lib values)
    = (payloadParts (normalized.map (identityOf rules))).map SqlValue.text
  := by
  rw [payloadParts, List.map_append, List.map_append]
  congr 1
  · induction h with
    | nil => rfl
    | cons hdenote _ ih =>
        rw [List.map_cons, List.map_cons, ih, denote_nullBit hdenote]
        rfl
  · induction h with
    | nil => rfl
    | cons hdenote _ ih =>
        have hvalue : (coalescedValue _ rules).denote lib values = _ :=
          denote_coalescedValue hdenote
        have hlength : (SqlExpr.length (coalescedValue _ rules)).denote lib values
            = .text (natText (_ : Text).length) :=
          (SqlExpr.denote.eq_def ..).trans (congrArg (SqlValue.mapText _) hvalue)
        rw [List.map_cons, List.flatMap_cons, List.map_append, ih, List.map_cons, List.map_cons,
          List.map_nil, hlength, hvalue]
        rfl

/-- The expression of the payload denotes the payload of the normalised values. -/
theorem denote_rowPayloadExpression {values : String → SqlValue} (hne : columns ≠ [])
    {normalized : List (Option Text)}
    (h : List.Forall₂ (fun e v => SqlExpr.denote lib values e = .ofText? v)
      (columns.map (fun column => normalizedValueExpression column rules)) normalized) :
  (rowPayloadExpression columns rules).denote lib values
    = .text (payloadOf rules (normalized.map (identityOf rules)))
  := by
  have hparts : payloadParts (normalized.map (identityOf rules)) ≠ [] := by
    obtain ⟨column, rest, rfl⟩ := List.exists_cons_of_ne_nil hne
    obtain ⟨v, vs, -, -, rfl⟩ := List.forall₂_cons_left_iff.mp h
    exact List.cons_ne_nil _ _
  rw [rowPayloadExpression, SqlExpr.denote, denoteAll_eq_map, map_denote_parts h,
    joinValues_texts hparts, payloadOf]

/-- Without columns there is no payload in the database. -/
theorem denote_rowPayloadExpression_nil (values : String → SqlValue) :
  (rowPayloadExpression [] rules).denote lib values = .null
  := rfl

/-- The database and the client agree on a row exactly when there is a column and they agree on
the value of every column. -/
theorem rowAgrees_iff
    (htypes : ∀ column ∈ columns, HasType column.type (row column.name)) :
  RowAgrees lib rules columns row
    ↔ columns ≠ [] ∧ ∀ column ∈ columns, Agrees lib rules column.type (row column.name)
  := by
  constructor
  · rintro ⟨hvalues, hpayload, -⟩
    constructor
    · rintro rfl
      cases hpayload
    · intro column hcolumn
      apply (valueAgrees_iff (htypes column hcolumn)).mp (hvalues column hcolumn)
  · rintro ⟨hne, hagrees⟩
    have hvalues : ∀ column ∈ columns, ValueAgrees lib rules column row :=
      fun column hcolumn =>
        (valueAgrees_iff (htypes column hcolumn)).mpr (hagrees column hcolumn)
    obtain ⟨normalized, hnormalized, hdenote⟩ := normalizedValues_of_valueAgrees hvalues
    have hpayload : normalizedComparePayload lib columns
        (columns.map (fun column => row column.name)) rules
          = .ok (payloadOf rules (normalized.map (identityOf rules))) := by
      rw [normalizedComparePayload, normalizedCompareIdentity, hnormalized]
      rfl
    have hdatabase := denote_rowPayloadExpression hne hdenote
    constructor
    · apply hvalues
    · rw [hpayload, hdatabase]
      rfl
    · rw [compareRowHash64, hpayload, hdatabase]
      rfl

end Payload

/-- The database and the client agree on a row with a small integer. -/
theorem sampleRow_agrees :
  RowAgrees sampleBuiltins sampleRules [⟨"total", .integer⟩] sampleRow
  := by
  have htypes : ∀ column ∈ [(⟨"total", .integer⟩ : CompareColumn)],
      HasType column.type (sampleRow column.name) := by
    intro column hcolumn
    rw [List.mem_singleton.mp hcolumn]
    trivial
  apply (rowAgrees_iff htypes).mpr
  use List.cons_ne_nil _ _
  intro column hcolumn
  rw [List.mem_singleton.mp hcolumn]
  show NumberAgrees ⟨false, 12, 0⟩ _ 6
  rw [NumberAgrees]
  decide +kernel

/-- The last digit of a time, the letter for true and a small number below zero are each
normalised in two ways. -/
theorem sampleRow_not_agrees :
  (∀ column ∈ [(⟨"at", .datetime⟩ : CompareColumn), ⟨"flag", .boolean⟩, ⟨"amount", .decimal⟩],
    HasType column.type (sampleRow column.name)
      ∧ ¬ ValueAgrees sampleBuiltins sampleRules column sampleRow)
    ∧ ¬ RowAgrees sampleBuiltins sampleRules [⟨"at", .datetime⟩] sampleRow
    ∧ (normalizeValue sampleBuiltins ⟨"at", .datetime⟩ (sampleRow "at") sampleRules).toOption
        = some (some "2024-01-31 23:59:59.99999".toList)
    ∧ (normalizedValueExpression ⟨"at", .datetime⟩ sampleRules).denote sampleBuiltins
        (fun name => .ofPyValue (sampleRow name)) = .text "2024-02-01 00:00:00.00000".toList
  := by
  have hdiffer : ∀ column ∈ [(⟨"at", .datetime⟩ : CompareColumn), ⟨"flag", .boolean⟩,
      ⟨"amount", .decimal⟩], ¬ ValueAgrees sampleBuiltins sampleRules column sampleRow := by
    intro column hcolumn h
    have htoOption := congrArg Except.toOption h
    simp only [List.mem_cons, List.not_mem_nil, or_false] at hcolumn
    rcases hcolumn with rfl | rfl | rfl
    · revert htoOption
      decide
    · revert htoOption
      decide
    · revert htoOption
      decide +kernel
  refine ⟨?_, ?_, by rfl, by rfl⟩
  · intro column hcolumn
    refine ⟨?_, hdiffer column hcolumn⟩
    simp only [List.mem_cons, List.not_mem_nil, or_false] at hcolumn
    rcases hcolumn with rfl | rfl | rfl
    · show PyTime.Valid _
      simp [PyTime.Valid]
    · trivial
    · trivial
  · intro h
    apply hdiffer ⟨"at", .datetime⟩ List.mem_cons_self
      (h.values ⟨"at", .datetime⟩ List.mem_cons_self)

end Compare

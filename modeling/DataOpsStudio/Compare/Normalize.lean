import DataOpsStudio.Compare.Diff
import Mathlib.Data.List.TakeWhile

/-!
# Normalised values

Values of different drivers are compared after normalisation to a text, or to nothing for
a missing value.  The identity of a row pairs every normalised value with a flag that
says whether it is missing, and the payload of a row joins these into the one text whose
hash represents the row.  The second half shows that an integer is normalised to a text
that determines it, whatever Python type carries it.
-/

namespace Compare

open Text

/-- What is used of the interpreter and its library: lower case, and the hash of a
payload, the first eight bytes of its MD5 digest. -/
structure Builtins where
  lower : Text → Text
  lower_ascii : ∀ s : Text, (∀ c ∈ s, c.toNat < 128) → lower s = s.map Char.toLower
  hash64 : Text → ℕ
  hash64_lt : ∀ s, hash64 s < 2 ^ 64

/-! ### Columns and rules -/

/-- The column types shared by all dialects. -/
inductive ColumnType where
  | string
  | integer
  | float
  | decimal
  | boolean
  | datetime
  | date
  | time
  | bytes
  | json
  | unknown
deriving DecidableEq

/-- A configured column. -/
structure CompareColumn where
  name : String
  type : ColumnType := .unknown
deriving DecidableEq

/-- The rules of a comparison that decide which rows are equal. -/
structure CompareRules where
  keyColumns : List String := []
  ignoreColumns : List String := []
  columnMappings : Dict String String := Dict.empty
  trimStrings : Bool := false
  caseInsensitive : Bool := false
  emptyAsNull : Bool := false
  numericScale : ℕ := 6
  timestampPrecision : ℕ := 6
  nullSentinel : Text := ['␀']
  fieldSeparator : Text := ['␟']
  numericScale_le : numericScale ≤ 18 := by decide
  timestampPrecision_le : timestampPrecision ≤ 6 := by decide

/-- The numbers of digits that are the default are allowed. -/
theorem defaultNumericScale_le : 6 ≤ 18 := by decide

theorem defaultTimestampPrecision_le : 6 ≤ 6 := by decide

/-! ### Texts of numbers -/

/-- The number a text of digits stands for. -/
def digitsValue (s : Text) : ℕ := s.foldl (fun n c => 10 * n + (digit? c).getD 0) 0

/-- A sign and the text after it. -/
def splitSign : Text → Bool × Text
  | '-' :: s => (true, s)
  | '+' :: s => (false, s)
  | s => (false, s)

/-- Digits with single underscores between them; `afterDigit` says that the last character
read was a digit. -/
def intDigits? (afterDigit : Bool) (n : ℕ) : Text → Option ℕ
  | [] => if afterDigit then some n else none
  | c :: s =>
      if c = '_' then if afterDigit then intDigits? false n s else none
      else
        match digit? c with
        | some d => intDigits? true (10 * n + d) s
        | none => none

/-- The integer a text stands for, if it does. -/
def intOfText? (s : Text) : Option ℤ :=
  let signed := splitSign (stripBy isSpace s)
  (intDigits? false 0 signed.2).map (fun n : ℕ => if signed.1 then -(n : ℤ) else (n : ℤ))

/-- What a text is read as by the constructor of decimal numbers. -/
inductive ParsedDecimal where
  | finite (d : Decimal)
  | infinite
  | nan (negative : Bool) (diagnostic : ℕ)
  | signaling

/-- An exponent: an optional sign and at least one digit. -/
def parseExponent? (s : Text) : Option ℤ :=
  let signed := splitSign s
  if signed.2 ≠ [] ∧ signed.2.all isDecimalDigit then
    some (if signed.1 then -(digitsValue signed.2 : ℤ) else digitsValue signed.2)
  else none

/-- A finite decimal number: digits, an optional fraction and an optional exponent. -/
def parseFinite? (negative : Bool) (s : Text) : Option Decimal :=
  let whole := s.takeWhile isDecimalDigit
  let afterWhole := s.dropWhile isDecimalDigit
  let fraction :=
    match afterWhole with
    | '.' :: r => r.takeWhile isDecimalDigit
    | _ => []
  let rest :=
    match afterWhole with
    | '.' :: r => r.dropWhile isDecimalDigit
    | r => r
  if whole ++ fraction = [] then none
  else
    match rest with
    | [] => some ⟨negative, digitsValue (whole ++ fraction), -fraction.length⟩
    | e :: r =>
        if e = 'e' ∨ e = 'E' then
          (parseExponent? r).map
            (fun x => ⟨negative, digitsValue (whole ++ fraction), x - fraction.length⟩)
        else none

/-- The number, infinity or not-a-number a text stands for, if it does. -/
def parseDecimal? (s : Text) : Option ParsedDecimal :=
  let signed := splitSign ((stripBy isSpace s).filter (fun c => c != '_'))
  let body := signed.2
  let word := body.map Char.toLower
  if word = "inf".toList ∨ word = "infinity".toList then some .infinite
  else if word.take 3 = "nan".toList ∧ (body.drop 3).all isDecimalDigit then
    some (.nan signed.1 (digitsValue (body.drop 3)))
  else if word.take 4 = "snan".toList ∧ (body.drop 4).all isDecimalDigit then some .signaling
  else (parseFinite? signed.1 body).map .finite

/-- The number of digits a decimal operation keeps. -/
def decimalPrecision : ℕ := 28

/-- The coefficient of a decimal number at `scale` fraction digits, halves rounded away from
zero. -/
def rescaled (d : Decimal) (scale : ℕ) : ℕ :=
  let shift := d.exponent + scale
  if 0 ≤ shift then d.coefficient * 10 ^ shift.toNat
  else
    let unit := 10 ^ (-shift).toNat
    (2 * d.coefficient + unit) / (2 * unit)

/-- The number at `scale` fraction digits; a result with too many digits is an error. -/
def quantize (d : Decimal) (scale : ℕ) : Except CompareError Decimal :=
  if 10 ^ decimalPrecision ≤ rescaled d scale then .error .invalidOperation
  else .ok ⟨d.negative, rescaled d scale, -scale⟩

/-- A coefficient with `scale` fraction digits in positional notation. -/
def fixedText (negative : Bool) (coefficient scale : ℕ) : Text :=
  let digits := zeroPad (scale + 1) coefficient
  let whole := digits.take (digits.length - scale)
  let fraction := if scale = 0 then [] else '.' :: digits.drop (digits.length - scale)
  (if negative then ['-'] else []) ++ (whole ++ fraction)

/-! ### Normalisation -/

/-- A number with `scale` fraction digits. -/
def normalizeDecimal (value : PyValue) (scale : ℕ) : Except CompareError Text :=
  match parseDecimal? value.text with
  | none => .error .invalidOperation
  | some .infinite => .error .invalidOperation
  | some .signaling => .error .invalidOperation
  | some (.nan negative diagnostic) =>
      let payload := diagnostic % 10 ^ decimalPrecision
      .ok ((if negative then ['-'] else []) ++ "NaN".toList
        ++ if payload = 0 then [] else natText payload)
  | some (.finite d) => (quantize d scale).map (fun q => fixedText q.negative q.coefficient scale)

/-- A date, cut to ten characters when it comes as another value. -/
def normalizeDate : PyValue → Text
  | .datetime d _ => d.isoformat
  | .date d => d.isoformat
  | value => value.text.take 10

/-- A time with at most `precision` fraction digits. -/
def appendFraction (base : Text) (microsecond precision : ℕ) : Text :=
  if precision = 0 then base
  else (base ++ '.' :: zeroPad 6 microsecond).take (base.length + 1 + precision)

/-- A text with its fraction cut or padded to `precision` digits. -/
def trimFraction (value : Text) (precision : ℕ) : Text :=
  if '.' ∉ value then value
  else
    let base := value.takeWhile (fun c => c != '.')
    let fraction := (value.dropWhile (fun c => c != '.')).drop 1
    if precision = 0 then base
    else
      let cut := fraction.take precision
      base ++ '.' :: cut ++ List.replicate (precision - cut.length) '0'

/-- A time of day. -/
def normalizeTime (value : PyValue) (precision : ℕ) : Text :=
  match value with
  | .datetime _ t => appendFraction t.seconds t.microsecond precision
  | .time t => appendFraction t.seconds t.microsecond precision
  | _ => trimFraction value.text precision

/-- A date with a time of day. -/
def normalizeDatetime (value : PyValue) (precision : ℕ) : Text :=
  match value with
  | .datetime d t =>
      appendFraction (d.isoformat ++ ' ' :: t.seconds) t.microsecond precision
  | _ => trimFraction (value.text.map (fun c => if c = 'T' then ' ' else c)) precision

/-- The truth value of a value; of a text, whether it is one of the words for true. -/
def truthy (lib : Builtins) : PyValue → Bool
  | .str s =>
      ["1", "true", "t", "yes", "y"].any
        (fun word => decide (lib.lower (stripBy isSpace s) = word.toList))
  | .none => false
  | .bool b => b
  | .int n => decide (n ≠ 0)
  | .float q _ => decide (q ≠ 0)
  | .decimal d => decide (d.coefficient ≠ 0)
  | _ => true

/-- A text under the rules for texts. -/
def normalizeText (lib : Builtins) (rules : CompareRules) (value : PyValue) : Option Text :=
  let trimmed := if rules.trimStrings then stripBy (fun c => c == ' ') value.text else value.text
  let cased := if rules.caseInsensitive then lib.lower trimmed else trimmed
  if rules.emptyAsNull && decide (cased = []) then none else some cased

/-- The normalised value of a column, nothing when it is missing. -/
def normalizeValue (lib : Builtins) (column : CompareColumn) (value : PyValue)
    (rules : CompareRules) : Except CompareError (Option Text) :=
  if value = .none then .ok none
  else
    match column.type with
    | .integer | .decimal | .float => (normalizeDecimal value rules.numericScale).map some
    | .boolean => .ok (some (if truthy lib value then ['1'] else ['0']))
    | .date => .ok (some (normalizeDate value))
    | .time => .ok (some (normalizeTime value rules.timestampPrecision))
    | .datetime => .ok (some (normalizeDatetime value rules.timestampPrecision))
    | _ => .ok (normalizeText lib rules value)

/-- The normalised values of a row. -/
def normalizedValues (lib : Builtins) (columns : List CompareColumn) (values : List PyValue)
    (rules : CompareRules) : Except CompareError (List (Option Text)) :=
  if columns.length ≠ values.length then .error (.valueError "columns and values length mismatch")
  else (columns.zip values).mapM (fun p => normalizeValue lib p.1 p.2 rules)

/-- A normalised value of a row, with a flag for a missing value. -/
abbrev Identity := List (Bool × Text)

/-- The identity of a normalised value. -/
def identityOf (rules : CompareRules) (value : Option Text) : Bool × Text :=
  (value.isNone, value.getD rules.nullSentinel)

/-- The identity of a row. -/
def normalizedCompareIdentity (lib : Builtins) (columns : List CompareColumn)
    (values : List PyValue) (rules : CompareRules) : Except CompareError Identity :=
  (normalizedValues lib columns values rules).map (fun vs => vs.map (identityOf rules))

/-- Texts with a separator between any two. -/
def joinText (separator : Text) : List Text → Text
  | [] => []
  | [s] => s
  | s :: t :: rest => s ++ separator ++ joinText separator (t :: rest)

/-- The parts of a payload: the flags, and every value after its length. -/
def payloadParts (identity : Identity) : List Text :=
  identity.map (fun p => if p.1 then ['1'] else ['0'])
    ++ identity.flatMap (fun p => [natText p.2.length, p.2])

/-- The payload of an identity. -/
def payloadOf (rules : CompareRules) (identity : Identity) : Text :=
  joinText rules.fieldSeparator (payloadParts identity)

/-- The payload of a row. -/
def normalizedComparePayload (lib : Builtins) (columns : List CompareColumn)
    (values : List PyValue) (rules : CompareRules) : Except CompareError Text :=
  (normalizedCompareIdentity lib columns values rules).map (payloadOf rules)

/-- The hash of a row. -/
def compareRowHash64 (lib : Builtins) (columns : List CompareColumn) (values : List PyValue)
    (rules : CompareRules) : Except CompareError ℕ :=
  (normalizedComparePayload lib columns values rules).map lib.hash64

/-! ### Integers -/

theorem isDigit_iff (c : Char) :
  c.isDigit = true ↔ 48 ≤ c.toNat ∧ c.toNat ≤ 57
  := by
  simp only [Char.isDigit, Bool.and_eq_true, decide_eq_true_eq]
  rfl

theorem isDigit_of_mem_natText {n : ℕ} {c : Char} (h : c ∈ natText n) :
  c.isDigit = true
  := Nat.isDigit_of_mem_toDigits (by decide) (by decide) h

theorem natText_ne_nil (n : ℕ) :
  natText n ≠ []
  := Nat.toDigits_ne_nil

theorem digit?_of_isDigit {c : Char} (h : c.isDigit = true) :
  digit? c = some (c.toNat - 48)
  := by
  rw [isDigit_iff] at h
  rw [digit?, List.find?_cons_of_pos]
  · rfl
  · simp only [Bool.and_eq_true, decide_eq_true_eq]
    omega

theorem isDecimalDigit_of_isDigit {c : Char} (h : c.isDigit = true) :
  isDecimalDigit c = true
  := by
  rw [isDecimalDigit, digit?_of_isDigit h]
  rfl

theorem isSpace_of_isDigit {c : Char} (h : c.isDigit = true) :
  isSpace c = false
  := by
  rw [isDigit_iff] at h
  simp only [isSpace, Bool.or_eq_false_iff, Bool.and_eq_false_iff, decide_eq_false_iff_not,
    beq_eq_false_iff_ne]
  omega

theorem stripBy_of_forall {p : Char → Bool} {s : Text} (h : ∀ c ∈ s, p c = false) :
  stripBy p s = s
  := by
  have hdrop : ∀ t : Text, (∀ c ∈ t, p c = false) → t.dropWhile p = t := by
    intro t ht
    cases t with
    | nil => rfl
    | cons c t => rw [List.dropWhile_cons_of_neg (by simp [ht c List.mem_cons_self])]
  rw [stripBy, hdrop s h, hdrop s.reverse (by simpa using h), List.reverse_reverse]

theorem digitsValue_natText (n : ℕ) :
  digitsValue (natText n) = n
  := by
  have hfold : ∀ (s : Text) (m : ℕ), (∀ c ∈ s, c.isDigit = true) →
      s.foldl (fun n c => 10 * n + (digit? c).getD 0) m = Nat.ofDigitChars 10 s m := by
    intro s
    induction s with
    | nil =>
        intro m _
        rfl
    | cons c s ih =>
        intro m h
        rw [List.foldl_cons, Nat.ofDigitChars_cons, digit?_of_isDigit (h c List.mem_cons_self),
          ih _ (fun d hd => h d (List.mem_cons_of_mem _ hd))]
        rfl
  rw [digitsValue, hfold _ _ (fun c hc => isDigit_of_mem_natText hc)]
  apply Nat.ofDigitChars_ten_toDigits

theorem intDigits?_digits (s : Text) (afterDigit : Bool) (n : ℕ)
    (hs : ∀ c ∈ s, c.isDigit = true) (h : afterDigit = true ∨ s ≠ []) :
  intDigits? afterDigit n s = some (s.foldl (fun n c => 10 * n + (digit? c).getD 0) n)
  := by
  induction s generalizing afterDigit n with
  | nil =>
      obtain rfl : afterDigit = true := h.resolve_right (fun hne => hne rfl)
      rfl
  | cons c s ih =>
      have hdigit := hs c List.mem_cons_self
      have hne : c ≠ '_' := by
        rintro rfl
        cases hdigit
      rw [intDigits?, if_neg hne, List.foldl_cons, digit?_of_isDigit hdigit]
      apply ih true _ (fun d hd => hs d (List.mem_cons_of_mem _ hd))
      left
      rfl

/-- A text of digits is not a sign. -/
theorem splitSign_digits {s : Text} (h : ∀ c ∈ s, c.isDigit = true) :
  splitSign s = (false, s)
  := by
  cases s with
  | nil => rfl
  | cons c s =>
      have hdigit := h c List.mem_cons_self
      rw [splitSign]
      · intro t heq
        rw [List.head_eq_of_cons_eq heq] at hdigit
        cases hdigit
      · intro t heq
        rw [List.head_eq_of_cons_eq heq] at hdigit
        cases hdigit

theorem splitSign_intText (k : ℤ) :
  splitSign (intText k) = (decide (k < 0), natText k.natAbs)
  := by
  cases k with
  | ofNat n => apply splitSign_digits (fun c hc => isDigit_of_mem_natText hc)
  | negSucc n =>
      rw [intText, splitSign, decide_eq_true (Int.negSucc_lt_zero n)]
      rfl

theorem mem_intText {k : ℤ} {c : Char} (h : c ∈ intText k) :
  c = '-' ∨ c.isDigit = true
  := by
  cases k with
  | ofNat n =>
      right
      apply isDigit_of_mem_natText h
  | negSucc n =>
      rcases List.mem_cons.mp h with h | h
      · left
        apply h
      · right
        apply isDigit_of_mem_natText h

theorem stripBy_intText (k : ℤ) :
  stripBy isSpace (intText k) = intText k
  := by
  apply stripBy_of_forall
  intro c hc
  rcases mem_intText hc with rfl | hc
  · rfl
  · apply isSpace_of_isDigit hc

/-- The text of an integer is read as that integer. -/
theorem intOfText?_intText (k : ℤ) :
  intOfText? (intText k) = some k
  := by
  have hdigits := intDigits?_digits (natText k.natAbs) false 0
    (fun c hc => isDigit_of_mem_natText hc) (.inr (natText_ne_nil _))
  have hvalue : (natText k.natAbs).foldl (fun n c => 10 * n + (digit? c).getD 0) 0 = k.natAbs :=
    digitsValue_natText k.natAbs
  rw [intOfText?, stripBy_intText, splitSign_intText, hdigits, hvalue, Option.map_some]
  congr 1
  split
  · rename_i hneg
    rw [decide_eq_true_eq] at hneg
    omega
  · rename_i hneg
    rw [decide_eq_true_eq] at hneg
    omega

theorem toLower_of_isDigit {c : Char} (h : c.isDigit = true) :
  c.toLower = c
  := by
  rw [isDigit_iff] at h
  apply toLower_of_not_upper
  omega

theorem parseFinite?_natText (negative : Bool) (n : ℕ) :
  parseFinite? negative (natText n) = some ⟨negative, n, 0⟩
  := by
  have hdigits : ∀ c ∈ natText n, isDecimalDigit c = true :=
    fun c hc => isDecimalDigit_of_isDigit (isDigit_of_mem_natText hc)
  have htake : (natText n).takeWhile isDecimalDigit = natText n :=
    List.takeWhile_eq_self_iff.mpr hdigits
  have hdrop : (natText n).dropWhile isDecimalDigit = [] :=
    List.dropWhile_eq_nil_iff.mpr hdigits
  rw [parseFinite?, htake, hdrop]
  simp only [List.append_nil, if_neg (natText_ne_nil n), digitsValue_natText, List.length_nil]
  rfl

/-- The text of an integer is read as the decimal number with that value. -/
theorem parseDecimal?_intText (k : ℤ) :
  parseDecimal? (intText k) = some (.finite ⟨decide (k < 0), k.natAbs, 0⟩)
  := by
  have hfilter : (intText k).filter (fun c => c != '_') = intText k := by
    apply List.filter_eq_self.mpr
    intro c hc
    rcases mem_intText hc with rfl | hc
    · rfl
    · rw [bne_iff_ne]
      rintro rfl
      cases hc
  obtain ⟨c, cs, hcons⟩ := List.exists_cons_of_ne_nil (natText_ne_nil k.natAbs)
  have hdigit : c.isDigit = true := by
    apply isDigit_of_mem_natText (n := k.natAbs)
    rw [hcons]
    apply List.mem_cons_self
  have hword : ∀ d : Char, d.isDigit = false → c.toLower ≠ d := by
    rintro d hd rfl
    rw [toLower_of_isDigit hdigit, hdigit] at hd
    cases hd
  rw [parseDecimal?, stripBy_intText, hfilter, splitSign_intText]
  simp only [hcons, List.map_cons, List.take_succ_cons, String.reduceToList, List.cons.injEq,
    hword 'i' rfl, hword 'n' rfl, hword 's' rfl, false_and, or_self, if_false]
  rw [← hcons, parseFinite?_natText, Option.map_some]

theorem foldl_digits_replicate_zero (m : ℕ) :
  (List.replicate m '0').foldl (fun n c => 10 * n + (digit? c).getD 0) 0 = 0
  := by
  induction m with
  | zero => rfl
  | succ m ih =>
      rw [List.replicate_succ, List.foldl_cons]
      apply ih

theorem digitsValue_zeroPad (width n : ℕ) :
  digitsValue (zeroPad width n) = n
  := by
  rw [digitsValue, zeroPad, List.foldl_append, foldl_digits_replicate_zero]
  apply digitsValue_natText

theorem isDigit_of_mem_zeroPad {width n : ℕ} {c : Char} (h : c ∈ zeroPad width n) :
  c.isDigit = true
  := by
  rcases List.mem_append.mp h with h | h
  · rw [List.eq_of_mem_replicate h]
    rfl
  · apply isDigit_of_mem_natText h

/-- The digits of a number in positional notation, without its point. -/
theorem filter_fixedText (negative : Bool) (coefficient scale : ℕ) :
  (fixedText negative coefficient scale).filter (fun c => c != '.')
    = (if negative then ['-'] else []) ++ zeroPad (scale + 1) coefficient
  := by
  have hdigits : ∀ s : Text, (∀ c ∈ s, c ∈ zeroPad (scale + 1) coefficient) →
      s.filter (fun c => c != '.') = s := by
    intro s hs
    apply List.filter_eq_self.mpr
    intro c hc
    rw [bne_iff_ne]
    rintro rfl
    cases isDigit_of_mem_zeroPad (hs _ hc)
  have hsign : (if negative then ['-'] else []).filter (fun c => c != '.')
      = if negative then ['-'] else [] := by
    cases negative with
    | false => rfl
    | true => rfl
  rw [fixedText, List.filter_append, List.filter_append, hsign,
    hdigits _ (fun c hc => List.mem_of_mem_take hc)]
  congr 1
  split
  · rename_i hscale
    rw [List.filter_nil, List.append_nil, hscale]
    apply List.take_length
  · rw [List.filter_cons_of_neg (by decide), hdigits _ (fun c hc => List.mem_of_mem_drop hc)]
    apply List.take_append_drop

/-- The positional notation determines the number. -/
theorem fixedText_inj {negative negative' : Bool} {coefficient coefficient' scale : ℕ}
    (h : fixedText negative coefficient scale = fixedText negative' coefficient' scale) :
  negative = negative' ∧ coefficient = coefficient'
  := by
  have hsplit : ∀ (b : Bool) (n : ℕ),
      splitSign ((if b then ['-'] else []) ++ zeroPad (scale + 1) n)
        = (b, zeroPad (scale + 1) n) := by
    intro b n
    cases b with
    | false => apply splitSign_digits (fun c hc => isDigit_of_mem_zeroPad hc)
    | true => rfl
  have hparts := congrArg (fun s : Text => splitSign (s.filter (fun c => c != '.'))) h
  simp only [filter_fixedText, hsplit, Prod.mk.injEq] at hparts
  use hparts.1
  have hvalue := congrArg digitsValue hparts.2
  rw [digitsValue_zeroPad, digitsValue_zeroPad] at hvalue
  apply hvalue

/-- How a value that reads as an integer is normalised in a numeric column. -/
theorem normalizeDecimal_integer {value : PyValue} {k : ℤ} (h : value.text = intText k)
    (scale : ℕ) :
  normalizeDecimal value scale
    = if 10 ^ decimalPrecision ≤ k.natAbs * 10 ^ scale then .error .invalidOperation
      else .ok (fixedText (decide (k < 0)) (k.natAbs * 10 ^ scale) scale)
  := by
  have hrescaled : rescaled ⟨decide (k < 0), k.natAbs, 0⟩ scale = k.natAbs * 10 ^ scale := by
    simp [rescaled]
  simp only [normalizeDecimal, h, parseDecimal?_intText, quantize, hrescaled]
  split
  · rfl
  · rfl

/-- An integer is determined by its normalised text. -/
theorem normalizeDecimal_integer_inj {value value' : PyValue} {k k' : ℤ} {scale : ℕ} {s : Text}
    (h : value.text = intText k) (h' : value'.text = intText k')
    (hs : normalizeDecimal value scale = .ok s) (hs' : normalizeDecimal value' scale = .ok s) :
  k = k'
  := by
  rw [normalizeDecimal_integer h] at hs
  rw [normalizeDecimal_integer h'] at hs'
  split at hs
  · cases hs
  · split at hs'
    · cases hs'
    · obtain ⟨hsign, habs⟩ := fixedText_inj
        ((Except.ok.inj hs).trans (Except.ok.inj hs').symm)
      have habs := Nat.eq_of_mul_eq_mul_right (by positivity) habs
      rw [decide_eq_decide] at hsign
      omega

/-! ### Payloads -/

section Payload

variable {separator : Text}

theorem joinText_cons (s : Text) {rest : List Text} (h : rest ≠ []) :
  joinText separator (s :: rest) = s ++ (separator ++ joinText separator rest)
  := by
  obtain ⟨t, rest, rfl⟩ := List.exists_cons_of_ne_nil h
  rw [joinText, List.append_assoc]

/-- Flags in front of a joined text are determined by it, and so is the rest. -/
theorem joinText_flags_inj {flags flags' : List Bool} {rest rest' : List Text}
    (hlength : flags.length = flags'.length) (hrest : rest ≠ []) (hrest' : rest' ≠ [])
    (h : joinText separator (flags.map (fun b => if b then ['1'] else ['0']) ++ rest)
      = joinText separator (flags'.map (fun b => if b then ['1'] else ['0']) ++ rest')) :
  flags = flags' ∧ joinText separator rest = joinText separator rest'
  := by
  induction flags generalizing flags' with
  | nil =>
      obtain rfl := List.length_eq_zero_iff.mp hlength.symm
      exact ⟨rfl, h⟩
  | cons b flags ih =>
      obtain ⟨b', flags', rfl⟩ := List.exists_cons_of_length_eq_add_one hlength.symm
      rw [List.map_cons, List.map_cons, List.cons_append, List.cons_append,
        joinText_cons _ (List.append_ne_nil_of_right_ne_nil _ hrest),
        joinText_cons _ (List.append_ne_nil_of_right_ne_nil _ hrest')] at h
      obtain ⟨hflag, htail⟩ := List.append_inj h (by cases b <;> cases b' <;> rfl)
      obtain ⟨hflags, hjoin⟩ := ih (Nat.succ.inj hlength) (List.append_cancel_left htail)
      have hb : b = b' := by
        cases b with
        | false =>
            cases b' with
            | false => rfl
            | true => cases hflag
        | true =>
            cases b' with
            | false => cases hflag
            | true => rfl
      rw [hb, hflags]
      exact ⟨rfl, hjoin⟩

/-- A number in front of what does not start with a digit is determined by the text, and so is the
rest. -/
theorem natText_append_cons_inj {c d : Char} (hc : c.isDigit = false) (hd : d.isDigit = false)
    {m n : ℕ} {s t : Text} (h : natText m ++ c :: s = natText n ++ d :: t) :
  m = n ∧ c :: s = d :: t
  := by
  have htake : ∀ (k : ℕ) (e : Char) (r : Text), e.isDigit = false →
      (natText k ++ e :: r).takeWhile Char.isDigit = natText k := by
    intro k e r he
    rw [List.takeWhile_append_of_pos (fun f hf => isDigit_of_mem_natText hf),
      List.takeWhile_cons_of_neg (by simp [he]), List.append_nil]
  have hdigits : natText m = natText n := by
    rw [← htake m c s hc, h, htake n d t hd]
  have hvalue := congrArg digitsValue hdigits
  rw [digitsValue_natText, digitsValue_natText] at hvalue
  use hvalue
  rw [hdigits] at h
  exact List.append_cancel_left h

theorem natText_append_inj {c : Char} (hc : c.isDigit = false) {m n : ℕ} {s t : Text}
    (h : natText m ++ c :: s = natText n ++ c :: t) :
  m = n ∧ s = t
  := (natText_append_cons_inj hc hc h).imp_right List.tail_eq_of_cons_eq

/-- The joined values after their lengths are determined by the text. -/
theorem joinText_values_inj {c : Char} {tail : Text} (hc : c.isDigit = false)
    {values values' : List Text} (hlength : values.length = values'.length)
    (h : joinText (c :: tail) (values.flatMap (fun v => [natText v.length, v]))
      = joinText (c :: tail) (values'.flatMap (fun v => [natText v.length, v]))) :
  values = values'
  := by
  induction values generalizing values' with
  | nil => rw [List.length_eq_zero_iff.mp hlength.symm]
  | cons v values ih =>
      obtain ⟨v', values', rfl⟩ := List.exists_cons_of_length_eq_add_one hlength.symm
      have hlength := Nat.succ.inj hlength
      simp only [List.flatMap_cons, List.cons_append, List.nil_append] at h
      rw [joinText_cons _ (List.cons_ne_nil _ _), joinText_cons _ (List.cons_ne_nil _ _)] at h
      obtain ⟨hcount, h⟩ := natText_append_inj hc h
      have h := List.append_cancel_left h
      cases values with
      | nil =>
          obtain rfl := List.length_eq_zero_iff.mp hlength.symm
          simp only [List.flatMap_nil, joinText] at h
          rw [h]
      | cons w values =>
          obtain ⟨w', values', rfl⟩ := List.exists_cons_of_length_eq_add_one hlength.symm
          rw [joinText_cons _ (by simp), joinText_cons _ (by simp)] at h
          obtain ⟨hvalue, h⟩ := List.append_inj h hcount
          rw [hvalue, ih hlength (List.append_cancel_left h)]

/-- Under a separator that does not start with a digit, the payload determines the
identity. -/
theorem payloadOf_inj {rules : CompareRules} {c : Char} {tail : Text}
    (hseparator : rules.fieldSeparator = c :: tail) (hc : c.isDigit = false)
    {identity identity' : Identity} (hlength : identity.length = identity'.length)
    (h : payloadOf rules identity = payloadOf rules identity') :
  identity = identity'
  := by
  have hvalues : ∀ i : Identity, i.flatMap (fun p => [natText p.2.length, p.2])
      = (i.map Prod.snd).flatMap (fun v => [natText v.length, v]) := by
    intro i
    rw [List.flatMap_map]
  have hflags : ∀ i : Identity, i.map (fun p => if p.1 then ['1'] else ['0'])
      = (i.map Prod.fst).map (fun b => if b then ['1'] else ['0']) := by
    intro i
    rw [List.map_map]
    rfl
  cases identity with
  | nil => rw [List.length_eq_zero_iff.mp hlength.symm]
  | cons p rest =>
      obtain ⟨q, rest', rfl⟩ := List.exists_cons_of_length_eq_add_one hlength.symm
      rw [payloadOf, payloadOf, payloadParts, payloadParts, hflags, hflags, hvalues, hvalues,
        hseparator] at h
      obtain ⟨hfst, hjoin⟩ := joinText_flags_inj (by simpa using hlength) (by simp) (by simp) h
      have hsnd := joinText_values_inj hc (by simpa using hlength) hjoin
      rw [← List.zip_unzip (p :: rest), ← List.zip_unzip (q :: rest'), List.unzip_eq_map,
        List.unzip_eq_map, hfst, hsnd]

end Payload

end Compare

import DataOpsStudio.Compare.Pushdown

/-!
# Texts of decimal numbers

The text of a decimal number is read back as that number, with its sign, its coefficient and its
exponent, and its coefficient at some number of fraction digits is the rounding of its value.
-/

namespace Compare

open Text

/-! ### Reading a text back -/

/-- A fraction with its point, when there is one. -/
def fractionText (fraction : Text) : Text := if fraction = [] then [] else '.' :: fraction

/-- An exponent, when it is not zero. -/
def exponentText (x : ℤ) : Text :=
  if x = 0 then [] else if x < 0 then 'E' :: intText x else 'E' :: '+' :: intText x

theorem exponentText_head (x : ℤ) :
  exponentText x = [] ∨ ∃ s, exponentText x = 'E' :: s
  := by
  rw [exponentText]
  split
  · left
    rfl
  · right
    split
    · exact ⟨_, rfl⟩
    · exact ⟨_, rfl⟩

theorem isDecimalDigit_intText_natAbs (x : ℤ) :
  (natText x.natAbs).all isDecimalDigit = true
  := by
  apply List.all_eq_true.mpr
  intro c hc
  apply isDecimalDigit_of_isDigit (isDigit_of_mem_natText hc)

/-- The exponent that is shown is read back. -/
theorem parseExponent?_tail {x : ℤ} {s : Text} (h : exponentText x = 'E' :: s) :
  parseExponent? s = some x
  := by
  have hdigits := isDecimalDigit_intText_natAbs x
  rw [exponentText] at h
  split at h
  · cases h
  · split at h
    · rename_i hneg
      obtain rfl := (List.cons.inj h).2
      rw [parseExponent?, splitSign_intText]
      simp only [hdigits, ne_eq, natText_ne_nil, not_false_eq_true, and_self, if_true, hneg,
        decide_true, digitsValue_natText]
      congr 1
      omega
    · rename_i hneg
      obtain rfl := (List.cons.inj h).2
      have hnat : intText x = natText x.natAbs := by
        obtain ⟨n, rfl⟩ := Int.eq_ofNat_of_zero_le (not_lt.mp hneg)
        rfl
      rw [parseExponent?, splitSign, hnat]
      simp only [hdigits, ne_eq, natText_ne_nil, not_false_eq_true, and_self, if_true,
        digitsValue_natText]
      congr 1
      simp only [Bool.false_eq_true, if_false]
      omega

/-- Digits, a fraction and an exponent are read as the number they stand for. -/
theorem parseFinite?_parts {negative : Bool} {whole fraction : Text} {x : ℤ}
    (hwhole : ∀ c ∈ whole, isDecimalDigit c = true) (hne : whole ≠ [])
    (hfraction : ∀ c ∈ fraction, isDecimalDigit c = true) :
  parseFinite? negative (whole ++ (fractionText fraction ++ exponentText x))
    = some ⟨negative, digitsValue (whole ++ fraction), x - fraction.length⟩
  := by
  -- what is left after the fraction starts with no digit and no point
  have htail : ∀ s : Text, (∀ c ∈ s, isDecimalDigit c = true) →
      (s ++ exponentText x).takeWhile isDecimalDigit = s
        ∧ (s ++ exponentText x).dropWhile isDecimalDigit = exponentText x := by
    intro s hs
    rw [List.takeWhile_append_of_pos hs, List.dropWhile_append_of_pos hs]
    rcases exponentText_head x with hx | ⟨r, hx⟩
    · rw [hx]
      exact ⟨List.append_nil s, rfl⟩
    · rw [hx, List.takeWhile_cons_of_neg (by decide), List.dropWhile_cons_of_neg (by decide)]
      exact ⟨List.append_nil s, rfl⟩
  have hzero : exponentText x = [] → x = 0 := by
    intro hx
    rw [exponentText] at hx
    by_contra hne
    rw [if_neg hne] at hx
    split at hx
    · cases hx
    · cases hx
  have hnonempty : whole ++ fraction ≠ [] := by simp [hne]
  rw [parseFinite?]
  by_cases hf : fraction = []
  · rw [fractionText, if_pos hf, List.nil_append, (htail whole hwhole).1, (htail whole hwhole).2]
    subst hf
    rcases exponentText_head x with hx | ⟨r, hx⟩
    · rw [hx, hzero hx, zero_sub]
      exact if_neg hnonempty
    · have hexponent : (parseExponent? r).map (fun x => (⟨negative, digitsValue (whole ++ []),
          x - ([] : Text).length⟩ : Decimal))
          = some ⟨negative, digitsValue (whole ++ []), x - ([] : Text).length⟩ := by
        rw [parseExponent?_tail hx, Option.map_some]
      rw [hx]
      exact (if_neg hnonempty).trans ((if_pos (.inr rfl)).trans hexponent)
  · rw [fractionText, if_neg hf, List.takeWhile_append_of_pos hwhole,
      List.dropWhile_append_of_pos hwhole, List.cons_append,
      List.takeWhile_cons_of_neg (by decide), List.dropWhile_cons_of_neg (by decide)]
    simp only [List.append_nil, (htail fraction hfraction).1, (htail fraction hfraction).2,
      if_neg hnonempty]
    rcases exponentText_head x with hx | ⟨r, hx⟩
    · rw [hx, hzero hx, zero_sub]
    · rw [hx]
      simp only [or_true, if_true, parseExponent?_tail hx, Option.map_some]

/-- A text that starts with a digit after its sign is read as a finite number. -/
theorem parseDecimal?_sign {negative : Bool} {c : Char} {s : Text} (hc : c.isDigit = true)
    (hs : ∀ d ∈ s, isSpace d = false ∧ d ≠ '_') :
  parseDecimal? ((if negative then ['-'] else []) ++ c :: s)
    = (parseFinite? negative (c :: s)).map .finite
  := by
  have hall : ∀ d ∈ (if negative then ['-'] else []) ++ c :: s, isSpace d = false ∧ d ≠ '_' := by
    intro d hd
    rcases List.mem_append.mp hd with hd | hd
    · cases negative with
      | false => cases hd
      | true =>
          rw [List.mem_singleton.mp hd]
          decide
    · rcases List.mem_cons.mp hd with rfl | hd
      · use isSpace_of_isDigit hc
        rintro rfl
        cases hc
      · apply hs d hd
  have hfilter : ((if negative then ['-'] else []) ++ c :: s).filter (fun c => c != '_')
      = (if negative then ['-'] else []) ++ c :: s := by
    apply List.filter_eq_self.mpr
    intro d hd
    rw [bne_iff_ne]
    apply (hall d hd).2
  have hsplit : splitSign ((if negative then ['-'] else []) ++ c :: s) = (negative, c :: s) := by
    cases negative with
    | true => rfl
    | false =>
        show splitSign (c :: s) = (false, c :: s)
        rw [splitSign]
        · intro t heq
          rw [List.head_eq_of_cons_eq heq] at hc
          cases hc
        · intro t heq
          rw [List.head_eq_of_cons_eq heq] at hc
          cases hc
  have hword : ∀ d : Char, d.isDigit = false → c.toLower ≠ d := by
    rintro d hd rfl
    rw [toLower_of_isDigit hc, hc] at hd
    cases hd
  rw [parseDecimal?, stripBy_of_forall (fun d hd => (hall d hd).1), hfilter, hsplit]
  simp only [List.map_cons, List.take_succ_cons, String.reduceToList, List.cons.injEq,
    hword 'i' rfl, hword 'n' rfl, hword 's' rfl, false_and, or_self, if_false]

/-! ### The parts of a text -/

theorem digitsValue_append_zeros (m : ℕ) (s : Text) :
  digitsValue (List.replicate m '0' ++ s) = digitsValue s
  := by
  rw [digitsValue, List.foldl_append, foldl_digits_replicate_zero]
  rfl

/-- The digits, the fraction and the exponent that the text of a number has. -/
theorem Decimal.text_parts (d : Decimal) :
  ∃ (whole fraction : Text) (x : ℤ),
    (∀ c ∈ whole, c.isDigit = true) ∧ whole ≠ [] ∧ (∀ c ∈ fraction, c.isDigit = true)
      ∧ d.text = (if d.negative then ['-'] else [])
          ++ (whole ++ (fractionText fraction ++ exponentText x))
      ∧ digitsValue (whole ++ fraction) = d.coefficient
      ∧ x - fraction.length = d.exponent
  := by
  have hdigits : ∀ c ∈ natText d.coefficient, c.isDigit = true :=
    fun c hc => isDigit_of_mem_natText hc
  have hlength : 0 < (natText d.coefficient).length :=
    List.length_pos_of_ne_nil (natText_ne_nil _)
  have hscale : ∀ a b : ℤ, (if a = b then [] else if a < b then 'E' :: intText (a - b)
      else 'E' :: '+' :: intText (a - b)) = exponentText (a - b) := by
    intro a b
    simp only [exponentText, sub_eq_zero, sub_neg]
  rw [Decimal.text]
  simp only [hscale]
  generalize hdot : (if d.exponent ≤ 0 ∧ -6 < d.exponent + ((natText d.coefficient).length : ℤ)
    then d.exponent + ((natText d.coefficient).length : ℤ) else 1) = dotPlace
  by_cases hsmall : dotPlace ≤ 0
  · -- only a plain number has its point before its digits
    have hplace : d.exponent + ((natText d.coefficient).length : ℤ) = dotPlace := by
      split at hdot
      · apply hdot
      · omega
    refine ⟨['0'], List.replicate (-dotPlace).toNat '0' ++ natText d.coefficient, 0, by decide,
      by decide, ?_, ?_, ?_, ?_⟩
    · intro c hc
      rcases List.mem_append.mp hc with hc | hc
      · rw [List.eq_of_mem_replicate hc]
        rfl
      · apply hdigits c hc
    · have hfraction : fractionText
            (List.replicate (-dotPlace).toNat '0' ++ natText d.coefficient)
          = '.' :: (List.replicate (-dotPlace).toNat '0' ++ natText d.coefficient) :=
        if_neg (List.append_ne_nil_of_right_ne_nil _ (natText_ne_nil _))
      rw [if_pos hsmall, hplace, sub_self, hfraction]
      simp [List.append_assoc]
    · rw [← List.append_assoc]
      have := digitsValue_append_zeros ((-dotPlace).toNat + 1) (natText d.coefficient)
      rw [List.replicate_succ, digitsValue_natText] at this
      exact this
    · rw [List.length_append, List.length_replicate]
      omega
  · have hle : dotPlace ≤ (natText d.coefficient).length := by
      split at hdot
      · omega
      · omega
    by_cases hwhole : ((natText d.coefficient).length : ℤ) ≤ dotPlace
    · refine ⟨natText d.coefficient, [], d.exponent, hdigits, natText_ne_nil _, by simp, ?_, ?_, ?_⟩
      · have hzero : dotPlace.toNat - (natText d.coefficient).length = 0 := by omega
        have hexponent : d.exponent + ((natText d.coefficient).length : ℤ) - dotPlace
            = d.exponent := by omega
        rw [if_neg hsmall, if_pos hwhole, hzero, hexponent]
        simp [fractionText, List.append_assoc]
      · rw [List.append_nil, digitsValue_natText]
      · simp
    · refine ⟨(natText d.coefficient).take dotPlace.toNat,
        (natText d.coefficient).drop dotPlace.toNat,
        d.exponent + ((natText d.coefficient).length : ℤ) - dotPlace,
        fun c hc => hdigits c (List.mem_of_mem_take hc), ?_,
        fun c hc => hdigits c (List.mem_of_mem_drop hc), ?_, ?_, ?_⟩
      · rw [ne_eq, List.take_eq_nil_iff]
        rintro (hzero | hnil)
        · omega
        · apply natText_ne_nil _ hnil
      · have hdrop : (natText d.coefficient).drop dotPlace.toNat ≠ [] := by
          rw [ne_eq, List.drop_eq_nil_iff]
          omega
        rw [if_neg hsmall, if_neg hwhole, fractionText, if_neg hdrop]
        simp [List.append_assoc]
      · rw [List.take_append_drop, digitsValue_natText]
      · rw [List.length_drop]
        omega

/-- The text of a number is read back as the number. -/
theorem parseDecimal?_text (d : Decimal) :
  parseDecimal? d.text = some (.finite d)
  := by
  obtain ⟨whole, fraction, x, hwhole, hne, hfraction, htext, hvalue, hexponent⟩ := d.text_parts
  have hplain : ∀ c ∈ fractionText fraction ++ exponentText x, isSpace c = false ∧ c ≠ '_' := by
    have hdigit : ∀ c : Char, c.isDigit = true → isSpace c = false ∧ c ≠ '_' := by
      intro c hc
      use isSpace_of_isDigit hc
      rintro rfl
      cases hc
    have hint : ∀ c ∈ intText x, isSpace c = false ∧ c ≠ '_' := by
      intro c hc
      rcases mem_intText hc with rfl | hc
      · decide
      · apply hdigit c hc
    intro c hc
    rcases List.mem_append.mp hc with hc | hc
    · rw [fractionText] at hc
      split at hc
      · cases hc
      · rcases List.mem_cons.mp hc with rfl | hc
        · decide
        · apply hdigit c (hfraction c hc)
    · rw [exponentText] at hc
      split at hc
      · cases hc
      · split at hc
        · rcases List.mem_cons.mp hc with rfl | hc
          · decide
          · apply hint c hc
        · rcases List.mem_cons.mp hc with rfl | hc
          · decide
          · rcases List.mem_cons.mp hc with rfl | hc
            · decide
            · apply hint c hc
  obtain ⟨c, cs, rfl⟩ := List.exists_cons_of_ne_nil hne
  have hcs : ∀ e ∈ cs ++ (fractionText fraction ++ exponentText x), isSpace e = false ∧ e ≠ '_' := by
    intro e he
    rcases List.mem_append.mp he with he | he
    · use isSpace_of_isDigit (hwhole e (List.mem_cons_of_mem _ he))
      rintro rfl
      cases hwhole _ (List.mem_cons_of_mem _ he)
    · apply hplain e he
  rw [htext, List.cons_append, parseDecimal?_sign (hwhole c List.mem_cons_self) hcs,
    ← List.cons_append, parseFinite?_parts (fun e he => isDecimalDigit_of_isDigit (hwhole e he))
      hne (fun e he => isDecimalDigit_of_isDigit (hfraction e he)), hvalue, hexponent,
    Option.map_some]

/-! ### Rounding -/

theorem roundHalfAway_neg (q : ℚ) :
  roundHalfAway (-q) = -roundHalfAway q
  := by
  rcases lt_trichotomy q 0 with hq | rfl | hq
  · rw [roundHalfAway, roundHalfAway, if_pos (by linarith), if_neg (by linarith), neg_neg]
  · decide +kernel
  · rw [roundHalfAway, roundHalfAway, if_neg (by linarith), if_pos (by linarith), neg_neg]

theorem roundHalfAway_natCast (n : ℕ) :
  roundHalfAway n = n
  := by
  rw [roundHalfAway, if_pos (Nat.cast_nonneg n), Int.floor_eq_iff]
  constructor
  · push_cast
    linarith
  · push_cast
    linarith

theorem roundHalfAway_intCast (n : ℤ) :
  roundHalfAway n = n
  := by
  rcases Int.eq_nat_or_neg n with ⟨k, rfl | rfl⟩
  · exact_mod_cast roundHalfAway_natCast k
  · rw [Int.cast_neg, roundHalfAway_neg]
    congr 1
    exact_mod_cast roundHalfAway_natCast k

/-- The nearest integer of a quotient of natural numbers. -/
theorem roundHalfAway_div (n unit : ℕ) (hunit : 0 < unit) :
  roundHalfAway ((n : ℚ) / unit) = ((2 * n + unit) / (2 * unit) : ℕ)
  := by
  have hpos : (0 : ℚ) < unit := by exact_mod_cast hunit
  have hsum : (n : ℚ) / unit + 1 / 2 = ((2 * n + unit : ℕ) : ℚ) / ((2 * unit : ℕ) : ℚ) := by
    push_cast
    field_simp
  rw [roundHalfAway, if_pos (by positivity), hsum]
  rw [Rat.floor_natCast_div_natCast, Int.natCast_div]

/-- The coefficient at a scale, with its sign, is the rounding of the value. -/
theorem roundHalfAway_value (d : Decimal) (scale : ℕ) :
  roundHalfAway (d.value * 10 ^ scale)
    = if d.negative then -(rescaled d scale : ℤ) else (rescaled d scale : ℤ)
  := by
  have hmagnitude : roundHalfAway ((d.coefficient : ℚ) * (10 : ℚ) ^ (d.exponent + scale))
      = rescaled d scale := by
    rw [rescaled]
    split
    · rename_i hshift
      obtain ⟨k, hk⟩ := Int.eq_ofNat_of_zero_le hshift
      rw [hk, Int.toNat_natCast, zpow_natCast]
      exact_mod_cast roundHalfAway_natCast (d.coefficient * 10 ^ k)
    · rename_i hshift
      obtain ⟨k, hk⟩ := Int.eq_ofNat_of_zero_le (show 0 ≤ -(d.exponent + scale) by omega)
      have hdiv : (d.coefficient : ℚ) * (10 : ℚ) ^ (d.exponent + scale)
          = (d.coefficient : ℚ) / ((10 ^ k : ℕ) : ℚ) := by
        rw [show d.exponent + (scale : ℤ) = -(k : ℤ) by omega, zpow_neg, zpow_natCast,
          div_eq_mul_inv]
        push_cast
        rfl
      rw [hdiv, roundHalfAway_div _ _ (by positivity), hk, Int.toNat_natCast]
  have hvalue : d.value * 10 ^ scale
      = (if d.negative then -1 else 1) * ((d.coefficient : ℚ) * (10 : ℚ) ^ (d.exponent + scale)) := by
    rw [Decimal.value, zpow_add₀ (by norm_num), zpow_natCast]
    ring
  rw [hvalue]
  cases d.negative with
  | false =>
      rw [if_neg Bool.false_ne_true, one_mul, hmagnitude, if_neg Bool.false_ne_true]
  | true => rw [if_pos rfl, neg_one_mul, roundHalfAway_neg, hmagnitude, if_pos rfl]

end Compare

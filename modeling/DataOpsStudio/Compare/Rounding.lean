import DataOpsStudio.Compare.Value
import Mathlib.Tactic.Linarith

/-!
# Rounding to doubles

Rounding keeps the order of numbers, though not strictly: two numbers may be rounded to one double.
-/

namespace Compare

/-! ### Rounding to integers -/

theorem floor_le_roundHalfEven (q : ℚ) :
  ⌊q⌋ ≤ roundHalfEven q
  := by
  simp only [roundHalfEven]
  split_ifs <;> omega

theorem roundHalfEven_le_floor_add_one (q : ℚ) :
  roundHalfEven q ≤ ⌊q⌋ + 1
  := by
  simp only [roundHalfEven]
  split_ifs <;> omega

theorem roundHalfEven_intCast (n : ℤ) :
  roundHalfEven n = n
  := by
  simp [roundHalfEven]

theorem roundHalfEven_mono {p q : ℚ} (h : p ≤ q) :
  roundHalfEven p ≤ roundHalfEven q
  := by
  rcases lt_or_eq_of_le (Int.floor_le_floor h) with hlt | heq
  · have hp := roundHalfEven_le_floor_add_one p
    have hq := floor_le_roundHalfEven q
    omega
  · -- the integers below are the same, and the rest of the second number is not smaller
    simp only [roundHalfEven, heq]
    split_ifs <;> first | omega | linarith

theorem roundHalfEven_neg (q : ℚ) :
  roundHalfEven (-q) = -roundHalfEven q
  := by
  have hlow := Int.floor_le q
  have hhigh := Int.lt_floor_add_one q
  rcases lt_or_eq_of_le hlow with hlt | heq
  · have hfloor : ⌊-q⌋ = -⌊q⌋ - 1 := by
      rw [Int.floor_eq_iff]
      push_cast
      constructor
      · linarith
      · linarith
    simp only [roundHalfEven, hfloor]
    push_cast
    split_ifs <;> first | omega | linarith
  · rw [← heq, ← Int.cast_neg, roundHalfEven_intCast, roundHalfEven_intCast]

/-! ### Rounding to doubles -/

/-- The exponent of the last bit of a number that is kept. -/
def lastBit (q : ℚ) : ℤ := max (Int.log 2 |q| - 52) (-1074)

theorem roundDouble_of_ne_zero {q : ℚ} (h : q ≠ 0) :
  roundDouble q = roundHalfEven (q / (2 : ℚ) ^ lastBit q) * (2 : ℚ) ^ lastBit q
  := by
  rw [roundDouble, if_neg h]
  rfl

theorem roundDouble_neg (q : ℚ) :
  roundDouble (-q) = -roundDouble q
  := by
  by_cases h : q = 0
  · rw [h, neg_zero]
    simp [roundDouble]
  · rw [roundDouble_of_ne_zero h, roundDouble_of_ne_zero (neg_ne_zero.mpr h), lastBit, abs_neg,
      ← lastBit, neg_div, roundHalfEven_neg, Int.cast_neg, neg_mul]

theorem roundDouble_nonneg {q : ℚ} (h : 0 ≤ q) :
  0 ≤ roundDouble q
  := by
  rcases eq_or_lt_of_le h with rfl | hpos
  · simp [roundDouble]
  · have hunit : (0 : ℚ) < (2 : ℚ) ^ lastBit q := zpow_pos two_pos _
    have hround : 0 ≤ roundHalfEven (q / (2 : ℚ) ^ lastBit q) := by
      apply le_trans _ (floor_le_roundHalfEven _)
      exact Int.floor_nonneg.mpr (div_nonneg h hunit.le)
    rw [roundDouble_of_ne_zero hpos.ne']
    exact mul_nonneg (Int.cast_nonneg hround) hunit.le

/-- A power of two above the last bit of a number is kept. -/
theorem zpow_div_lastBit {q : ℚ} {n : ℤ} (h : lastBit q ≤ n) :
  ∃ k : ℤ, (k : ℚ) = (2 : ℚ) ^ n / (2 : ℚ) ^ lastBit q
  := by
  obtain ⟨m, hm⟩ := Int.eq_ofNat_of_zero_le (sub_nonneg.mpr h)
  use 2 ^ m
  rw [← zpow_sub₀ two_ne_zero, hm]
  simp

theorem roundDouble_le_zpow {q : ℚ} {n : ℤ} (hpos : 0 < q) (hbit : lastBit q ≤ n)
    (h : q ≤ (2 : ℚ) ^ n) :
  roundDouble q ≤ (2 : ℚ) ^ n
  := by
  obtain ⟨k, hk⟩ := zpow_div_lastBit hbit
  have hunit : (0 : ℚ) < (2 : ℚ) ^ lastBit q := zpow_pos two_pos _
  rw [roundDouble_of_ne_zero hpos.ne', ← le_div_iff₀ hunit, ← hk, Int.cast_le]
  rw [← roundHalfEven_intCast k]
  apply roundHalfEven_mono
  rw [hk]
  exact (div_le_div_iff_of_pos_right hunit).mpr h

theorem zpow_le_roundDouble {q : ℚ} {n : ℤ} (hpos : 0 < q) (hbit : lastBit q ≤ n)
    (h : (2 : ℚ) ^ n ≤ q) :
  (2 : ℚ) ^ n ≤ roundDouble q
  := by
  obtain ⟨k, hk⟩ := zpow_div_lastBit hbit
  have hunit : (0 : ℚ) < (2 : ℚ) ^ lastBit q := zpow_pos two_pos _
  rw [roundDouble_of_ne_zero hpos.ne', ← div_le_iff₀ hunit, ← hk, Int.cast_le]
  rw [← roundHalfEven_intCast k]
  apply roundHalfEven_mono
  rw [hk]
  exact (div_le_div_iff_of_pos_right hunit).mpr h

theorem roundDouble_mono_of_pos {p q : ℚ} (hpos : 0 < p) (h : p ≤ q) :
  roundDouble p ≤ roundDouble q
  := by
  have hq : 0 < q := lt_of_lt_of_le hpos h
  have hlog : Int.log 2 p ≤ Int.log 2 q := Int.log_mono_right hpos h
  have hbits : lastBit p ≤ lastBit q := by
    rw [lastBit, lastBit, abs_of_pos hpos, abs_of_pos hq]
    omega
  rcases lt_or_eq_of_le hbits with hlt | heq
  · -- the first bit of the greater number stands between the two
    have hfirst : Int.log 2 p + 1 ≤ Int.log 2 q ∧ lastBit p ≤ Int.log 2 q
        ∧ lastBit q ≤ Int.log 2 q := by
      rw [lastBit, lastBit, abs_of_pos hpos, abs_of_pos hq] at hlt ⊢
      omega
    obtain ⟨hsucc, hp, hq'⟩ := hfirst
    calc roundDouble p
        ≤ (2 : ℚ) ^ Int.log 2 q := by
          apply roundDouble_le_zpow hpos hp
          apply le_trans (Int.lt_zpow_succ_log_self Nat.one_lt_two p).le
          exact zpow_le_zpow_right₀ one_le_two hsucc
      _ ≤ roundDouble q := zpow_le_roundDouble hq hq' (Int.zpow_log_le_self Nat.one_lt_two hq)
  · rw [roundDouble_of_ne_zero hpos.ne', roundDouble_of_ne_zero hq.ne', heq]
    have hunit : (0 : ℚ) < (2 : ℚ) ^ lastBit q := zpow_pos two_pos _
    apply mul_le_mul_of_nonneg_right _ hunit.le
    rw [Int.cast_le]
    exact roundHalfEven_mono ((div_le_div_iff_of_pos_right hunit).mpr h)

/-- Numbers are rounded to doubles in their order. -/
theorem roundDouble_mono {p q : ℚ} (h : p ≤ q) :
  roundDouble p ≤ roundDouble q
  := by
  rcases lt_or_ge 0 p with hp | hp
  · exact roundDouble_mono_of_pos hp h
  · have hneg : roundDouble p ≤ 0 := by
      rw [← neg_neg p, roundDouble_neg]
      exact neg_nonpos.mpr (roundDouble_nonneg (neg_nonneg.mpr hp))
    rcases lt_or_ge q 0 with hq | hq
    · have hmono := roundDouble_mono_of_pos (neg_pos.mpr hq) (neg_le_neg h)
      rw [roundDouble_neg, roundDouble_neg] at hmono
      exact neg_le_neg_iff.mp hmono
    · exact le_trans hneg (roundDouble_nonneg hq)

end Compare

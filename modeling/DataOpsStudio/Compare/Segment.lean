import DataOpsStudio.Library.Tiling
import Mathlib.Tactic.Linarith

/-!
# Segments of a key range

A compare segment is a half-open range of an integer key column.  `splitSegment` cuts a
segment into at most `factor` consecutive segments; the pieces tile the parent, and
each is strictly narrower than a parent of width above one.
-/

namespace Compare

/-- Half-open single-column key range from `start` to `stop`. -/
structure CompareSegment where
  keyColumn : String
  start : ℤ
  stop : ℤ
  start_le_stop : start ≤ stop
deriving DecidableEq

namespace CompareSegment

/-- The number of integers in the range. -/
def estimatedRows (segment : CompareSegment) : ℕ := (segment.stop - segment.start).toNat

/-- The range as a pair of bounds. -/
def bounds (segment : CompareSegment) : ℤ × ℤ := (segment.start, segment.stop)

/-- Whether a key lies in the range. -/
def Holds (segment : CompareSegment) (key : ℤ) : Prop :=
  segment.start ≤ key ∧ key < segment.stop

instance (segment : CompareSegment) (key : ℤ) : Decidable (segment.Holds key) :=
  inferInstanceAs (Decidable (_ ∧ _))

/-- One range lies within another. -/
def Within (inner outer : CompareSegment) : Prop :=
  outer.start ≤ inner.start ∧ inner.stop ≤ outer.stop

theorem Within.trans {a b c : CompareSegment} (hab : a.Within b) (hbc : b.Within c) :
  a.Within c
  := ⟨le_trans hbc.1 hab.1, le_trans hab.2 hbc.2⟩

end CompareSegment

/-- The loop of `splitSegment`: cut segments of `chunk` keys off the range from `start` to
`stop` until nothing is left. -/
def splitLoop (keyColumn : String) (stop : ℤ) (chunk : ℕ) (hchunk : 0 < chunk) (start : ℤ) :
    List CompareSegment :=
  if h : start < stop then
    let next := min stop (start + chunk)
    ⟨keyColumn, start, next, by omega⟩ :: splitLoop keyColumn stop chunk hchunk next
  else []
termination_by (stop - start).toNat
decreasing_by
  simp_wf
  omega

/-- The number of keys of each piece but the last. -/
def chunkSize (width factor : ℕ) : ℕ := max 1 ((width + factor - 1) / factor)

theorem chunkSize_pos (width factor : ℕ) :
  0 < chunkSize width factor
  := lt_of_lt_of_le Nat.zero_lt_one (le_max_left _ _)

/-- Cut a segment into consecutive segments, at most `factor` of them. -/
def splitSegment (segment : CompareSegment) (factor : ℕ) : List CompareSegment :=
  let width := segment.estimatedRows
  if width = 0 then []
  else splitLoop segment.keyColumn segment.stop (chunkSize width factor) (chunkSize_pos _ _)
    segment.start

/-! ### The pieces tile the parent -/

theorem splitLoop_tiles (keyColumn : String) (stop : ℤ) (chunk : ℕ) (hchunk : 0 < chunk)
    (start : ℤ) (hle : start ≤ stop) :
  Tiles start stop ((splitLoop keyColumn stop chunk hchunk start).map CompareSegment.bounds)
  := by
  induction start using splitLoop.induct stop chunk hchunk with
  | case1 start h next ih =>
      rw [splitLoop, dif_pos h, List.map_cons]
      apply Tiles.cons
      · show start < min stop (start + chunk)
        omega
      · apply ih
        apply min_le_left
  | case2 start h =>
      rw [splitLoop, dif_neg h]
      obtain rfl : start = stop := le_antisymm hle (not_lt.mp h)
      apply Tiles.nil

/-- The pieces are nonempty, consecutive, and cover exactly the parent range. -/
theorem splitSegment_tiles (segment : CompareSegment) (factor : ℕ) :
  Tiles segment.start segment.stop
    ((splitSegment segment factor).map CompareSegment.bounds)
  := by
  rw [splitSegment]
  split
  · rename_i hwidth
    have heq : segment.start = segment.stop := by
      have := segment.start_le_stop
      rw [CompareSegment.estimatedRows] at hwidth
      omega
    rw [heq]
    apply Tiles.nil
  · apply splitLoop_tiles
    apply segment.start_le_stop

/-- Every piece lies within the parent. -/
theorem within_of_mem_splitSegment {segment piece : CompareSegment} {factor : ℕ}
    (h : piece ∈ splitSegment segment factor) :
  piece.Within segment
  := by
  have hbounds := (splitSegment_tiles segment factor).bounds_of_mem
    (List.mem_map_of_mem (f := CompareSegment.bounds) h)
  exact ⟨hbounds.1, hbounds.2.2⟩

/-- No piece is empty. -/
theorem estimatedRows_pos_of_mem_splitSegment {segment piece : CompareSegment} {factor : ℕ}
    (h : piece ∈ splitSegment segment factor) :
  0 < piece.estimatedRows
  := by
  have hbounds := (splitSegment_tiles segment factor).bounds_of_mem
    (List.mem_map_of_mem (f := CompareSegment.bounds) h)
  have hlt : piece.start < piece.stop := hbounds.2.1
  rw [CompareSegment.estimatedRows]
  omega

/-! ### The pieces are narrower than the parent -/

theorem stop_le_of_mem_splitLoop {keyColumn : String} {stop : ℤ} {chunk : ℕ}
    {hchunk : 0 < chunk} {start : ℤ} {piece : CompareSegment}
    (h : piece ∈ splitLoop keyColumn stop chunk hchunk start) :
  piece.stop ≤ piece.start + chunk
  := by
  induction start using splitLoop.induct stop chunk hchunk with
  | case1 start hlt next ih =>
      rw [splitLoop, dif_pos hlt] at h
      rcases List.mem_cons.mp h with rfl | h
      · apply min_le_right
      · apply ih h
  | case2 start hlt =>
      rw [splitLoop, dif_neg hlt] at h
      cases h

theorem chunkSize_lt {width factor : ℕ} (hwidth : 1 < width) (hfactor : 2 ≤ factor) :
  chunkSize width factor < width
  := by
  have hdiv : (width + factor - 1) / factor < width := by
    rw [Nat.div_lt_iff_lt_mul (by omega)]
    nlinarith [Nat.sub_le (width + factor) 1,
      Nat.mul_le_mul_left width hfactor, Nat.sub_add_cancel (show 1 ≤ width + factor by omega)]
  rw [chunkSize]
  omega

/-- Every piece of a segment of width above one is strictly narrower than the segment. -/
theorem estimatedRows_lt_of_mem_splitSegment {segment piece : CompareSegment} {factor : ℕ}
    (hwidth : 1 < segment.estimatedRows) (hfactor : 2 ≤ factor)
    (h : piece ∈ splitSegment segment factor) :
  piece.estimatedRows < segment.estimatedRows
  := by
  have hchunk := chunkSize_lt hwidth hfactor
  rw [splitSegment, if_neg (by omega)] at h
  have hstop := stop_le_of_mem_splitLoop h
  rw [CompareSegment.estimatedRows]
  omega

end Compare

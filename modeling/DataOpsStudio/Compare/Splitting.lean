import DataOpsStudio.Compare.Hashdiff
import DataOpsStudio.Library.Outcome
import Mathlib.Order.WellFounded

/-!
# Splitting a segment ends

A segment is cut into consecutive, disjoint and nonempty segments of the same column, no
more than the factor, that hold the keys of the segment and no others.  The stack of the
hashdiff loop loses a segment with every step or has it replaced by narrower ones, so that
no run of the loop is endless, whatever the readers answer and however deep it may go.
-/

universe u

namespace Compare

/-! ### The pieces of a segment -/

theorem keyColumn_of_mem_splitLoop {keyColumn : String} {stop : ℤ} {chunk : ℕ}
    {hchunk : 0 < chunk} {start : ℤ} {piece : CompareSegment}
    (h : piece ∈ splitLoop keyColumn stop chunk hchunk start) :
  piece.keyColumn = keyColumn
  := by
  induction start using splitLoop.induct stop chunk hchunk with
  | case1 start hlt next ih =>
      rw [splitLoop, dif_pos hlt] at h
      rcases List.mem_cons.mp h with rfl | h
      · rfl
      · apply ih h
  | case2 start hlt =>
      rw [splitLoop, dif_neg hlt] at h
      cases h

theorem keyColumn_of_mem_splitSegment {segment piece : CompareSegment} {factor : ℕ}
    (h : piece ∈ splitSegment segment factor) :
  piece.keyColumn = segment.keyColumn
  := by
  rw [splitSegment] at h
  split at h
  · cases h
  · apply keyColumn_of_mem_splitLoop h

/-- All pieces but the last have `chunk` keys, and the last one has a key. -/
theorem length_splitLoop (keyColumn : String) (stop : ℤ) (chunk : ℕ) (hchunk : 0 < chunk)
    (start : ℤ) :
  (splitLoop keyColumn stop chunk hchunk start).length * chunk
    < (stop - start).toNat + chunk
  := by
  induction start using splitLoop.induct stop chunk hchunk with
  | case1 start hlt next ih =>
      rw [splitLoop, dif_pos hlt, List.length_cons, Nat.succ_mul]
      rcases le_total stop (start + chunk) with hlast | hmore
      · rw [min_eq_left hlast, splitLoop, dif_neg (lt_irrefl _), List.length_nil]
        omega
      · have hnext : next = start + chunk := min_eq_right hmore
        rw [show min stop (start + chunk) = next from rfl]
        omega
  | case2 start hlt =>
      rw [splitLoop, dif_neg hlt, List.length_nil]
      omega

/-- A segment is cut into no more than `factor` pieces. -/
theorem length_splitSegment_le (segment : CompareSegment) {factor : ℕ} (hfactor : 0 < factor) :
  (splitSegment segment factor).length ≤ factor
  := by
  rw [splitSegment]
  split
  · apply Nat.zero_le
  · have hlength := length_splitLoop segment.keyColumn segment.stop
      (chunkSize segment.estimatedRows factor) (chunkSize_pos _ _) segment.start
    have hceil : segment.estimatedRows ≤ factor * chunkSize segment.estimatedRows factor := by
      have hdiv := Nat.lt_mul_div_succ (segment.estimatedRows + factor - 1) hfactor
      have hle : factor * ((segment.estimatedRows + factor - 1) / factor)
          ≤ factor * chunkSize segment.estimatedRows factor := by
        apply Nat.mul_le_mul_left
        apply le_max_right
      rw [Nat.mul_add] at hdiv
      omega
    rw [CompareSegment.estimatedRows] at hlength hceil ⊢
    apply Nat.le_of_lt_succ
    apply Nat.lt_of_mul_lt_mul_right (a := chunkSize (segment.stop - segment.start).toNat factor)
    rw [Nat.succ_mul]
    omega

/-- No key lies in two pieces of a segment. -/
theorem pairwise_splitSegment (segment : CompareSegment) (factor : ℕ) :
  (splitSegment segment factor).Pairwise (fun a b => ∀ key, ¬ (a.Holds key ∧ b.Holds key))
  := by
  have h := List.pairwise_map.mp (splitSegment_tiles segment factor).pairwise
  apply h.imp
  intro a b hab key ⟨ha, hb⟩
  apply absurd ha.2 (not_lt.mpr (le_trans hab hb.1))

/-- The keys of a segment are those of its pieces. -/
theorem holds_iff_splitSegment (segment : CompareSegment) (factor : ℕ) (key : ℤ) :
  segment.Holds key ↔ ∃ piece ∈ splitSegment segment factor, piece.Holds key
  := by
  have h := (splitSegment_tiles segment factor).mem_iff key
  simp only [List.mem_map, exists_exists_and_eq_and] at h
  apply h

/-! ### The stack of the loop -/

/-- What the loop does to its stack: the top is taken off or, when the depth limit allows
it and the segment has more than one key, replaced by its pieces. -/
inductive StackStep (factor maxDepth : ℕ) :
    List (CompareSegment × ℕ) → List (CompareSegment × ℕ) → Prop where
  | pop {segment : CompareSegment} {depth : ℕ} {stack : List (CompareSegment × ℕ)} :
      StackStep factor maxDepth ((segment, depth) :: stack) stack
  | descend {segment : CompareSegment} {depth : ℕ} {stack : List (CompareSegment × ℕ)}
      (depth_lt : depth < maxDepth) (wide : 1 < segment.estimatedRows) :
      StackStep factor maxDepth ((segment, depth) :: stack)
        ((splitSegment segment factor).map (fun child => (child, depth + 1)) ++ stack)

/-- An upper bound on the segments that are still looked at. -/
def pending (stack : List (CompareSegment × ℕ)) : ℕ := (stack.map (fun p => visits p.1)).sum

theorem visits_pos (segment : CompareSegment) :
  0 < visits segment
  := lt_of_lt_of_le Nat.zero_lt_one (le_max_left _ _)

theorem pending_cons (p : CompareSegment × ℕ) (stack : List (CompareSegment × ℕ)) :
  pending (p :: stack) = visits p.1 + pending stack
  := by rw [pending, List.map_cons, List.sum_cons, pending]

theorem pending_lt_of_stackStep {factor maxDepth : ℕ} (hfactor : 2 ≤ factor)
    {stack next : List (CompareSegment × ℕ)} (h : StackStep factor maxDepth stack next) :
  pending next < pending stack
  := by
  cases h with
  | @pop segment depth =>
      rw [pending_cons]
      apply Nat.lt_add_of_pos_left (visits_pos segment)
  | descend _ wide =>
      rw [pending_cons, pending, List.map_append, List.sum_append, List.map_map]
      apply Nat.add_lt_add_right (sum_visits_splitSegment wide hfactor)

/-- No run of the stack is endless, whatever the depth limit. -/
theorem wellFounded_stackStep {factor : ℕ} (hfactor : 2 ≤ factor) (maxDepth : ℕ) :
  WellFounded (fun next stack => StackStep factor maxDepth stack next)
  := Subrelation.wf (pending_lt_of_stackStep hfactor) (measure pending).wf

section Loop

variable {β : Type u} [BEq β]

/-- A turn of the loop raises, or goes on with what a step makes of the stack. -/
theorem hashdiffLoop_cons (source target : CompareSegmentReader β) (limits : RunLimits)
    (top : CompareSegment × ℕ) (stack : List (CompareSegment × ℕ))
    (progress : HashdiffProgress) :
  (∃ error, hashdiffLoop source target limits (top :: stack) progress = .error error)
    ∨ ∃ next scanned events,
      StackStep limits.bisectionFactor limits.maxBisectionDepth (top :: stack) next
        ∧ scanned.scannedSegments = progress.scannedSegments + 1
        ∧ hashdiffLoop source target limits (top :: stack) progress
          = (hashdiffLoop source target limits next scanned).map
            (fun result => (events ++ result.1, result.2))
  := by
  obtain ⟨segment, depth⟩ := top
  rw [hashdiffLoop]
  split
  · left
    exact ⟨_, rfl⟩
  split
  · left
    exact ⟨_, rfl⟩
  split
  · right
    refine ⟨_, _, [], .pop, ?_, (id_map _).symm⟩
    rfl
  split
  · rename_i hdescend
    simp only [shouldDescend, Bool.and_eq_true, decide_eq_true_eq] at hdescend
    right
    refine ⟨_, _, [], .descend hdescend.1.2 hdescend.2, ?_, (id_map _).symm⟩
    rfl
  split
  · left
    exact ⟨_, rfl⟩
  · rename_i events _
    right
    refine ⟨_, (progress.scan depth).rowMode, events, .pop, rfl, ?_⟩
    cases hashdiffLoop source target limits stack (progress.scan depth).rowMode with
    | error e => rfl
    | ok result => rfl

/-- A run of the loop looks at no more segments than were pending. -/
theorem scannedSegments_le {source target : CompareSegmentReader β} {limits : RunLimits}
    {stack : List (CompareSegment × ℕ)} {progress : HashdiffProgress}
    {result : List (CompareDiffEvent β) × HashdiffProgress}
    (h : hashdiffLoop source target limits stack progress = .ok result) :
  result.2.scannedSegments ≤ progress.scannedSegments + pending stack
  := by
  have hfactor : 2 ≤ limits.bisectionFactor := le_trans (by decide) limits.factor_ge
  induction stack using (wellFounded_stackStep hfactor limits.maxBisectionDepth).induction
    generalizing progress result with
  | _ stack ih =>
      match stack with
      | [] =>
          rw [hashdiffLoop] at h
          obtain rfl := Except.ok.inj h
          apply Nat.le_add_right
      | top :: stack =>
          rcases hashdiffLoop_cons source target limits top stack progress with
            ⟨error, herror⟩ | ⟨next, scanned, events, hstep, hscanned, heq⟩
          · cases herror.symm.trans h
          · rw [heq] at h
            obtain ⟨rest, hrest, rfl⟩ := Outcome.map_eq_ok.mp h
            have hle := ih next hstep hrest
            have hlt := pending_lt_of_stackStep hfactor hstep
            rw [hscanned] at hle
            show rest.2.scannedSegments ≤ _
            omega

end Loop

/-- Splitting a segment is a tiling by narrower segments, and the recursion over segments
ends for any depth limit. -/
theorem splitSegment_tiling {β : Type u} [BEq β] (segment : CompareSegment) (factor : ℕ)
    (hfactor : 2 ≤ factor) :
  Tiles segment.start segment.stop ((splitSegment segment factor).map CompareSegment.bounds)
    ∧ (splitSegment segment factor).Pairwise (fun a b => ∀ key, ¬ (a.Holds key ∧ b.Holds key))
    ∧ (∀ piece ∈ splitSegment segment factor,
        piece.keyColumn = segment.keyColumn ∧ piece.Holds piece.start)
    ∧ (∀ key, segment.Holds key ↔ ∃ piece ∈ splitSegment segment factor, piece.Holds key)
    ∧ (splitSegment segment factor).length ≤ factor
    ∧ (1 < segment.estimatedRows → ∀ piece ∈ splitSegment segment factor,
        piece.estimatedRows < segment.estimatedRows)
    ∧ (∀ maxDepth, WellFounded (fun next stack => StackStep factor maxDepth stack next))
    ∧ ∀ (source target : CompareSegmentReader β) (limits : RunLimits)
        (stack : List (CompareSegment × ℕ)) (progress : HashdiffProgress)
        (result : List (CompareDiffEvent β) × HashdiffProgress),
        hashdiffLoop source target limits stack progress = .ok result →
        result.2.scannedSegments
          ≤ progress.scannedSegments + (stack.map (fun p => visits p.1)).sum
  := by
  refine ⟨splitSegment_tiles segment factor, pairwise_splitSegment segment factor, ?_,
    holds_iff_splitSegment segment factor, length_splitSegment_le segment (by omega), ?_,
    wellFounded_stackStep hfactor, ?_⟩
  · intro piece hpiece
    have hpos := estimatedRows_pos_of_mem_splitSegment hpiece
    rw [CompareSegment.estimatedRows] at hpos
    refine ⟨keyColumn_of_mem_splitSegment hpiece, le_refl _, ?_⟩
    omega
  · intro hwide piece hpiece
    apply estimatedRows_lt_of_mem_splitSegment hwide hfactor hpiece
  · intro source target limits stack progress result h
    apply scannedSegments_le h

/-- Ten keys in pieces of four. -/
theorem splitSegment_tiling_ten :
  (splitSegment ⟨"id", 0, 10, by decide⟩ 3).map CompareSegment.bounds
      = [(0, 4), (4, 8), (8, 10)]
    ∧ (splitSegment ⟨"id", 0, 10, by decide⟩ 3).length ≤ 3
  := by
  constructor
  · simp [splitSegment, splitLoop, CompareSegment.estimatedRows, chunkSize,
      CompareSegment.bounds]
  · apply (splitSegment_tiling (β := ℕ) ⟨"id", 0, 10, by decide⟩ 3 (by decide)).2.2.2.2.1

end Compare

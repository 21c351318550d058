import DataOpsStudio.Compare.Diff

/-!
# Recursive hashdiff

A segment on which both sides report the same fingerprint is skipped; any other segment
is cut into pieces, until its rows are compared one by one.  The main result says that
this refines the plain diff of the whole range: the reported differences are the same, no
key is reported twice, and the rows that are skipped are exactly the equal rows that are
not reported.
-/

universe u

namespace Compare

variable {β : Type u}

/-- The limits of a compare run that the comparison reads. -/
structure RunLimits where
  maxRows : Option ℕ := none
  recursiveChecksum : Bool := true
  bisectionFactor : ℕ := 16
  bisectionThreshold : ℕ := 16000
  maxBisectionDepth : ℕ := 8
  maxRows_pos : ∀ n ∈ maxRows, 0 < n := by simp
  factor_ge : 8 ≤ bisectionFactor := by decide
  factor_le : bisectionFactor ≤ 32 := by decide
  threshold_pos : 0 < bisectionThreshold := by decide

/-- What a run has done so far. -/
structure HashdiffProgress where
  scannedSegments : ℕ := 0
  skippedSegments : ℕ := 0
  skippedRows : ℕ := 0
  recursedSegments : ℕ := 0
  rowModeSegments : ℕ := 0
  maxDepthSeen : ℕ := 0
deriving DecidableEq

namespace HashdiffProgress

/-- A segment is looked at. -/
def scan (progress : HashdiffProgress) (depth : ℕ) : HashdiffProgress :=
  { progress with
    maxDepthSeen := max progress.maxDepthSeen depth
    scannedSegments := progress.scannedSegments + 1 }

/-- A segment is skipped with its rows. -/
def skip (progress : HashdiffProgress) (rowCount : ℕ) : HashdiffProgress :=
  { progress with
    skippedSegments := progress.skippedSegments + 1
    skippedRows := progress.skippedRows + rowCount }

/-- A segment is cut into pieces. -/
def recurse (progress : HashdiffProgress) : HashdiffProgress :=
  { progress with recursedSegments := progress.recursedSegments + 1 }

/-- A segment is compared row by row. -/
def rowMode (progress : HashdiffProgress) : HashdiffProgress :=
  { progress with rowModeSegments := progress.rowModeSegments + 1 }

end HashdiffProgress

/-! ### The loop -/

/-- Whether a segment with different fingerprints is cut into pieces. -/
def shouldDescend (limits : RunLimits) (segment : CompareSegment) (depth : ℕ)
    (source target : SegmentFingerprint) : Bool :=
  limits.bisectionThreshold < max source.rowCount target.rowCount
    && depth < limits.maxBisectionDepth
    && 1 < segment.estimatedRows

/-- An upper bound on the number of times the loop visits a part of a segment. -/
def visits (segment : CompareSegment) : ℕ := max 1 (2 * segment.estimatedRows - 1)

theorem sum_visits {pieces : List CompareSegment}
    (h : ∀ piece ∈ pieces, 0 < piece.estimatedRows) :
  ((pieces.map visits).sum + pieces.length : ℤ)
    = 2 * ((pieces.map CompareSegment.bounds).map (fun p => p.2 - p.1)).sum
  := by
  induction pieces with
  | nil => rfl
  | cons piece rest ih =>
      have hrest := ih (fun p hp => h p (List.mem_cons_of_mem _ hp))
      have hpiece : (visits piece : ℤ) + 1 = 2 * (piece.stop - piece.start) := by
        have hpos := h piece List.mem_cons_self
        rw [visits]
        rw [CompareSegment.estimatedRows] at hpos ⊢
        omega
      simp only [List.map_cons, List.sum_cons, List.length_cons, CompareSegment.bounds,
        Nat.cast_add, Nat.cast_one]
      linarith

/-- The pieces of a segment are visited less often than the segment. -/
theorem sum_visits_splitSegment {segment : CompareSegment} {factor : ℕ}
    (hwidth : 1 < segment.estimatedRows) (hfactor : 2 ≤ factor) :
  ((splitSegment segment factor).map visits).sum < visits segment
  := by
  have htiles := splitSegment_tiles segment factor
  have hpos : ∀ piece ∈ splitSegment segment factor, 0 < piece.estimatedRows :=
    fun piece hp => estimatedRows_pos_of_mem_splitSegment hp
  have hsum := sum_visits hpos
  rw [htiles.sum_width] at hsum
  have hlength : 2 ≤ (splitSegment segment factor).length := by
    match hpieces : splitSegment segment factor with
    | [] =>
        have hwhole := htiles.sum_width
        rw [hpieces] at hwhole
        simp only [List.map_nil, List.sum_nil] at hwhole
        rw [CompareSegment.estimatedRows] at hwidth
        omega
    | [piece] =>
        have hwhole := htiles.sum_width
        have hnarrow := estimatedRows_lt_of_mem_splitSegment hwidth hfactor
          (hpieces ▸ List.mem_singleton_self piece)
        rw [hpieces] at hwhole
        simp only [List.map_cons, List.map_nil, List.sum_cons, List.sum_nil,
          CompareSegment.bounds] at hwhole
        rw [CompareSegment.estimatedRows, CompareSegment.estimatedRows] at hnarrow
        omega
    | _ :: _ :: _ => simp
  rw [visits]
  rw [CompareSegment.estimatedRows] at hwidth ⊢
  omega

/-- The loop over the stack of segments to visit, each with its depth; the head of the list
is the top of the stack. -/
def hashdiffLoop [BEq β] (source target : CompareSegmentReader β) (limits : RunLimits) :
    List (CompareSegment × ℕ) → HashdiffProgress →
      Except CompareError (List (CompareDiffEvent β) × HashdiffProgress)
  | [], progress => .ok ([], progress)
  | (segment, depth) :: stack, progress =>
      match source.segmentFingerprint segment with
      | .error e => .error e
      | .ok sourceFingerprint =>
      match target.segmentFingerprint segment with
      | .error e => .error e
      | .ok targetFingerprint =>
          if sourceFingerprint = targetFingerprint then
            hashdiffLoop source target limits stack
              ((progress.scan depth).skip sourceFingerprint.rowCount)
          else if shouldDescend limits segment depth sourceFingerprint targetFingerprint then
            hashdiffLoop source target limits
              ((splitSegment segment limits.bisectionFactor).map (fun child => (child, depth + 1))
                ++ stack)
              (progress.scan depth).recurse
          else
            match rowLevelDiff source target segment with
            | .error e => .error e
            | .ok events =>
                match hashdiffLoop source target limits stack
                    (progress.scan depth).rowMode with
                | .error e => .error e
                | .ok (rest, final) => .ok (events ++ rest, final)
termination_by stack => (stack.map (fun p => visits p.1)).sum
decreasing_by
  all_goals
    have hpos : 0 < visits segment := lt_of_lt_of_le Nat.zero_lt_one (le_max_left _ _)
  · simp only [List.map_cons, List.sum_cons]
    omega
  · rename_i hdescend
    have hwidth : 1 < segment.estimatedRows := by
      simp only [shouldDescend, Bool.and_eq_true, decide_eq_true_eq] at hdescend
      apply hdescend.2
    have hlt := sum_visits_splitSegment hwidth (le_trans (by decide) limits.factor_ge)
    simp only [List.map_append, List.map_map, List.sum_append, List.map_cons, List.sum_cons]
    apply Nat.add_lt_add_right hlt
  · simp only [List.map_cons, List.sum_cons]
    omega

/-- The events of a whole range, with the progress once they are exhausted. -/
def recursiveHashdiffStream [BEq β] (source target : CompareSegmentReader β)
    (rootSegment : CompareSegment) (limits : RunLimits := {}) :
    Except CompareError (List (CompareDiffEvent β) × HashdiffProgress) :=
  if !limits.recursiveChecksum || rootSegment.estimatedRows ≤ limits.bisectionThreshold then
    match rowLevelDiff source target rootSegment with
    | .error e => .error e
    | .ok events => .ok (events, HashdiffProgress.rowMode {})
  else
    hashdiffLoop source target limits
      ((splitSegment rootSegment limits.bisectionFactor).map (fun segment => (segment, 0))) {}

/-! ### What the loop visits -/

section Visited

variable [BEq β] {source target : CompareSegmentReader β} {limits : RunLimits}

/-- The ways the loop can empty a stack: a segment is skipped with the rows of its
fingerprint, cut into pieces, or compared row by row. -/
inductive Visited (source target : CompareSegmentReader β) (limits : RunLimits) :
    List (CompareSegment × ℕ) → List (CompareDiffEvent β) → ℕ → Prop where
  | done : Visited source target limits [] [] 0
  | skip {segment depth stack events rows} {fingerprint : SegmentFingerprint}
      (source_eq : source.segmentFingerprint segment = .ok fingerprint)
      (target_eq : target.segmentFingerprint segment = .ok fingerprint)
      (tail : Visited source target limits stack events rows) :
      Visited source target limits ((segment, depth) :: stack) events
        (fingerprint.rowCount + rows)
  | descend {segment depth stack events rows}
      (tail : Visited source target limits
        ((splitSegment segment limits.bisectionFactor).map (fun child => (child, depth + 1))
          ++ stack) events rows) :
      Visited source target limits ((segment, depth) :: stack) events rows
  | compare {segment depth stack compared events rows}
      (diff : rowLevelDiff source target segment = .ok compared)
      (tail : Visited source target limits stack events rows) :
      Visited source target limits ((segment, depth) :: stack) (compared ++ events) rows

/-- A loop that returns has visited its stack. -/
theorem hashdiffLoop_visited {stack : List (CompareSegment × ℕ)} {progress : HashdiffProgress}
    {result : List (CompareDiffEvent β) × HashdiffProgress}
    (h : hashdiffLoop source target limits stack progress = .ok result) :
  ∃ rows, result.2.skippedRows = progress.skippedRows + rows
    ∧ Visited source target limits stack result.1 rows
  := by
  fun_induction hashdiffLoop source target limits stack progress generalizing result with
  | case1 progress =>
      obtain rfl := Except.ok.inj h
      exact ⟨0, rfl, .done⟩
  | case2 | case3 | case6 | case7 => cases h
  | case4 segment depth stack progress fingerprint ht hs ih =>
      obtain ⟨rows, hrows, hvisited⟩ := ih h
      exact ⟨fingerprint.rowCount + rows, by rw [hrows]; apply add_assoc, .skip hs ht hvisited⟩
  | case5 segment depth stack progress s hs t ht hne hdescend ih =>
      obtain ⟨rows, hrows, hvisited⟩ := ih h
      exact ⟨rows, hrows, .descend hvisited⟩
  | case8 segment depth stack progress s hs t ht hne hdescend events hdiff rest final
      hrest ih =>
      obtain rfl := Except.ok.inj h
      obtain ⟨rows, hrows, hvisited⟩ := ih hrest
      exact ⟨rows, hrows, .compare hdiff hvisited⟩

/-- The loop returns when nothing it may read within the root raises. -/
theorem exists_hashdiffLoop (limits : RunLimits) {root : CompareSegment}
    (hs : ∀ segment : CompareSegment, segment.Within root →
      ∃ s, source.segmentFingerprint segment = .ok s)
    (ht : ∀ segment : CompareSegment, segment.Within root →
      ∃ t, target.segmentFingerprint segment = .ok t)
    (hdiff : ∀ segment : CompareSegment, segment.Within root →
      ∃ events, rowLevelDiff source target segment = .ok events)
    (stack : List (CompareSegment × ℕ)) (progress : HashdiffProgress)
    (hstack : ∀ p ∈ stack, p.1.Within root) :
  ∃ result, hashdiffLoop source target limits stack progress = .ok result
  := by
  fun_induction hashdiffLoop source target limits stack progress with
  | case1 progress => exact ⟨_, rfl⟩
  | case2 segment depth stack progress e he =>
      obtain ⟨s, hok⟩ := hs segment (hstack _ List.mem_cons_self)
      cases he.symm.trans hok
  | case3 segment depth stack progress s hs' e he =>
      obtain ⟨t, hok⟩ := ht segment (hstack _ List.mem_cons_self)
      cases he.symm.trans hok
  | case4 segment depth stack progress fingerprint ht hs ih =>
      apply ih (fun p hp => hstack p (List.mem_cons_of_mem _ hp))
  | case5 segment depth stack progress s hs t ht hne hdescend ih =>
      apply ih
      intro p hp
      rcases List.mem_append.mp hp with hp | hp
      · obtain ⟨child, hchild, rfl⟩ := List.mem_map.mp hp
        apply (within_of_mem_splitSegment hchild).trans (hstack _ List.mem_cons_self)
      · apply hstack p (List.mem_cons_of_mem _ hp)
  | case6 segment depth stack progress s hs t ht hne hdescend e he =>
      obtain ⟨events, hok⟩ := hdiff segment (hstack _ List.mem_cons_self)
      cases he.symm.trans hok
  | case7 segment depth stack progress s hs t ht hne hdescend events hdiff e he ih =>
      obtain ⟨result, hok⟩ := ih (fun p hp => hstack p (List.mem_cons_of_mem _ hp))
      cases he.symm.trans hok
  | case8 => exact ⟨_, rfl⟩

/-- What is counted in the events and the skipped rows is what is counted in the segments,
when it is so for every segment that is skipped or compared. -/
theorem Visited.count {measure : CompareSegment → ℕ} {tally : List (CompareDiffEvent β) → ℕ}
    (hsplit : ∀ segment factor, measure segment = ((splitSegment segment factor).map measure).sum)
    (hnil : tally [] = 0) (happend : ∀ l m, tally (l ++ m) = tally l + tally m)
    (hskip : ∀ segment fingerprint, source.segmentFingerprint segment = .ok fingerprint →
      target.segmentFingerprint segment = .ok fingerprint →
      fingerprint.rowCount = measure segment)
    (hdiff : ∀ segment events, rowLevelDiff source target segment = .ok events →
      tally events = measure segment)
    {stack : List (CompareSegment × ℕ)} {events : List (CompareDiffEvent β)} {rows : ℕ}
    (h : Visited source target limits stack events rows) :
  tally events + rows = (stack.map (fun p => measure p.1)).sum
  := by
  induction h with
  | done => rw [hnil, List.map_nil, List.sum_nil, add_zero]
  | skip source_eq target_eq _ ih =>
      rw [List.map_cons, List.sum_cons, ← ih, hskip _ _ source_eq target_eq]
      apply Nat.add_left_comm
  | descend _ ih =>
      rw [ih, List.map_append, List.sum_append, List.map_map, List.map_cons, List.sum_cons,
        hsplit _ limits.bisectionFactor]
      rfl
  | compare diff _ ih =>
      rw [List.map_cons, List.sum_cons, ← ih, happend, hdiff _ _ diff, Nat.add_assoc]

/-- What is counted in the events and the skipped rows of a run is what is counted in the
whole range. -/
theorem recursiveHashdiffStream_count {measure : CompareSegment → ℕ}
    {tally : List (CompareDiffEvent β) → ℕ}
    (hsplit : ∀ segment factor, measure segment = ((splitSegment segment factor).map measure).sum)
    (hnil : tally [] = 0) (happend : ∀ l m, tally (l ++ m) = tally l + tally m)
    (hskip : ∀ segment fingerprint, source.segmentFingerprint segment = .ok fingerprint →
      target.segmentFingerprint segment = .ok fingerprint →
      fingerprint.rowCount = measure segment)
    (hdiff : ∀ segment events, rowLevelDiff source target segment = .ok events →
      tally events = measure segment)
    {root : CompareSegment} {result : List (CompareDiffEvent β) × HashdiffProgress}
    (h : recursiveHashdiffStream source target root limits = .ok result) :
  tally result.1 + result.2.skippedRows = measure root
  := by
  rw [recursiveHashdiffStream] at h
  split at h
  · split at h
    · cases h
    · rename_i events heq
      obtain rfl := Except.ok.inj h
      apply hdiff root events heq
  · obtain ⟨rows, hrows, hvisited⟩ := hashdiffLoop_visited h
    rw [hrows, zero_add, hvisited.count hsplit hnil happend hskip hdiff, List.map_map,
      hsplit root limits.bisectionFactor]
    rfl

end Visited

/-! ### Readers of keyed rows -/

/-- A reader returns, for every segment, exactly the rows whose key lies in it. -/
structure ReadsRange (reader : CompareSegmentReader β) (rows : List (CompareRow β)) : Prop where
  keyed : IntegerKeyed rows
  fetch : ∀ segment, ∃ fetched,
    reader.fetchRows segment = .ok fetched ∧ fetched.Perm (rowsIn rows segment)

/-- Every row of one list has a row with the same key and the same values in the other. -/
def RowsIncluded [BEq β] (rows others : List (CompareRow β)) : Prop :=
  ∀ row ∈ rows, ∃ other ∈ others, keyOf other = keyOf row ∧ rowsEquivalent row other

/-- Two lists hold the same key-to-values rows. -/
def SameRows [BEq β] (source target : List (CompareRow β)) : Prop :=
  RowsIncluded source target
    ∧ ∀ row ∈ target, ∃ other ∈ source, keyOf other = keyOf row ∧ rowsEquivalent other row

/-- On the segments within the root, a fingerprint counts the rows of its side, and equal
fingerprints are those of sides with the same rows. -/
def FaithfulFingerprints [BEq β] (source target : CompareSegmentReader β)
    (sourceRows targetRows : List (CompareRow β)) (root : CompareSegment) : Prop :=
  ∀ segment : CompareSegment, segment.Within root → ∃ s t,
    source.segmentFingerprint segment = .ok s ∧ target.segmentFingerprint segment = .ok t
      ∧ s.rowCount = (rowsIn sourceRows segment).length
      ∧ t.rowCount = (rowsIn targetRows segment).length
      ∧ (s = t → SameRows (rowsIn sourceRows segment) (rowsIn targetRows segment))

section Refinement

variable [BEq β] {source target : CompareSegmentReader β}
  {sourceRows targetRows : List (CompareRow β)}

omit [BEq β] in
theorem holds_of_mem_rowsIn {rows : List (CompareRow β)} {segment : CompareSegment}
    {row : CompareRow β} (h : row ∈ rowsIn rows segment) :
  segment.Holds (keyOf row)
  := by simpa using (List.mem_filter.mp h).2

/-- The events of a segment, from the rows of both sides in it. -/
theorem eventsIn_plainEvents (segment : CompareSegment) :
  eventsIn (plainEvents sourceRows targetRows) segment
    = ((rowsIn sourceRows segment).map (sourceEvent targetRows)
        ++ ((rowsIn targetRows segment).filter
            (fun row => (partner sourceRows row).isNone)).map targetEvent
          : List (CompareDiffEvent β))
  := by
  have hpairs : ∀ (f : CompareRow β → CompareDiffEvent β) (rows : List (CompareRow β)),
      ((rows.map (fun row => (keyOf row, f row))).filter
          (fun p => decide (segment.start ≤ p.1 ∧ p.1 < segment.stop))).map Prod.snd
        = (rowsIn rows segment).map f := by
    intro f rows
    rw [List.filter_map, List.map_map]
    rfl
  rw [eventsIn, plainEvents, Multiset.filter_add, Multiset.map_add, Multiset.filter_coe,
    Multiset.filter_coe, Multiset.map_coe, Multiset.map_coe, Multiset.coe_add, hpairs, hpairs]
  simp only [rowsIn, List.filter_filter, Bool.and_comm]

/-- The plain diff of a segment reports the events of the segment. -/
theorem rowLevelDiff_eq_eventsIn (hs : ReadsRange source sourceRows)
    (ht : ReadsRange target targetRows) (segment : CompareSegment) :
  ∃ events, rowLevelDiff source target segment = .ok events
    ∧ (events : Multiset (CompareDiffEvent β))
      = eventsIn (plainEvents sourceRows targetRows) segment
  := by
  obtain ⟨fs, hfs, hsperm⟩ := hs.fetch segment
  obtain ⟨ft, hft, htperm⟩ := ht.fetch segment
  have hskeyed := hs.keyed.of_perm segment hsperm
  have htkeyed := ht.keyed.of_perm segment htperm
  obtain ⟨sourceMap, hsm⟩ := exists_rowMap Side.source hskeyed.distinct
  obtain ⟨targetMap, htm⟩ := exists_rowMap Side.target htkeyed.distinct
  use diffRowMaps sourceMap targetMap
  constructor
  · simp only [rowLevelDiff, hfs, hft, hsm, htm, bind, Except.bind, pure, Except.pure]
  · rw [diffRowMaps_eq_plainEvents hskeyed htkeyed hsm htm, eventsIn_plainEvents, plainEvents,
      Multiset.map_add, Multiset.map_coe, Multiset.map_coe, List.map_map, List.map_map,
      Multiset.coe_add]
    apply Multiset.coe_eq_coe.mpr
    apply List.Perm.append
    · apply List.Perm.trans (List.Perm.of_eq _) (hsperm.map (sourceEvent targetRows))
      apply List.map_congr_left
      intro row hrow
      have hholds := holds_of_mem_rowsIn (hsperm.mem_iff.mp hrow)
      simp only [Function.comp_apply, sourceEvent, ht.keyed.partner_of_perm htperm hholds]
    · apply List.Perm.trans (List.Perm.of_eq _)
        ((htperm.filter (fun row => (partner sourceRows row).isNone)).map targetEvent)
      congr 1
      apply List.filter_congr
      intro row hrow
      have hholds := holds_of_mem_rowsIn (htperm.mem_iff.mp hrow)
      rw [hs.keyed.partner_of_perm hsperm hholds]

/-- A segment in which both sides hold the same rows has one event for every source row,
and all of them say that the row is the same. -/
theorem eventsIn_of_sameRows (hs : ReadsRange source sourceRows)
    (ht : ReadsRange target targetRows) {segment : CompareSegment}
    (h : SameRows (rowsIn sourceRows segment) (rowsIn targetRows segment)) :
  (∀ event ∈ eventsIn (plainEvents sourceRows targetRows) segment, event.bucket = .same)
    ∧ (eventsIn (plainEvents sourceRows targetRows) segment).card
      = (rowsIn sourceRows segment).length
  := by
  have hpaired : (rowsIn targetRows segment).filter
      (fun row => (partner sourceRows row).isNone) = [] := by
    apply List.filter_eq_nil_iff.mpr
    intro row hrow
    obtain ⟨other, hother, hkey, -⟩ := h.2 row hrow
    rw [hs.keyed.partner_eq_some.mpr ⟨(List.mem_filter.mp hother).1, hkey⟩]
    apply Bool.false_ne_true
  rw [eventsIn_plainEvents, hpaired, List.map_nil, List.append_nil]
  constructor
  · intro event hevent
    obtain ⟨row, hrow, rfl⟩ := List.mem_map.mp (Multiset.mem_coe.mp hevent)
    obtain ⟨other, hother, hkey, heq⟩ := h.1 row hrow
    rw [sourceEvent, ht.keyed.partner_eq_some.mpr ⟨(List.mem_filter.mp hother).1, hkey⟩]
    simp only [pairEvent, heq, if_true]
  · rw [Multiset.coe_card, List.length_map]

omit [BEq β] in
/-- The events of a segment are those of its pieces. -/
theorem eventsIn_splitSegment (events : Multiset (ℤ × CompareDiffEvent β))
    (segment : CompareSegment) (factor : ℕ) :
  eventsIn events segment = ((splitSegment segment factor).map (eventsIn events)).sum
  := by
  rw [eventsIn, (splitSegment_tiles segment factor).filter_eq_sum events Prod.fst,
    List.map_map, ← Multiset.coe_mapAddMonoidHom, map_list_sum, List.map_map]
  rfl

/-- The events of the segments on a stack. -/
def stackEvents (events : Multiset (ℤ × CompareDiffEvent β)) (stack : List (CompareSegment × ℕ)) :
    Multiset (CompareDiffEvent β) :=
  (stack.map (fun p => eventsIn events p.1)).sum

omit [BEq β] in
@[simp]
theorem stackEvents_cons (events : Multiset (ℤ × CompareDiffEvent β))
    (p : CompareSegment × ℕ) (stack : List (CompareSegment × ℕ)) :
  stackEvents events (p :: stack) = eventsIn events p.1 + stackEvents events stack
  := by rw [stackEvents, List.map_cons, List.sum_cons, stackEvents]

omit [BEq β] in
theorem stackEvents_split (events : Multiset (ℤ × CompareDiffEvent β))
    (segment : CompareSegment) (factor depth : ℕ) (stack : List (CompareSegment × ℕ)) :
  stackEvents events ((splitSegment segment factor).map (fun child => (child, depth)) ++ stack)
    = eventsIn events segment + stackEvents events stack
  := by
  rw [stackEvents, List.map_append, List.sum_append, List.map_map,
    eventsIn_splitSegment events segment factor, stackEvents]
  rfl

/-- Events are reported or, when they say that a row is the same, skipped. -/
def Accounts (events : List (CompareDiffEvent β)) (skippedRows : ℕ)
    (all : Multiset (CompareDiffEvent β)) : Prop :=
  ∃ skipped : Multiset (CompareDiffEvent β),
    (events : Multiset (CompareDiffEvent β)) + skipped = all
      ∧ (∀ event ∈ skipped, event.bucket = .same) ∧ skipped.card = skippedRows

/-- What the loop visits accounts for the events of every segment on the stack. -/
theorem Visited.accounts {root : CompareSegment} {limits : RunLimits}
    (hs : ReadsRange source sourceRows) (ht : ReadsRange target targetRows)
    (hf : FaithfulFingerprints source target sourceRows targetRows root)
    {stack : List (CompareSegment × ℕ)} {events : List (CompareDiffEvent β)} {skippedRows : ℕ}
    (h : Visited source target limits stack events skippedRows)
    (hstack : ∀ p ∈ stack, p.1.Within root) :
  Accounts events skippedRows (stackEvents (plainEvents sourceRows targetRows) stack)
  := by
  induction h with
  | done => exact ⟨0, rfl, by simp, rfl⟩
  | @skip segment depth stack events rows fingerprint hsf htf _ ih =>
      obtain ⟨s, t, hs', ht', hrows, -, hsame⟩ := hf segment (hstack _ List.mem_cons_self)
      obtain rfl := Except.ok.inj (hsf.symm.trans hs')
      obtain rfl := Except.ok.inj (htf.symm.trans ht')
      obtain ⟨hbucket, hcard⟩ := eventsIn_of_sameRows hs ht (hsame rfl)
      obtain ⟨skipped, hsum, hall, hlength⟩ := ih (fun p hp => hstack p (List.mem_cons_of_mem _ hp))
      use eventsIn (plainEvents sourceRows targetRows) segment + skipped
      refine ⟨?_, ?_, ?_⟩
      · rw [stackEvents_cons, ← hsum]
        apply add_left_comm
      · intro event hevent
        rcases Multiset.mem_add.mp hevent with hevent | hevent
        · apply hbucket event hevent
        · apply hall event hevent
      · rw [Multiset.card_add, hcard, hlength, hrows]
  | @descend segment depth stack events rows _ ih =>
      rw [stackEvents_cons, ← stackEvents_split _ _ limits.bisectionFactor (depth + 1)]
      apply ih
      intro p hp
      rcases List.mem_append.mp hp with hp | hp
      · obtain ⟨child, hchild, rfl⟩ := List.mem_map.mp hp
        apply (within_of_mem_splitSegment hchild).trans (hstack _ List.mem_cons_self)
      · apply hstack p (List.mem_cons_of_mem _ hp)
  | @compare segment depth stack compared events rows hdiff _ ih =>
      obtain ⟨events', hdiff', heq⟩ := rowLevelDiff_eq_eventsIn hs ht segment
      obtain rfl := Except.ok.inj (hdiff.symm.trans hdiff')
      obtain ⟨skipped, hsum, hall, hlength⟩ := ih (fun p hp => hstack p (List.mem_cons_of_mem _ hp))
      use skipped
      refine ⟨?_, hall, hlength⟩
      rw [stackEvents_cons, ← hsum, ← heq, ← Multiset.coe_add, add_assoc]

/-- The events of the whole range are accounted for by the stream. -/
theorem recursiveHashdiffStream_accounts {root : CompareSegment} (limits : RunLimits)
    (hs : ReadsRange source sourceRows) (ht : ReadsRange target targetRows)
    (hf : FaithfulFingerprints source target sourceRows targetRows root) :
  ∃ events progress, recursiveHashdiffStream source target root limits = .ok (events, progress)
    ∧ Accounts events progress.skippedRows
      (eventsIn (plainEvents sourceRows targetRows) root)
  := by
  rw [recursiveHashdiffStream]
  split
  · obtain ⟨events, hdiff, heq⟩ := rowLevelDiff_eq_eventsIn hs ht root
    use events, HashdiffProgress.rowMode {}
    rw [hdiff]
    refine ⟨rfl, 0, ?_, by simp, rfl⟩
    rw [heq, add_zero]
  · have hwithin : ∀ p ∈ (splitSegment root limits.bisectionFactor).map (fun piece => (piece, 0)),
        p.1.Within root := by
      intro p hp
      obtain ⟨child, hchild, rfl⟩ := List.mem_map.mp hp
      apply within_of_mem_splitSegment hchild
    obtain ⟨⟨events, progress⟩, hloop⟩ := exists_hashdiffLoop limits
      (fun segment h => (hf segment h).imp (fun _ h => h.choose_spec.1))
      (fun segment h => (hf segment h).choose_spec.imp (fun _ h => h.2.1))
      (fun segment _ => (rowLevelDiff_eq_eventsIn hs ht segment).imp (fun _ h => h.1))
      _ {} hwithin
    obtain ⟨rows, hrows, hvisited⟩ := hashdiffLoop_visited hloop
    use events, progress, hloop
    have haccounts := hvisited.accounts hs ht hf hwithin
    have hstack := stackEvents_split (plainEvents sourceRows targetRows) root
      limits.bisectionFactor 0 []
    rw [List.append_nil, stackEvents, stackEvents, List.map_nil, List.sum_nil, add_zero] at hstack
    rw [stackEvents, hstack] at haccounts
    rw [hrows, zero_add]
    apply haccounts

/-- The key of an event is that of its row, and no two events have the same. -/
theorem plainEvents_keys (hs : IntegerKeyed sourceRows) (ht : IntegerKeyed targetRows) :
  (∀ p ∈ plainEvents sourceRows targetRows, p.2.pk = [.int p.1])
    ∧ ((plainEvents sourceRows targetRows).map Prod.fst).Nodup
  := by
  constructor
  · intro p hp
    rcases Multiset.mem_add.mp hp with hp | hp
    · obtain ⟨row, hrow, rfl⟩ := List.mem_map.mp (Multiset.mem_coe.mp hp)
      rw [← hs.single row hrow]
      simp only [sourceEvent]
      split
      · rfl
      · rfl
    · obtain ⟨row, hrow, rfl⟩ := List.mem_map.mp (Multiset.mem_coe.mp hp)
      apply ht.single row (List.mem_filter.mp hrow).1
  · rw [plainEvents, Multiset.map_add, Multiset.map_coe, Multiset.map_coe, Multiset.coe_add,
      List.map_map, List.map_map]
    apply Multiset.coe_nodup.mpr
    apply List.Nodup.append
    · apply hs.unique
    · apply List.Nodup.sublist _ ht.unique
      apply List.Sublist.map
      apply List.filter_sublist
    · intro k hk hk'
      obtain ⟨row, hrow, rfl⟩ := List.mem_map.mp hk
      obtain ⟨other, hother, hkey⟩ := List.mem_map.mp hk'
      obtain ⟨-, hnone⟩ := List.mem_filter.mp hother
      rw [hs.partner_eq_some.mpr ⟨hrow, hkey.symm⟩] at hnone
      cases hnone

/-- Events among those of keyed rows are about different keys. -/
theorem pairwise_pk_of_le (hs : IntegerKeyed sourceRows) (ht : IntegerKeyed targetRows)
    {segment : CompareSegment} {events : List (CompareDiffEvent β)}
    (h : (events : Multiset (CompareDiffEvent β))
      ≤ eventsIn (plainEvents sourceRows targetRows) segment) :
  events.Pairwise (fun a b => (a.pk == b.pk) = false)
  := by
  obtain ⟨hpk, hnodup⟩ := plainEvents_keys hs ht
  have hle : (events : Multiset (CompareDiffEvent β))
      ≤ (plainEvents sourceRows targetRows).map Prod.snd := by
    apply le_trans h
    apply Multiset.map_le_map
    apply Multiset.filter_le
  have hkeys : ((plainEvents sourceRows targetRows).map Prod.snd).map CompareDiffEvent.pk
      = ((plainEvents sourceRows targetRows).map Prod.fst).map (fun k => [PyValue.int k]) := by
    rw [Multiset.map_map, Multiset.map_map]
    apply Multiset.map_congr rfl hpk
  have hdistinct : (events.map CompareDiffEvent.pk).Nodup := by
    rw [← Multiset.coe_nodup, ← Multiset.map_coe]
    apply Multiset.nodup_of_le (Multiset.map_le_map hle)
    rw [hkeys]
    apply hnodup.map
    intro a b hab
    injection List.head_eq_of_cons_eq hab
  apply List.Pairwise.imp_of_mem _ (List.pairwise_map.mp hdistinct)
  intro a b ha hb hne
  obtain ⟨p, hp, rfl⟩ := Multiset.mem_map.mp (Multiset.mem_of_le hle (Multiset.mem_coe.mpr ha))
  obtain ⟨q, hq, rfl⟩ := Multiset.mem_map.mp (Multiset.mem_of_le hle (Multiset.mem_coe.mpr hb))
  rw [hpk p hp, hpk q hq] at hne ⊢
  rw [List.cons_beq_cons, PyValue.int_beq_int]
  simp only [Bool.and_eq_false_imp, decide_eq_true_eq]
  intro heq
  rw [heq] at hne
  apply absurd rfl hne

/-- The events that report a difference. -/
def differences (events : List (CompareDiffEvent β)) : List (CompareDiffEvent β) :=
  events.filter (fun event => decide (event.bucket ≠ .same))

omit [BEq β] in
/-- Accounted events are the same differences, and as many equal rows. -/
theorem Accounts.spec {events plain : List (CompareDiffEvent β)} {skippedRows : ℕ}
    (h : Accounts events skippedRows (plain : Multiset (CompareDiffEvent β))) :
  (differences events).Perm (differences plain)
    ∧ bucketCount .same events + skippedRows = bucketCount .same plain
  := by
  obtain ⟨skipped, hsum, hsame, rfl⟩ := h
  constructor
  · have hfilter := congrArg (Multiset.filter (fun event => event.bucket ≠ .same)) hsum
    rw [Multiset.filter_add, Multiset.filter_eq_nil.mpr (fun e he => not_not.mpr (hsame e he)),
      add_zero, Multiset.filter_coe, Multiset.filter_coe] at hfilter
    apply Multiset.coe_eq_coe.mp hfilter
  · have hcount := congrArg (Multiset.countP (fun event => event.bucket = .same)) hsum
    rw [Multiset.countP_add, Multiset.countP_eq_card.mpr hsame, Multiset.coe_countP,
      Multiset.coe_countP] at hcount
    apply hcount

/-- Recursive hashdiff refines the plain diff of the whole range: it reports the same
differences, no key twice, and it reports or skips every equal row. -/
theorem recursiveHashdiffStream_refines_rowLevelDiff {source target : CompareSegmentReader β}
    {sourceRows targetRows : List (CompareRow β)} (root : CompareSegment) (limits : RunLimits)
    (hs : ReadsRange source sourceRows) (ht : ReadsRange target targetRows)
    (hf : FaithfulFingerprints source target sourceRows targetRows root) :
  ∃ events progress plain,
    recursiveHashdiffStream source target root limits = .ok (events, progress)
      ∧ rowLevelDiff source target root = .ok plain
      ∧ (differences events).Perm (differences plain)
      ∧ events.Pairwise (fun a b => (a.pk == b.pk) = false)
      ∧ bucketCount .same events + progress.skippedRows = bucketCount .same plain
  := by
  obtain ⟨events, progress, hstream, haccounts⟩ := recursiveHashdiffStream_accounts limits hs ht hf
  obtain ⟨plain, hplain, heq⟩ := rowLevelDiff_eq_eventsIn hs ht root
  use events, progress, plain, hstream, hplain
  have hle : (events : Multiset (CompareDiffEvent β))
      ≤ eventsIn (plainEvents sourceRows targetRows) root := by
    obtain ⟨skipped, hsum, -⟩ := haccounts
    rw [← hsum]
    apply Multiset.le_add_right
  rw [← heq] at haccounts
  obtain ⟨hdifferences, hcount⟩ := haccounts.spec
  exact ⟨hdifferences, pairwise_pk_of_le hs.keyed ht.keyed hle, hcount⟩

end Refinement

/-! ### A table in memory -/

/-- The reader of a list of rows, whose fingerprints add up a hash of the rows. -/
def listReader (hash : CompareRow β → ℕ) (rows : List (CompareRow β)) :
    CompareSegmentReader β where
  segmentFingerprint segment :=
    .ok ⟨(rowsIn rows segment).length, ((rowsIn rows segment).map hash).sum⟩
  fetchRows segment := .ok (rowsIn rows segment)

theorem readsRange_listReader (hash : CompareRow β → ℕ) {rows : List (CompareRow β)}
    (h : IntegerKeyed rows) :
  ReadsRange (listReader hash rows) rows
  := ⟨h, fun segment => ⟨rowsIn rows segment, rfl, List.Perm.refl _⟩⟩

/-- A table with the keys `0` and `3`. -/
def twoRows (a b : ℕ) : List (CompareRow ℕ) :=
  [{ pk := [.int 0], values := [a] }, { pk := [.int 3], values := [b] }]

theorem integerKeyed_twoRows (a b : ℕ) :
  IntegerKeyed (twoRows a b)
  := ⟨by simp [twoRows, keyOf], by simp [twoRows, keyOf]⟩

/-- Two tables with a common row and a row that differs. -/
theorem recursiveHashdiffStream_refines_twoRows :
  ∃ events progress plain,
    recursiveHashdiffStream (listReader (fun row => row.values.sum) (twoRows 5 6))
        (listReader (fun row => row.values.sum) (twoRows 5 7))
        ⟨"id", 0, 16, by decide⟩ { bisectionThreshold := 1 } = .ok (events, progress)
      ∧ rowLevelDiff (listReader (fun row => row.values.sum) (twoRows 5 6))
          (listReader (fun row => row.values.sum) (twoRows 5 7)) ⟨"id", 0, 16, by decide⟩
        = .ok plain
      ∧ (differences events).Perm (differences plain)
      ∧ events.Pairwise (fun a b => (a.pk == b.pk) = false)
      ∧ bucketCount .same events + progress.skippedRows = bucketCount .same plain
  := by
  apply recursiveHashdiffStream_refines_rowLevelDiff
  · apply readsRange_listReader _ (integerKeyed_twoRows 5 6)
  · apply readsRange_listReader _ (integerKeyed_twoRows 5 7)
  · intro segment _
    refine ⟨_, _, rfl, rfl, rfl, rfl, ?_⟩
    by_cases h₀ : segment.Holds 0
    · by_cases h₃ : segment.Holds 3
      · simp [twoRows, rowsIn, keyOf, h₀, h₃]
      · simp [twoRows, rowsIn, keyOf, h₀, h₃, SameRows, RowsIncluded, rowsEquivalent]
    · by_cases h₃ : segment.Holds 3
      · simp [twoRows, rowsIn, keyOf, h₀, h₃]
      · simp [twoRows, rowsIn, keyOf, h₀, h₃, SameRows, RowsIncluded]

end Compare

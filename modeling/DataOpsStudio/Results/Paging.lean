import DataOpsStudio.Results.Spool
import DataOpsStudio.Library.Outcome

/-!
# The law of spools

A spool that batches of rows are appended to keeps a beginning of all the rows, within its limits,
and is truncated when it does not keep all.  What is fetched from it is what it keeps.
-/

namespace Results

variable {Row : Type}

/-! ### Batches and pages -/

/-- Appends one batch after the other. -/
def appendBatches (limits : SpoolLimits Row) (batches : List (List Row)) (dir : SpoolDir Row) :
    Except ResultStoreError (SpoolDir Row) :=
  batches.foldlM (fun dir rows => appendSpool limits rows dir) dir

/-- What is wrong with a range. -/
inductive RangeError where
  | negativeOffset
  | negativeLimit
deriving DecidableEq

def RangeError.message : RangeError → String
  | .negativeOffset => "offset must be non-negative"
  | .negativeLimit => "limit must be non-negative"

/-- The rows of a range that is given by integers. -/
def fetchCheckedRange (dir : SpoolDir Row) (offset limit : ℤ) : Except RangeError (List Row) :=
  if offset < 0 then .error .negativeOffset
  else if limit < 0 then .error .negativeLimit
  else .ok (fetchRange dir offset.toNat limit.toNat)

/-- Reads pages from `offset` on until one is empty; there is no result when it takes more than
`fuel` pages. -/
def iterSpoolRows (dir : SpoolDir Row) (pageSize : ℕ) : ℕ → ℕ → Option (List Row)
  | 0, _ => none
  | fuel + 1, offset =>
      match fetchRange dir offset pageSize with
      | [] => some []
      | row :: more =>
          (iterSpoolRows dir pageSize fuel (offset + (row :: more).length)).map
            (fun rest => (row :: more) ++ rest)

/-- The pages of a sound spool give all rows from `offset` on. -/
theorem iterSpoolRows_eq {dir : SpoolDir Row} (hdir : dir.Sound) {pageSize : ℕ}
    (hpageSize : 0 < pageSize) {fuel offset : ℕ} (hfuel : dir.rows.length < offset + fuel) :
  0 < fuel → iterSpoolRows dir pageSize fuel offset = some (dir.rows.drop offset)
  := by
  induction fuel generalizing offset with
  | zero => exact fun h => (Nat.lt_irrefl 0 h).elim
  | succ fuel ih =>
      intro _
      have hpage := fetchRange_eq hdir offset pageSize
      rw [iterSpoolRows]
      split
      · rename_i hempty
        rw [hempty] at hpage
        have hlength := congrArg List.length hpage
        rw [List.length_take, List.length_drop, List.length_nil] at hlength
        rw [List.drop_of_length_le]
        omega
      · rename_i row more hrows
        rw [hrows] at hpage
        have hprefix : (row :: more) <+: dir.rows.drop offset := by
          rw [hpage]
          apply List.take_prefix
        have hlength := hprefix.length_le
        rw [List.length_drop, List.length_cons] at hlength
        rw [List.length_cons, ih (by omega) (by omega), Option.map_some, ← List.drop_drop]
        congr 1
        apply List.prefix_iff_eq_append.mp hprefix

/-! ### Limits -/

/-- The search ends with a number of rows that fits, if any was found. -/
theorem bestFit_fits (fits : ℕ → Bool) (low high best : ℕ) (h : best = 0 ∨ fits best = true) :
  bestFit fits low high best = 0 ∨ fits (bestFit fits low high best) = true
  := by
  induction low, high, best using bestFit.induct fits with
  | case1 low high best hle mid hmid ih =>
      rw [bestFit, if_pos hle, if_pos hmid]
      apply ih h
  | case2 low high best hle mid hmid hfits ih =>
      rw [bestFit, if_pos hle, if_neg hmid, if_pos hfits]
      apply ih (.inr hfits)
  | case3 low high best hle mid hmid hfits ih =>
      rw [bestFit, if_pos hle, if_neg hmid, if_neg hfits]
      apply ih h
  | case4 low high best hle =>
      rw [bestFit, if_neg hle]
      apply h

/-- The rows that are written fit. -/
theorem partBytes_fitRows (limits : SpoolLimits Row) (rows : List Row) (remainingBytes : ℕ)
    (hwritten : fitRowsToRemainingBytes limits rows remainingBytes ≠ []) :
  limits.partBytes (fitRowsToRemainingBytes limits rows remainingBytes) ≤ remainingBytes
  := by
  rw [fitRowsToRemainingBytes] at hwritten ⊢
  split
  · assumption
  · rename_i hlarge
    rw [if_neg hlarge] at hwritten
    rcases bestFit_fits (fun n => limits.partBytes (rows.take n) ≤ remainingBytes) 0 rows.length 0
      (.inl rfl) with hzero | hfits
    · rw [hzero, List.take_zero] at hwritten
      apply (hwritten rfl).elim
    · apply of_decide_eq_true hfits

/-- The spool is within its limits. -/
structure SpoolDir.Within (limits : SpoolLimits Row) (dir : SpoolDir Row) : Prop where
  rows : dir.readManifest.loadedRows ≤ limits.maxRows
  bytes : dir.readManifest.dataBytes ≤ limits.maxBytes

theorem appendPart_within (limits : SpoolLimits Row) {dir : SpoolDir Row}
    {manifest : SpoolManifest} {candidates : List Row}
    (hrows : manifest.loadedRows + candidates.length ≤ limits.maxRows)
    (hbytes : manifest.dataBytes ≤ limits.maxBytes) :
  (appendPart limits dir manifest candidates).Within limits
  := by
  rw [appendPart]
  split
  · exact ⟨(Nat.le_add_right _ _).trans hrows, hbytes⟩
  · rename_i row more hfit
    have hprefix := fitRows_prefix limits candidates (limits.maxBytes - manifest.dataBytes)
    have hsize := partBytes_fitRows limits candidates (limits.maxBytes - manifest.dataBytes)
      (by rw [hfit]; exact List.cons_ne_nil _ _)
    rw [hfit] at hprefix hsize
    have hlength := hprefix.length_le
    constructor
    · rw [readManifest_writeManifest, SpoolManifest.addPart]
      dsimp only
      omega
    · rw [readManifest_writeManifest, SpoolManifest.addPart]
      dsimp only
      omega

theorem appendSpool_within (limits : SpoolLimits Row) {dir dir' : SpoolDir Row} {rows : List Row}
    (hdir : dir.Within limits) (h : appendSpool limits rows dir = .ok dir') :
  dir'.Within limits
  := by
  rw [appendSpool] at h
  dsimp only at h
  split at h
  · obtain rfl := Except.ok.inj h
    apply hdir
  split at h
  · cases h
  split at h
  · obtain rfl := Except.ok.inj h
    apply hdir
  split at h
  · obtain rfl := Except.ok.inj h
    exact ⟨hdir.rows, hdir.bytes⟩
  rename_i hroom
  split at h
  · obtain rfl := Except.ok.inj h
    exact ⟨hdir.rows, hdir.bytes⟩
  obtain rfl := Except.ok.inj h
  refine appendPart_within limits ?_ hdir.bytes
  dsimp only
  rw [List.length_take]
  omega

/-- A spool that is not sealed takes every batch. -/
theorem appendSpool_returns (limits : SpoolLimits Row) {dir : SpoolDir Row} (rows : List Row)
    (hopen : dir.readManifest.isSealed = false) :
  ∃ dir', appendSpool limits rows dir = .ok dir'
  := by
  rw [appendSpool]
  dsimp only
  rw [hopen]
  simp only [Bool.false_eq_true, if_false]
  repeat' split
  all_goals exact ⟨_, rfl⟩

/-- A spool that is truncated is left alone. -/
theorem appendSpool_of_truncated (limits : SpoolLimits Row) {dir : SpoolDir Row} (rows : List Row)
    (hopen : dir.readManifest.isSealed = false) (htruncated : dir.readManifest.truncated = true) :
  appendSpool limits rows dir = .ok dir
  := by
  rw [appendSpool]
  dsimp only
  rw [hopen, htruncated]
  simp only [Bool.false_eq_true, if_false, if_true, ite_self]

/-! ### All batches -/

/-- The spool keeps a beginning of the rows that were appended, within its limits, and all of them
unless it is truncated. -/
structure Spooled (limits : SpoolLimits Row) (appended : List Row) (dir : SpoolDir Row) :
    Prop where
  sound : dir.Sound
  within : dir.Within limits
  mutable : dir.readManifest.isSealed = false
  stored : dir.rows <+: appended
  complete : dir.readManifest.truncated = false → dir.rows = appended

theorem Spooled.append {limits : SpoolLimits Row} {appended : List Row} {dir : SpoolDir Row}
    (h : Spooled limits appended dir) (rows : List Row) :
  ∃ dir', appendSpool limits rows dir = .ok dir' ∧ Spooled limits (appended ++ rows) dir'
  := by
  obtain ⟨dir', hdir'⟩ := appendSpool_returns limits rows h.mutable
  refine ⟨dir', hdir', ?_⟩
  cases htruncated : dir.readManifest.truncated with
  | true =>
      rw [appendSpool_of_truncated limits rows h.mutable htruncated] at hdir'
      obtain rfl := Except.ok.inj hdir'
      refine ⟨h.sound, h.within, h.mutable, h.stored.trans (List.prefix_append _ _), ?_⟩
      intro hfalse
      cases htruncated.symm.trans hfalse
  | false =>
      have happended := appendSpool_spec limits h.sound hdir'
      obtain ⟨written, hwritten, hrows, hall⟩ := happended.written
      have hbefore := h.complete htruncated
      refine ⟨happended.sound, appendSpool_within limits h.within hdir',
        happended.isSealed.trans h.mutable, ?_, ?_⟩
      · rw [hrows, hbefore]
        apply (List.prefix_append_right_inj appended).mpr hwritten
      · intro hopen
        rw [hrows, hbefore, hall hopen]

theorem Spooled.appendBatches {limits : SpoolLimits Row} {appended : List Row}
    {dir : SpoolDir Row} (h : Spooled limits appended dir) (batches : List (List Row)) :
  ∃ dir', appendBatches limits batches dir = .ok dir'
    ∧ Spooled limits (appended ++ batches.flatten) dir'
  := by
  induction batches generalizing appended dir with
  | nil =>
      refine ⟨dir, rfl, ?_⟩
      rw [List.flatten_nil, List.append_nil]
      apply h
  | cons rows batches ih =>
      obtain ⟨dir', hdir', hspooled⟩ := h.append rows
      obtain ⟨dir'', hdir'', hspooled''⟩ := ih hspooled
      refine ⟨dir'', ?_, ?_⟩
      · rw [Results.appendBatches, List.foldlM_cons, hdir']
        apply hdir''
      · rw [List.flatten_cons, ← List.append_assoc]
        apply hspooled''

/-- A spool that is truncated keeps the rows it has. -/
theorem appendBatches_of_truncated (limits : SpoolLimits Row) {dir : SpoolDir Row}
    (batches : List (List Row)) (hopen : dir.readManifest.isSealed = false)
    (htruncated : dir.readManifest.truncated = true) :
  appendBatches limits batches dir = .ok dir
  := by
  induction batches with
  | nil => rfl
  | cons rows batches ih =>
      rw [appendBatches, List.foldlM_cons, appendSpool_of_truncated limits rows hopen htruncated]
      apply ih

/-- What holds of a spool that the batches were appended to. -/
structure SpoolLaw (limits : SpoolLimits Row) (batches : List (List Row)) (dir : SpoolDir Row) :
    Prop where
  stored : dir.rows <+: batches.flatten
  loadedRows : dir.readManifest.loadedRows = dir.rows.length
  maxRows : dir.readManifest.loadedRows ≤ limits.maxRows
  maxBytes : dir.readManifest.dataBytes ≤ limits.maxBytes
  truncated : dir.rows ≠ batches.flatten → dir.readManifest.truncated = true
  final : dir.readManifest.truncated = true → ∀ later, appendBatches limits later dir = .ok dir
  fetched : ∀ offset limit : ℤ, fetchCheckedRange dir offset limit
    = if offset < 0 then .error .negativeOffset
      else if limit < 0 then .error .negativeLimit
      else .ok ((dir.rows.drop offset.toNat).take limit.toNat)
  paged : ∀ pageSize fuel : ℕ, 0 < pageSize → dir.rows.length < fuel →
    iterSpoolRows dir pageSize fuel 0 = some dir.rows

/-- Every sequence of batches can be appended to a fresh spool, and the spool keeps a beginning of
their rows within its limits, is truncated unless it keeps all, and gives back what it keeps, by
range and by page. -/
theorem spool_law (limits : SpoolLimits Row) (batches : List (List Row)) :
  ∃ dir, appendBatches limits batches {} = .ok dir ∧ SpoolLaw limits batches dir
  := by
  have hfresh : Spooled limits [] ({} : SpoolDir Row) :=
    ⟨SpoolDir.sound_empty, ⟨Nat.zero_le _, Nat.zero_le _⟩, rfl, List.prefix_refl _, fun _ => rfl⟩
  obtain ⟨dir, hdir, h⟩ := hfresh.appendBatches batches
  rw [List.nil_append] at h
  refine ⟨dir, hdir, h.stored, h.sound.counted, h.within.rows, h.within.bytes, ?_, ?_, ?_, ?_⟩
  · intro hne
    by_contra hfalse
    apply hne (h.complete ((Bool.not_eq_true _).mp hfalse))
  · intro htruncated later
    apply appendBatches_of_truncated limits later h.mutable htruncated
  · intro offset limit
    rw [fetchCheckedRange, fetchRange_eq h.sound]
  · intro pageSize fuel hpageSize hfuel
    rw [iterSpoolRows_eq h.sound hpageSize (by omega) (by omega), List.drop_zero]

/-- The third of four rows is the last that a spool of three rows keeps. -/
example :
  (appendBatches ⟨3, 9, List.length⟩ [[1, 2], [3, 4]] {}).toOption.map
      (fun dir => (iterSpoolRows dir 2 4 0, dir.readManifest.truncated))
    = some (some [1, 2, 3], true)
  := by
  rfl

end Results

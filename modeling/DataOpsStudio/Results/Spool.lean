import DataOpsStudio.Library.Dict
import DataOpsStudio.Library.Text
import Mathlib.Tactic.Use

/-!
# Spools

The rows of a result set are kept in a directory: a manifest lists the parts, and a part is a file
with some of the rows.  Rows are appended by writing one more part and then the manifest; a spool
that has reached its limits is truncated, and takes no more rows.  A row is taken as it is encoded
in a part.

A spool whose directory has been deleted looks like one that was never written.
-/

namespace Results

open Text

/-- The limits of a spool, and the size of the file that a list of rows is written to. -/
structure SpoolLimits (Row : Type) where
  maxRows : ℕ
  maxBytes : ℕ
  partBytes : List Row → ℕ

/-- A part as the manifest lists it; the path is given by the index. -/
structure PartInfo where
  index : ℕ
  rows : ℕ
  bytes : ℕ
deriving DecidableEq

/-- The manifest of a spool. -/
structure SpoolManifest where
  parts : List PartInfo := []
  columns : List Text := []
  loadedRows : ℕ := 0
  dataBytes : ℕ := 0
  isSealed : Bool := false
  truncated : Bool := false
  hasMore : Bool := false
  resultVersion : ℕ := 0
deriving DecidableEq

/-- The directory of a spool. -/
structure SpoolDir (Row : Type) where
  manifest : Option SpoolManifest := none
  files : Dict ℕ (List Row) := Dict.empty

/-- What the store raises when a sealed spool is to be changed. -/
inductive ResultStoreError where
  | sealedSpool
deriving DecidableEq

namespace SpoolDir

variable {Row : Type}

def readManifest (dir : SpoolDir Row) : SpoolManifest :=
  dir.manifest.getD {}

/-- Writes the manifest.  Its version goes up, and what is truncated has more rows. -/
def writeManifest (dir : SpoolDir Row) (manifest : SpoolManifest) : SpoolDir Row :=
  { dir with
    manifest := some { manifest with
      hasMore := manifest.hasMore || manifest.truncated
      resultVersion := manifest.resultVersion + 1 } }

/-- The rows of a part. -/
def partRows (dir : SpoolDir Row) (part : PartInfo) : List Row :=
  (dir.files.get? part.index).getD []

/-- Writes a part file. -/
def writePart (dir : SpoolDir Row) (index : ℕ) (rows : List Row) : SpoolDir Row :=
  { dir with files := dir.files.set index rows }

/-- The rows of the spool, in order. -/
def rows (dir : SpoolDir Row) : List Row :=
  dir.readManifest.parts.flatMap dir.partRows

end SpoolDir

/-! ### Appending rows -/

section Append

variable {Row : Type}

/-- Searches for the largest number of rows that fit, between `low` and `high`; `best` is the
largest number found so far. -/
def bestFit (fits : ℕ → Bool) (low high best : ℕ) : ℕ :=
  if low ≤ high then
    let mid := (low + high) / 2
    if mid = 0 then bestFit fits 1 high best
    else if fits mid then bestFit fits (mid + 1) high mid
    else bestFit fits low (mid - 1) best
  else best
termination_by high + 1 - low
decreasing_by all_goals omega

/-- The rows that fit into the bytes that remain. -/
def fitRowsToRemainingBytes (limits : SpoolLimits Row) (rows : List Row) (remainingBytes : ℕ) :
    List Row :=
  if limits.partBytes rows ≤ remainingBytes then rows
  else
    rows.take (bestFit (fun n => limits.partBytes (rows.take n) ≤ remainingBytes) 0 rows.length 0)

/-- Lists a part that has been written. -/
def SpoolManifest.addPart (limits : SpoolLimits Row) (manifest : SpoolManifest) (index : ℕ)
    (written : List Row) : SpoolManifest :=
  let loadedRows := manifest.loadedRows + written.length
  let dataBytes := manifest.dataBytes + limits.partBytes written
  { manifest with
    parts := manifest.parts
      ++ [{ index := index, rows := written.length, bytes := limits.partBytes written }]
    loadedRows := loadedRows
    dataBytes := dataBytes
    truncated := manifest.truncated || limits.maxRows ≤ loadedRows
      || limits.maxBytes ≤ dataBytes }

/-- Writes those of the candidates that fit to a new part. -/
def appendPart (limits : SpoolLimits Row) (dir : SpoolDir Row) (manifest : SpoolManifest)
    (candidates : List Row) : SpoolDir Row :=
  let index := manifest.parts.length + 1
  match fitRowsToRemainingBytes limits candidates (limits.maxBytes - manifest.dataBytes) with
  | [] => dir.writeManifest { manifest with truncated := true }
  | row :: more =>
      let written := row :: more
      let manifest := { manifest with
        truncated := manifest.truncated || written.length < candidates.length }
      (dir.writePart index written).writeManifest (manifest.addPart limits index written)

/-- Appends rows to a spool. -/
def appendSpool (limits : SpoolLimits Row) (rows : List Row) (dir : SpoolDir Row) :
    Except ResultStoreError (SpoolDir Row) :=
  let manifest := dir.readManifest
  if rows.isEmpty then .ok dir
  else if manifest.isSealed then .error .sealedSpool
  else if manifest.truncated then .ok dir
  else if limits.maxRows ≤ manifest.loadedRows then
    .ok (dir.writeManifest { manifest with truncated := true })
  else
    let candidates := rows.take (limits.maxRows - manifest.loadedRows)
    if limits.maxBytes ≤ manifest.dataBytes then
      .ok (dir.writeManifest { manifest with truncated := true })
    else
      .ok (appendPart limits dir
        { manifest with truncated := candidates.length < rows.length } candidates)

/-- Notes that there are rows that have not been written. -/
def markSpoolTruncated (dir : SpoolDir Row) : Except ResultStoreError (SpoolDir Row) :=
  let manifest := dir.readManifest
  if manifest.isSealed then .error .sealedSpool
  else if manifest.truncated ∧ manifest.hasMore then .ok dir
  else .ok (dir.writeManifest { manifest with truncated := true, hasMore := true })

/-- Notes whether there are more rows to be read. -/
def setSpoolPagination (hasMore : Bool) (dir : SpoolDir Row) :
    Except ResultStoreError (SpoolDir Row) :=
  let manifest := dir.readManifest
  if manifest.isSealed then .error .sealedSpool
  else .ok (dir.writeManifest { manifest with hasMore := hasMore || manifest.truncated })

def setSpoolColumns (columns : List Text) (dir : SpoolDir Row) :
    Except ResultStoreError (SpoolDir Row) :=
  let manifest := dir.readManifest
  if manifest.isSealed then .error .sealedSpool
  else .ok (dir.writeManifest { manifest with columns := columns })

end Append

/-! ### Reading rows -/

section Fetch

variable {Row : Type}

/-- Reads the rows between `wantedStart` and `wantedEnd` from parts of which the first begins at
`currentStart`. -/
def fetchParts (dir : SpoolDir Row) (wantedStart wantedEnd limit : ℕ) :
    List PartInfo → ℕ → List Row → List Row
  | [], _, out => out
  | part :: parts, currentStart, out =>
      let currentEnd := currentStart + part.rows
      if currentEnd ≤ wantedStart then
        fetchParts dir wantedStart wantedEnd limit parts currentEnd out
      else if wantedEnd ≤ currentStart then out
      else
        let localStart := wantedStart - currentStart
        let localEnd := min (wantedEnd - currentStart) part.rows
        let out := out ++ ((dir.partRows part).drop localStart).take (localEnd - localStart)
        if limit ≤ out.length then out
        else fetchParts dir wantedStart wantedEnd limit parts currentEnd out

/-- The rows of a spool from `offset` on, `limit` of them. -/
def fetchRange (dir : SpoolDir Row) (offset limit : ℕ) : List Row :=
  if limit = 0 then []
  else (fetchParts dir offset (offset + limit) limit dir.readManifest.parts 0 []).take limit

end Fetch

/-! ### Well-formed spools -/

variable {Row : Type}

/-- The parts are numbered from one on, every part has a file with as many rows as the manifest
says, and the rows are counted. -/
structure SpoolDir.Sound (dir : SpoolDir Row) : Prop where
  numbered : ∀ part ∈ dir.readManifest.parts, part.index ≤ dir.readManifest.parts.length
  filed : ∀ part ∈ dir.readManifest.parts, (dir.partRows part).length = part.rows
  counted : dir.readManifest.loadedRows = dir.rows.length

theorem SpoolDir.sound_empty :
  ({} : SpoolDir Row).Sound
  := ⟨fun _ h => (List.not_mem_nil h).elim, fun _ h => (List.not_mem_nil h).elim, rfl⟩

@[simp]
theorem readManifest_writeManifest (dir : SpoolDir Row) (manifest : SpoolManifest) :
  (dir.writeManifest manifest).readManifest
    = { manifest with
        hasMore := manifest.hasMore || manifest.truncated
        resultVersion := manifest.resultVersion + 1 }
  := rfl

/-- To write a manifest that lists the same parts keeps the rows. -/
theorem rows_writeManifest {dir : SpoolDir Row} {manifest : SpoolManifest}
    (h : manifest.parts = dir.readManifest.parts) :
  (dir.writeManifest manifest).rows = dir.rows
  := by
  rw [SpoolDir.rows, readManifest_writeManifest, h]
  rfl

theorem SpoolDir.Sound.writeManifest {dir : SpoolDir Row} (hdir : dir.Sound)
    {manifest : SpoolManifest} (hparts : manifest.parts = dir.readManifest.parts)
    (hloaded : manifest.loadedRows = dir.readManifest.loadedRows) :
  (dir.writeManifest manifest).Sound
  := by
  obtain ⟨hnumbered, hfiled, hcounted⟩ := hdir
  constructor
  · rw [readManifest_writeManifest, hparts]
    apply hnumbered
  · rw [readManifest_writeManifest, hparts]
    apply hfiled
  · rw [rows_writeManifest hparts, ← hcounted]
    apply hloaded

/-! ### What is appended -/

theorem fitRows_prefix (limits : SpoolLimits Row) (rows : List Row) (remainingBytes : ℕ) :
  fitRowsToRemainingBytes limits rows remainingBytes <+: rows
  := by
  rw [fitRowsToRemainingBytes]
  split
  · apply List.prefix_refl
  · apply List.take_prefix

/-- What has been appended to a spool: a part of the rows, and all of them unless the spool is
truncated. -/
structure Appended (dir : SpoolDir Row) (rows : List Row) (dir' : SpoolDir Row) : Prop where
  sound : dir'.Sound
  isSealed : dir'.readManifest.isSealed = dir.readManifest.isSealed
  written : ∃ written, written <+: rows ∧ dir'.rows = dir.rows ++ written
    ∧ (dir'.readManifest.truncated = false → written = rows)
  truncated : dir'.readManifest.truncated = false → dir.readManifest.truncated = false

/-- A spool that is truncated takes no rows. -/
theorem Appended.of_truncated {dir : SpoolDir Row} (hdir : dir.Sound) {rows : List Row}
    {manifest : SpoolManifest} (hparts : manifest.parts = dir.readManifest.parts)
    (hloaded : manifest.loadedRows = dir.readManifest.loadedRows)
    (hsealed : manifest.isSealed = dir.readManifest.isSealed) (htruncated : manifest.truncated = true) :
  Appended dir rows (dir.writeManifest manifest)
  := by
  refine ⟨hdir.writeManifest hparts hloaded, hsealed, ⟨[], List.nil_prefix, ?_, ?_⟩, ?_⟩
  · rw [rows_writeManifest hparts, List.append_nil]
  · intro hfalse
    cases htruncated.symm.trans hfalse
  · intro hfalse
    cases htruncated.symm.trans hfalse

section AddPart

variable {dir : SpoolDir Row} {limits : SpoolLimits Row} {manifest : SpoolManifest}
  {written : List Row}

/-- A part that is written next to the others leaves them as they are. -/
theorem partRows_writePart (hdir : dir.Sound) {part : PartInfo}
    (hpart : part ∈ dir.readManifest.parts) :
  (dir.writePart (dir.readManifest.parts.length + 1) written).partRows part = dir.partRows part
  := by
  have hle := hdir.numbered part hpart
  rw [SpoolDir.partRows, SpoolDir.partRows, SpoolDir.writePart, Dict.get?_set_of_ne]
  omega

/-- A part that is written and listed adds its rows at the end. -/
theorem rows_addPart (hdir : dir.Sound) (hparts : manifest.parts = dir.readManifest.parts) :
  ((dir.writePart (manifest.parts.length + 1) written).writeManifest
      (manifest.addPart limits (manifest.parts.length + 1) written)).rows
    = dir.rows ++ written
  := by
  rw [SpoolDir.rows, readManifest_writeManifest, SpoolManifest.addPart, hparts]
  dsimp only
  rw [List.flatMap_append, List.flatMap_singleton, SpoolDir.rows]
  congr 1
  · apply List.flatMap_congr
    intro part hpart
    apply partRows_writePart hdir hpart
  · show ((dir.files.set _ _).get? _).getD [] = written
    rw [Dict.get?_set_self]
    rfl

/-- The parts after a part has been listed. -/
theorem mem_parts_addPart {index : ℕ} {part : PartInfo} :
  part ∈ (dir.writeManifest (manifest.addPart limits index written)).readManifest.parts
    ↔ part ∈ manifest.parts
      ∨ part = { index := index, rows := written.length, bytes := limits.partBytes written }
  := by
  rw [readManifest_writeManifest, SpoolManifest.addPart, List.mem_append, List.mem_singleton]

theorem sound_addPart (hdir : dir.Sound) (hparts : manifest.parts = dir.readManifest.parts)
    (hloaded : manifest.loadedRows = dir.readManifest.loadedRows) :
  ((dir.writePart (manifest.parts.length + 1) written).writeManifest
    (manifest.addPart limits (manifest.parts.length + 1) written)).Sound
  := by
  constructor
  · intro part hpart
    rw [readManifest_writeManifest, SpoolManifest.addPart, List.length_append, List.length_singleton]
    obtain hpart | rfl := mem_parts_addPart.mp hpart
    · rw [hparts] at hpart ⊢
      apply Nat.le_succ_of_le (hdir.numbered part hpart)
    · apply Nat.le_refl
  · intro part hpart
    obtain hpart | rfl := mem_parts_addPart.mp hpart
    · rw [hparts] at hpart ⊢
      rw [← hdir.filed part hpart]
      congr 1
      apply partRows_writePart hdir hpart
    · show (((dir.files.set _ _).get? _).getD []).length = written.length
      rw [Dict.get?_set_self]
      rfl
  · rw [rows_addPart hdir hparts, List.length_append, ← hdir.counted, ← hloaded]
    rfl

end AddPart

theorem appendPart_spec (limits : SpoolLimits Row) {dir : SpoolDir Row} (hdir : dir.Sound)
    {manifest : SpoolManifest} {rows candidates : List Row}
    (hparts : manifest.parts = dir.readManifest.parts)
    (hloaded : manifest.loadedRows = dir.readManifest.loadedRows)
    (hsealed : manifest.isSealed = dir.readManifest.isSealed)
    (hopen : dir.readManifest.truncated = false) (hcandidates : candidates <+: rows)
    (hall : manifest.truncated = false → candidates = rows) :
  Appended dir rows (appendPart limits dir manifest candidates)
  := by
  have hprefix := fitRows_prefix limits candidates (limits.maxBytes - manifest.dataBytes)
  rw [appendPart]
  split
  · exact .of_truncated hdir hparts hloaded hsealed rfl
  · rename_i row more hfit
    rw [hfit] at hprefix
    refine ⟨sound_addPart hdir hparts hloaded, hsealed, ⟨row :: more, hprefix.trans hcandidates,
      rows_addPart hdir hparts, ?_⟩, fun _ => hopen⟩
    intro hfalse
    rw [readManifest_writeManifest, SpoolManifest.addPart] at hfalse
    simp only [Bool.or_eq_false_iff, decide_eq_false_iff_not] at hfalse
    obtain ⟨⟨⟨huncut, hlength⟩, -⟩, -⟩ := hfalse
    rw [← hall huncut]
    apply hprefix.eq_of_length_le
    omega

/-- A spool that is not sealed takes rows until it reaches its limits. -/
theorem appendSpool_spec (limits : SpoolLimits Row) {dir dir' : SpoolDir Row} (hdir : dir.Sound)
    {rows : List Row} (h : appendSpool limits rows dir = .ok dir') :
  Appended dir rows dir'
  := by
  rw [appendSpool] at h
  dsimp only at h
  split at h
  case isTrue hempty =>
    obtain rfl := Except.ok.inj h
    rw [List.isEmpty_iff] at hempty
    subst hempty
    exact ⟨hdir, rfl, ⟨[], List.prefix_refl _, (List.append_nil _).symm, fun _ => rfl⟩, id⟩
  split at h
  case isTrue =>
    cases h
  split at h
  case isTrue htruncated =>
    obtain rfl := Except.ok.inj h
    refine ⟨hdir, rfl, ⟨[], List.nil_prefix, (List.append_nil _).symm, ?_⟩, id⟩
    intro hfalse
    cases htruncated.symm.trans hfalse
  rename_i hopen
  split at h
  case isTrue =>
    obtain rfl := Except.ok.inj h
    exact .of_truncated hdir rfl rfl rfl rfl
  split at h
  case isTrue =>
    obtain rfl := Except.ok.inj h
    exact .of_truncated hdir rfl rfl rfl rfl
  obtain rfl := Except.ok.inj h
  refine appendPart_spec limits hdir rfl rfl rfl ((Bool.not_eq_true _).mp hopen)
    (List.take_prefix _ _) ?_
  intro huncut
  apply (List.take_prefix _ _).eq_of_length_le
  apply Nat.le_of_not_lt
  apply of_decide_eq_false huncut

theorem markSpoolTruncated_spec {dir dir' : SpoolDir Row} (hdir : dir.Sound)
    (h : markSpoolTruncated dir = .ok dir') :
  dir'.Sound ∧ dir'.rows = dir.rows ∧ dir'.readManifest.truncated = true
    ∧ dir'.readManifest.isSealed = dir.readManifest.isSealed
  := by
  rw [markSpoolTruncated] at h
  split at h
  case isTrue =>
    cases h
  split at h
  case isTrue htruncated =>
    obtain rfl := Except.ok.inj h
    exact ⟨hdir, rfl, htruncated.1, rfl⟩
  obtain rfl := Except.ok.inj h
  exact ⟨hdir.writeManifest rfl rfl, rows_writeManifest rfl, rfl, rfl⟩

theorem setSpoolPagination_spec {dir dir' : SpoolDir Row} (hdir : dir.Sound) {hasMore : Bool}
    (h : setSpoolPagination hasMore dir = .ok dir') :
  dir'.Sound ∧ dir'.rows = dir.rows
    ∧ dir'.readManifest.truncated = dir.readManifest.truncated
    ∧ dir'.readManifest.isSealed = dir.readManifest.isSealed
  := by
  rw [setSpoolPagination] at h
  split at h
  case isTrue =>
    cases h
  obtain rfl := Except.ok.inj h
  exact ⟨hdir.writeManifest rfl rfl, rows_writeManifest rfl, rfl, rfl⟩

theorem setSpoolColumns_spec {dir dir' : SpoolDir Row} (hdir : dir.Sound) {columns : List Text}
    (h : setSpoolColumns columns dir = .ok dir') :
  dir'.Sound ∧ dir'.rows = dir.rows
    ∧ dir'.readManifest.truncated = dir.readManifest.truncated
    ∧ dir'.readManifest.isSealed = dir.readManifest.isSealed
  := by
  rw [setSpoolColumns] at h
  split at h
  case isTrue =>
    cases h
  obtain rfl := Except.ok.inj h
  exact ⟨hdir.writeManifest rfl rfl, rows_writeManifest rfl, rfl, rfl⟩

/-! ### What is read -/

/-- The parts are read as one list of rows that begins at `currentStart`.  The output is what has
been read before. -/
theorem fetchParts_eq {dir : SpoolDir Row} {wantedStart limit : ℕ} {parts : List PartInfo}
    (hfiled : ∀ part ∈ parts, (dir.partRows part).length = part.rows) {currentStart : ℕ}
    {out : List Row}
    (hout : out.length = min (wantedStart + limit) currentStart - wantedStart) :
  fetchParts dir wantedStart (wantedStart + limit) limit parts currentStart out
    = out ++ ((parts.flatMap dir.partRows).drop (wantedStart - currentStart)).take
        (wantedStart + limit - max currentStart wantedStart)
  := by
  induction parts generalizing currentStart out with
  | nil => rw [fetchParts, List.flatMap_nil, List.drop_nil, List.take_nil, List.append_nil]
  | cons part parts ih =>
      have hpart := hfiled part List.mem_cons_self
      have hparts := fun p hp => hfiled p (List.mem_cons_of_mem part hp)
      have hcut : (part :: parts).flatMap dir.partRows = dir.partRows part
          ++ parts.flatMap dir.partRows := List.flatMap_cons
      have hstart : wantedStart - (currentStart + part.rows)
          = wantedStart - currentStart - part.rows := by omega
      have hlimit : wantedStart + limit - max (currentStart + part.rows) wantedStart
          = wantedStart + limit - max currentStart wantedStart
            - (part.rows - (wantedStart - currentStart)) := by omega
      rw [fetchParts, hcut, List.drop_append, List.take_append, List.length_drop, hpart]
      dsimp only
      split
      case isTrue hbefore =>
        rw [ih hparts (by omega), List.drop_of_length_le (by omega : (dir.partRows part).length ≤ _),
          List.take_nil, List.nil_append, hstart, hlimit]
      split
      case isTrue hafter =>
        rw [show wantedStart + limit - max currentStart wantedStart = 0 by omega, List.take_zero,
          Nat.zero_sub, List.take_zero, List.append_nil, List.append_nil]
      -- The window begins before the end of the part and ends after its beginning.
      have hread : ((dir.partRows part).drop (wantedStart - currentStart)).take
            (min (wantedStart + limit - currentStart) part.rows - (wantedStart - currentStart))
          = ((dir.partRows part).drop (wantedStart - currentStart)).take
            (wantedStart + limit - max currentStart wantedStart) := by
        rw [List.take_eq_take_iff, List.length_drop, hpart]
        omega
      have hlength : (((dir.partRows part).drop (wantedStart - currentStart)).take
          (wantedStart + limit - max currentStart wantedStart)).length
          = min (wantedStart + limit - max currentStart wantedStart)
            (part.rows - (wantedStart - currentStart)) := by
        rw [List.length_take, List.length_drop, hpart]
      rw [hread, List.length_append, hlength]
      split
      case isTrue hfull =>
        rw [show wantedStart + limit - max currentStart wantedStart
          - (part.rows - (wantedStart - currentStart)) = 0 by omega, List.take_zero, List.append_nil]
      · rw [ih hparts (by rw [List.length_append, hlength]; omega), List.append_assoc, hstart,
          hlimit]

/-- The rows that are read are the rows of the spool from `offset` on, at most `limit` of them. -/
theorem fetchRange_eq {dir : SpoolDir Row} (hdir : dir.Sound) (offset limit : ℕ) :
  fetchRange dir offset limit = (dir.rows.drop offset).take limit
  := by
  rw [fetchRange]
  split
  case isTrue hzero =>
    rw [hzero, List.take_zero]
  rw [fetchParts_eq hdir.filed (by simp)]
  simp only [List.nil_append, Nat.sub_zero, Nat.zero_max, Nat.add_sub_cancel_left, List.take_take,
    Nat.min_self]
  rfl

end Results

import DataOpsStudio.Results.Spool

/-!
# Attempts at a query

A job that runs a query reads rows and appends them in batches to the spool of its result set.  It
may stop at any point, by a crash or by an exception, and be tried again later, under the same
identifier and with the same spool.  Nothing takes back what the attempts before have appended.
-/

namespace Results

open Text

variable {Row : Type}

/-! ### One attempt -/

/-- What is fixed for all attempts of a job. -/
structure SqlQuery where
  sqlSpoolBatchSize : ℕ
  pageSize : ℕ
  maxResultRows : ℕ
  pageBounded : Bool
  pageOffset : ℕ := 0
  maxResultRows_pos : 0 < maxResultRows := by decide

def SqlQuery.spoolBatchSize (query : SqlQuery) : ℕ :=
  min query.sqlSpoolBatchSize query.pageSize

/-- How many rows an attempt accepts. -/
def SqlQuery.acceptedRowLimit (query : SqlQuery) : ℕ :=
  if query.pageBounded then min query.pageSize (query.maxResultRows - query.pageOffset)
  else query.maxResultRows

/-- An attempt: the columns and the rows that the database yields, and after how many writes to the
spool it stops, if it does.  When it stops in the middle of an append it may leave a part behind
that the manifest does not list. -/
structure Attempt (Row : Type) where
  columns : List Text
  rows : List Row
  stopsAfter : Option ℕ := none
  orphan : Option (List Row) := none

/-- The rows that an attempt accepts when it is not cut short. -/
def Attempt.accepted (attempt : Attempt Row) (query : SqlQuery) : List Row :=
  attempt.rows.take query.acceptedRowLimit

/-- The spool while an attempt is made: how many more writes there are before it stops, and whether
an append has reached the limits of the spool. -/
structure Writing (Row : Type) where
  dir : SpoolDir Row
  writesLeft : Option ℕ
  limitReached : Bool := false

/-- A write to the spool, unless the attempt stops before it. -/
def Writing.write (w : Writing Row)
    (op : SpoolDir Row → Except ResultStoreError (SpoolDir Row)) : Writing Row × Bool :=
  if w.writesLeft = some 0 then (w, false)
  else
    match op w.dir with
    | .error _ => (w, false)
    | .ok dir => ({ w with dir := dir, writesLeft := w.writesLeft.map Nat.pred }, true)

/-- A part that was written is left behind. -/
def Writing.leave (w : Writing Row) : Option (List Row) → Writing Row
  | none => w
  | some rows =>
      { w with dir := w.dir.writePart (w.dir.readManifest.parts.length + 1) rows }

/-- A batch is appended.  It is noted when this has made the spool truncated. -/
def Writing.flush (w : Writing Row) (limits : SpoolLimits Row) (orphan : Option (List Row))
    (batch : List Row) : Writing Row × Bool :=
  match w.write (appendSpool limits batch) with
  | (w', true) =>
      ({ w' with
        limitReached := w.limitReached
          || !w.dir.readManifest.truncated && w'.dir.readManifest.truncated }, true)
  | (w', false) => (w'.leave orphan, false)

/-- What the loop over the rows comes to: the rows that are still to be appended, how many rows were
accepted, and whether there were more; or nothing, if the attempt has stopped. -/
structure LoopEnd (Row : Type) where
  batch : List Row
  acceptedRows : ℕ
  queryTruncated : Bool

/-- The loop over the rows. -/
def readRows (limits : SpoolLimits Row) (query : SqlQuery) (orphan : Option (List Row)) :
    List Row → ℕ → List Row → Writing Row → Writing Row × Option (LoopEnd Row)
  | [], acceptedRows, batch, w => (w, some ⟨batch, acceptedRows, false⟩)
  | row :: rest, acceptedRows, batch, w =>
      if query.acceptedRowLimit ≤ acceptedRows then (w, some ⟨batch, acceptedRows, true⟩)
      else if query.spoolBatchSize ≤ (batch ++ [row]).length then
        match w.flush limits orphan (batch ++ [row]) with
        | (w, false) => (w, none)
        | (w, true) =>
            if w.dir.readManifest.truncated then (w, some ⟨[], acceptedRows + 1, false⟩)
            else readRows limits query orphan rest (acceptedRows + 1) [] w
      else readRows limits query orphan rest (acceptedRows + 1) (batch ++ [row]) w

/-- What is noted about the rows that were not read. -/
def noteMore (query : SqlQuery) (ending : LoopEnd Row) (w : Writing Row) : Writing Row × Bool :=
  if query.pageBounded then
    let reachedSafetyLimit := query.maxResultRows ≤ query.pageOffset + ending.acceptedRows
    if ending.queryTruncated ∧ reachedSafetyLimit then
      match w.write markSpoolTruncated with
      | (w, false) => (w, false)
      | (w, true) => w.write (setSpoolPagination ending.queryTruncated)
    else w.write (setSpoolPagination ending.queryTruncated)
  else if ending.queryTruncated then w.write markSpoolTruncated
  else (w, true)

/-- The rows that are left over are appended, and what is left unread is noted. -/
def finishRows (limits : SpoolLimits Row) (query : SqlQuery) (orphan : Option (List Row))
    (ending : LoopEnd Row) (w : Writing Row) : Writing Row × Bool :=
  if ending.batch.isEmpty then noteMore query ending w
  else
    match w.flush limits orphan ending.batch with
    | (w, false) => (w, false)
    | (w, true) => noteMore query ending w

/-- The rows are read and appended.  It comes with the number of rows in the spool. -/
def readQuery (limits : SpoolLimits Row) (query : SqlQuery) (attempt : Attempt Row)
    (w : Writing Row) : Writing Row × Option ℕ :=
  match readRows limits query attempt.orphan attempt.rows 0 [] w with
  | (w, none) => (w, none)
  | (w, some ending) =>
      match finishRows limits query attempt.orphan ending w with
      | (w, false) => (w, none)
      | (w, true) => (w, some w.dir.readManifest.loadedRows)

/-- An attempt at a query.  It comes with the number of rows in the spool when it gets to its end. -/
def executeSqlQuery (limits : SpoolLimits Row) (query : SqlQuery) (attempt : Attempt Row)
    (dir : SpoolDir Row) : Writing Row × Option ℕ :=
  let w : Writing Row := { dir := dir, writesLeft := attempt.stopsAfter }
  if query.pageBounded ∧ query.acceptedRowLimit = 0 then (w, none)
  else
    match w.write (setSpoolColumns attempt.columns) with
    | (w, false) => (w, none)
    | (w, true) => readQuery limits query attempt w

/-- The attempts of a job, one after the other, and whether some append has reached the limits of
the spool. -/
def attempts (limits : SpoolLimits Row) (query : SqlQuery) :
    List (Attempt Row) → SpoolDir Row → SpoolDir Row × Bool
  | [], dir => (dir, false)
  | attempt :: rest, dir =>
      let w := (executeSqlQuery limits query attempt dir).1
      let (dir, limitReached) := attempts limits query rest w.dir
      (dir, w.limitReached || limitReached)

/-! ### What an attempt writes -/

section Specs

variable {limits : SpoolLimits Row} {query : SqlQuery} {w w' : Writing Row}

/-- The spool is well formed and may be written to. -/
def Writing.Ready (w : Writing Row) : Prop :=
  w.dir.Sound ∧ w.dir.readManifest.isSealed = false

/-- A part that the manifest does not list does not matter. -/
theorem leave_spec (hw : w.Ready) (orphan : Option (List Row)) :
  (w.leave orphan).Ready ∧ (w.leave orphan).dir.rows = w.dir.rows
    ∧ (w.leave orphan).dir.readManifest = w.dir.readManifest
    ∧ (w.leave orphan).writesLeft = w.writesLeft
    ∧ (w.leave orphan).limitReached = w.limitReached
  := by
  cases orphan with
  | none => exact ⟨hw, rfl, rfl, rfl, rfl⟩
  | some rows =>
      have hparts : ∀ part ∈ w.dir.readManifest.parts,
          (w.dir.writePart (w.dir.readManifest.parts.length + 1) rows).partRows part
            = w.dir.partRows part :=
        fun part hpart => partRows_writePart hw.1 hpart
      have hrows : (w.dir.writePart (w.dir.readManifest.parts.length + 1) rows).rows = w.dir.rows :=
        List.flatMap_congr hparts
      refine ⟨⟨⟨hw.1.numbered, ?_, ?_⟩, hw.2⟩, hrows, rfl, rfl, rfl⟩
      · intro part hpart
        exact (congrArg List.length (hparts part hpart)).trans (hw.1.filed part hpart)
      · exact hw.1.counted.trans (congrArg List.length hrows.symm)

/-- What a write does: the attempt has stopped, or the write is done. -/
theorem write_eq {op : SpoolDir Row → Except ResultStoreError (SpoolDir Row)} {dir : SpoolDir Row}
    (hop : op w.dir = .ok dir) :
  w.writesLeft = some 0 ∧ w.write op = (w, false)
    ∨ w.writesLeft ≠ some 0
      ∧ w.write op = ({ w with dir := dir, writesLeft := w.writesLeft.map Nat.pred }, true)
  := by
  rw [Writing.write]
  split
  · rename_i hzero
    exact .inl ⟨hzero, rfl⟩
  · rename_i hleft
    rw [hop]
    exact .inr ⟨hleft, rfl⟩

theorem appendSpool_ok (limits : SpoolLimits Row) (hw : w.Ready) (batch : List Row) :
  ∃ dir, appendSpool limits batch w.dir = .ok dir
  := by
  rw [appendSpool]
  dsimp only
  rw [hw.2]
  split
  · exact ⟨_, rfl⟩
  split
  · contradiction
  split
  · exact ⟨_, rfl⟩
  split
  · exact ⟨_, rfl⟩
  split
  · exact ⟨_, rfl⟩
  · exact ⟨_, rfl⟩

theorem appendSpool_truncated (limits : SpoolLimits Row) (hw : w.Ready) (batch : List Row)
    (htruncated : w.dir.readManifest.truncated = true) :
  appendSpool limits batch w.dir = .ok w.dir
  := by
  rw [appendSpool]
  dsimp only
  rw [hw.2, htruncated]
  split
  · rfl
  · rfl

/-- What has happened to the spool: rows were written at its end, none if it was truncated
before. -/
structure Wrote (w w' : Writing Row) (written : List Row) : Prop where
  ready : w'.Ready
  rows : w'.dir.rows = w.dir.rows ++ written
  truncated : w.dir.readManifest.truncated = true →
    w'.dir.readManifest.truncated = true ∧ written = []
  limitReached : w'.limitReached = false → w.limitReached = false

theorem Wrote.refl (hw : w.Ready) :
  Wrote w w []
  := ⟨hw, (List.append_nil _).symm, fun h => ⟨h, rfl⟩, id⟩

theorem Wrote.trans {w'' : Writing Row} {written written' : List Row} (h : Wrote w w' written)
    (h' : Wrote w' w'' written') :
  Wrote w w'' (written ++ written')
  where
  ready := h'.ready
  rows := by rw [h'.rows, h.rows, List.append_assoc]
  truncated := by
    intro htruncated
    obtain ⟨htruncated, rfl⟩ := h.truncated htruncated
    obtain ⟨htruncated, rfl⟩ := h'.truncated htruncated
    exact ⟨htruncated, rfl⟩
  limitReached := h.limitReached ∘ h'.limitReached

/-- A batch is appended as a whole, unless the attempt stops or the spool is truncated. -/
theorem flush_spec (limits : SpoolLimits Row) (hw : w.Ready) (orphan : Option (List Row)) (batch : List Row) :
  (∃ w', w.flush limits orphan batch = (w', false) ∧ Wrote w w' [] ∧ w.writesLeft = some 0
    ∧ w'.writesLeft = some 0
    ∧ w'.dir.readManifest.truncated = w.dir.readManifest.truncated)
  ∨ ∃ w' written, w.flush limits orphan batch = (w', true) ∧ Wrote w w' written
    ∧ w.writesLeft ≠ some 0 ∧ (w.dir.readManifest.truncated = false → w'.limitReached = false →
      written = batch ∧ w'.dir.readManifest.truncated = false)
  := by
  obtain ⟨dir, hdir⟩ := appendSpool_ok limits hw batch
  obtain ⟨hzero, hwrite⟩ | ⟨hleft, hwrite⟩ := write_eq hdir
  · left
    obtain ⟨hready, hrows, hmanifest, hwrites, hlimit⟩ := leave_spec hw orphan
    refine ⟨w.leave orphan, ?_, ⟨hready, ?_, ?_, ?_⟩, hzero, hwrites.trans hzero, ?_⟩
    · rw [Writing.flush, hwrite]
    · rw [hrows, List.append_nil]
    · rw [hmanifest]
      exact fun h => ⟨h, rfl⟩
    · rw [hlimit]
      exact id
    · rw [hmanifest]
  · right
    obtain ⟨hsound, hsealed, ⟨written, hprefix, hrows, hall⟩, htruncated⟩ :=
      appendSpool_spec limits hw.1 hdir
    refine ⟨{ dir := dir
              writesLeft := w.writesLeft.map Nat.pred
              limitReached := w.limitReached
                || !w.dir.readManifest.truncated && dir.readManifest.truncated },
      written, ?_, ⟨⟨hsound, hsealed.trans hw.2⟩, hrows, ?_, ?_⟩, hleft, ?_⟩
    · rw [Writing.flush, hwrite]
    · intro hcut
      obtain rfl := Except.ok.inj (hdir.symm.trans (appendSpool_truncated limits hw batch hcut))
      exact ⟨hcut, List.self_eq_append_right.mp hrows⟩
    · intro hlimit
      exact (Bool.or_eq_false_iff.mp hlimit).1
    · intro hopen hlimit
      have hstill : dir.readManifest.truncated = false := by
        simpa [hopen] using (Bool.or_eq_false_iff.mp hlimit).2
      exact ⟨hall hstill, hstill⟩

/-- A write that appends nothing. -/
theorem write_spec {op : SpoolDir Row → Except ResultStoreError (SpoolDir Row)} {dir : SpoolDir Row}
    (hop : op w.dir = .ok dir) (hsound : dir.Sound) (hsealed : dir.readManifest.isSealed = false)
    (hrows : dir.rows = w.dir.rows)
    (htruncated : w.dir.readManifest.truncated = true → dir.readManifest.truncated = true)
    (hw : w.Ready) :
  ∃ w', (w.writesLeft = some 0 ∧ w.write op = (w', false) ∧ w' = w
      ∨ w.writesLeft ≠ some 0 ∧ w.write op = (w', true) ∧ w'.dir = dir
        ∧ w'.writesLeft = w.writesLeft.map Nat.pred) ∧ Wrote w w' []
  := by
  obtain ⟨hzero, hwrite⟩ | ⟨hleft, hwrite⟩ := write_eq hop
  · exact ⟨w, .inl ⟨hzero, hwrite, rfl⟩, .refl hw⟩
  · refine ⟨_, .inr ⟨hleft, hwrite, rfl, rfl⟩, ⟨hsound, hsealed⟩, ?_, ?_, id⟩
    · rw [hrows, List.append_nil]
    · exact fun h => ⟨htruncated h, rfl⟩

theorem markSpoolTruncated_ok (hw : w.Ready) :
  ∃ dir, markSpoolTruncated w.dir = .ok dir
  := by
  rw [markSpoolTruncated, hw.2]
  split
  · contradiction
  split
  · exact ⟨_, rfl⟩
  · exact ⟨_, rfl⟩

theorem setSpoolPagination_ok (hw : w.Ready) (hasMore : Bool) :
  ∃ dir, setSpoolPagination hasMore w.dir = .ok dir
  := by
  rw [setSpoolPagination, hw.2]
  exact ⟨_, rfl⟩

theorem setSpoolColumns_ok (hw : w.Ready) (columns : List Text) :
  ∃ dir, setSpoolColumns columns w.dir = .ok dir
  := by
  rw [setSpoolColumns, hw.2]
  exact ⟨_, rfl⟩

theorem write_markSpoolTruncated (hw : w.Ready) :
  Wrote w (w.write markSpoolTruncated).1 []
    ∧ (w.writesLeft = some 0 → w.write markSpoolTruncated = (w, false))
  := by
  obtain ⟨dir, hdir⟩ := markSpoolTruncated_ok hw
  obtain ⟨hsound, hrows, htruncated, hsealed⟩ := markSpoolTruncated_spec hw.1 hdir
  obtain ⟨w', h, hwrote⟩ :=
    write_spec hdir hsound (hsealed.trans hw.2) hrows (fun _ => htruncated) hw
  obtain ⟨hzero, hwrite, rfl⟩ | ⟨hleft, hwrite, -⟩ := h
  · rw [hwrite]
    exact ⟨hwrote, fun _ => rfl⟩
  · rw [hwrite]
    exact ⟨hwrote, fun hzero => (hleft hzero).elim⟩

theorem write_setSpoolPagination (hw : w.Ready) (hasMore : Bool) :
  Wrote w (w.write (setSpoolPagination hasMore)).1 []
    ∧ (w.write (setSpoolPagination hasMore)).1.dir.readManifest.truncated
      = w.dir.readManifest.truncated
  := by
  obtain ⟨dir, hdir⟩ := setSpoolPagination_ok hw hasMore
  obtain ⟨hsound, hrows, htruncated, hsealed⟩ := setSpoolPagination_spec hw.1 hdir
  obtain ⟨w', h, hwrote⟩ :=
    write_spec hdir hsound (hsealed.trans hw.2) hrows (fun h => htruncated.trans h) hw
  obtain ⟨hzero, hwrite, rfl⟩ | ⟨hleft, hwrite, hnew, -⟩ := h
  · rw [hwrite]
    exact ⟨hwrote, rfl⟩
  · rw [hwrite]
    exact ⟨hwrote, by rw [hnew, htruncated]⟩

theorem write_setSpoolColumns (hw : w.Ready) (columns : List Text) :
  Wrote w (w.write (setSpoolColumns columns)).1 []
    ∧ (w.write (setSpoolColumns columns)).1.dir.readManifest.truncated
      = w.dir.readManifest.truncated
    ∧ (w.writesLeft = some 0 ∧ (w.write (setSpoolColumns columns)).2 = false
      ∨ w.writesLeft ≠ some 0 ∧ (w.write (setSpoolColumns columns)).2 = true
        ∧ (w.write (setSpoolColumns columns)).1.writesLeft = w.writesLeft.map Nat.pred)
  := by
  obtain ⟨dir, hdir⟩ := setSpoolColumns_ok hw columns
  obtain ⟨hsound, hrows, htruncated, hsealed⟩ := setSpoolColumns_spec hw.1 hdir
  obtain ⟨w', h, hwrote⟩ :=
    write_spec hdir hsound (hsealed.trans hw.2) hrows (fun h => htruncated.trans h) hw
  obtain ⟨hzero, hwrite, rfl⟩ | ⟨hleft, hwrite, hnew, hwrites⟩ := h
  · rw [hwrite]
    exact ⟨hwrote, rfl, .inl ⟨hzero, rfl⟩⟩
  · rw [hwrite]
    exact ⟨hwrote, by rw [hnew, htruncated], .inr ⟨hleft, rfl, hwrites⟩⟩

/-- What is noted in the end appends nothing, and truncates the spool only when there were more rows
and the attempt has not stopped. -/
theorem noteMore_spec (query : SqlQuery) (hw : w.Ready) (ending : LoopEnd Row) :
  Wrote w (noteMore query ending w).1 []
    ∧ (ending.queryTruncated = false ∨ w.writesLeft = some 0 →
      (noteMore query ending w).1.dir.readManifest.truncated = w.dir.readManifest.truncated)
  := by
  obtain ⟨hmark, hstop⟩ := write_markSpoolTruncated hw
  obtain ⟨hpage, hsame⟩ := write_setSpoolPagination hw ending.queryTruncated
  rw [noteMore]
  split
  · dsimp only
    split
    · rename_i hmore
      split
      · rename_i w' hwrite
        rw [hwrite] at hmark
        refine ⟨hmark, ?_⟩
        rintro (hnone | hzero)
        · cases hnone.symm.trans hmore.1
        · obtain ⟨rfl, -⟩ := Prod.mk.inj (hwrite.symm.trans (hstop hzero))
          rfl
      · rename_i w' hwrite
        rw [hwrite] at hmark
        obtain ⟨hpage', -⟩ := write_setSpoolPagination hmark.ready ending.queryTruncated
        refine ⟨hmark.trans hpage', ?_⟩
        rintro (hnone | hzero)
        · cases hnone.symm.trans hmore.1
        · obtain ⟨-, hfalse⟩ := Prod.mk.inj (hwrite.symm.trans (hstop hzero))
          cases hfalse
    · exact ⟨hpage, fun _ => hsame⟩
  · split
    · rename_i hmore
      refine ⟨hmark, ?_⟩
      rintro (hnone | hzero)
      · cases hnone.symm.trans hmore
      · rw [hstop hzero]
    · exact ⟨.refl hw, fun _ => rfl⟩

/-- What the loop has written when no limit was reached: all that it has accepted but for the last
batch when it gets to its end, and nothing only when it has not come to append a batch. -/
structure Looped (query : SqlQuery) (rows : List Row) (acceptedRows : ℕ) (batch : List Row)
    (w : Writing Row) (result : Writing Row × Option (LoopEnd Row)) (written : List Row) : Prop where
  truncated : result.1.dir.readManifest.truncated = false
  ended : ∀ ending, result.2 = some ending →
    written ++ ending.batch = batch ++ rows.take (query.acceptedRowLimit - acceptedRows)
  stopped : written = [] → result.1.writesLeft = w.writesLeft
    ∧ (result.2 = none → w.writesLeft = some 0)
  still : w.writesLeft = some 0 → written = []

theorem readRows_spec (limits : SpoolLimits Row) (query : SqlQuery) (hw : w.Ready)
    (orphan : Option (List Row)) (rows : List Row) (acceptedRows : ℕ) (batch : List Row) :
  ∃ written, Wrote w (readRows limits query orphan rows acceptedRows batch w).1 written
    ∧ (w.dir.readManifest.truncated = false →
      (readRows limits query orphan rows acceptedRows batch w).1.limitReached = false →
      Looped query rows acceptedRows batch w
        (readRows limits query orphan rows acceptedRows batch w) written)
  := by
  induction rows generalizing acceptedRows batch w with
  | nil =>
      refine ⟨[], .refl hw, fun hopen _ => ⟨hopen, ?_, fun _ => ⟨rfl, nofun⟩, fun _ => rfl⟩⟩
      rintro _ ⟨⟩
      rw [List.take_nil, List.append_nil]
      rfl
  | cons row rest ih =>
      rw [readRows]
      split
      · rename_i hfull
        refine ⟨[], .refl hw, fun hopen _ => ⟨hopen, ?_, fun _ => ⟨rfl, nofun⟩, fun _ => rfl⟩⟩
        rintro _ ⟨⟩
        rw [Nat.sub_eq_zero_of_le hfull, List.take_zero, List.append_nil]
        rfl
      rename_i hroom
      have htake : batch ++ [row] ++ rest.take (query.acceptedRowLimit - (acceptedRows + 1))
          = batch ++ (row :: rest).take (query.acceptedRowLimit - acceptedRows) := by
        rw [show query.acceptedRowLimit - acceptedRows
          = query.acceptedRowLimit - (acceptedRows + 1) + 1 by omega, List.take_succ_cons,
          List.append_assoc, List.singleton_append]
      split
      · obtain ⟨w', hflush, hwrote, hzero, hzero', hsame⟩
          | ⟨w', written, hflush, hwrote, hleft, hall⟩ :=
          flush_spec limits hw orphan (batch ++ [row])
        · rw [hflush]
          exact ⟨[], hwrote, fun hopen _ => ⟨hsame.trans hopen, nofun,
            fun _ => ⟨hzero'.trans hzero.symm, fun _ => hzero⟩, fun _ => rfl⟩⟩
        · rw [hflush]
          dsimp only
          split
          · rename_i hcut
            refine ⟨written, hwrote, fun hopen hlimit => ?_⟩
            cases (hall hopen hlimit).2.symm.trans hcut
          · obtain ⟨written', hwrote', hlooped⟩ := ih hwrote.ready (acceptedRows + 1) []
            refine ⟨written ++ written', hwrote.trans hwrote', fun hopen hlimit => ?_⟩
            obtain ⟨rfl, hopen'⟩ := hall hopen (hwrote'.limitReached hlimit)
            obtain ⟨htruncated, hended, -, -⟩ := hlooped hopen' hlimit
            refine ⟨htruncated, ?_, ?_, fun hzero => (hleft hzero).elim⟩
            · intro ending hending
              rw [List.append_assoc, hended ending hending, ← htake, List.nil_append]
            · simp
      · obtain ⟨written, hwrote, hlooped⟩ := ih hw (acceptedRows + 1) (batch ++ [row])
        refine ⟨written, hwrote, fun hopen hlimit => ?_⟩
        obtain ⟨htruncated, hended, hstopped, hstill⟩ := hlooped hopen hlimit
        refine ⟨htruncated, ?_, hstopped, hstill⟩
        intro ending hending
        rw [hended ending hending, htake]

/-- What is left over is appended when the attempt does not stop. -/
theorem finishRows_spec (limits : SpoolLimits Row) (query : SqlQuery) (hw : w.Ready)
    (orphan : Option (List Row)) (ending : LoopEnd Row) :
  ∃ written, Wrote w (finishRows limits query orphan ending w).1 written
    ∧ (w.dir.readManifest.truncated = false →
      (finishRows limits query orphan ending w).1.limitReached = false →
      (w.writesLeft ≠ some 0 ∨ (finishRows limits query orphan ending w).2 = true →
        written = ending.batch))
    ∧ (w.writesLeft = some 0 → written = [])
    ∧ (w.writesLeft = some 0 ∨ ending.batch = [] ∧ ending.queryTruncated = false →
      (finishRows limits query orphan ending w).1.dir.readManifest.truncated
        = w.dir.readManifest.truncated)
  := by
  rw [finishRows]
  split
  · rename_i hempty
    have hnil := List.isEmpty_iff.mp hempty
    obtain ⟨hnote, hsame⟩ := noteMore_spec query hw ending
    refine ⟨[], hnote, fun _ _ _ => hnil.symm, fun _ => rfl, ?_⟩
    rintro (hzero | ⟨-, hnone⟩)
    · exact hsame (.inr hzero)
    · exact hsame (.inl hnone)
  · rename_i hsome
    obtain ⟨w', hflush, hwrote, hzero, hzero', hsame⟩
      | ⟨w', written, hflush, hwrote, hleft, hall⟩ := flush_spec limits hw orphan ending.batch
    · rw [hflush]
      refine ⟨[], hwrote, fun _ _ => ?_, fun _ => rfl, fun _ => hsame⟩
      rintro (hleft | hfalse)
      · exact (hleft hzero).elim
      · cases hfalse
    · rw [hflush]
      obtain ⟨hnote, -⟩ := noteMore_spec query hwrote.ready ending
      refine ⟨written, ?_, fun hopen hlimit _ => (hall hopen (hnote.limitReached hlimit)).1,
        fun hzero => (hleft hzero).elim, ?_⟩
      · simpa using hwrote.trans hnote
      · rintro (hzero | ⟨hnil, -⟩)
        · exact (hleft hzero).elim
        · rw [hnil] at hsome
          exact (hsome rfl).elim

/-! ### What attempts leave behind -/

/-- The attempt stops before it has appended a batch, or there are no rows. -/
def Attempt.LeavesNothing (attempt : Attempt Row) (query : SqlQuery) : Prop :=
  attempt.stopsAfter = some 0 ∨ attempt.stopsAfter = some 1 ∨ attempt.accepted query = []

/-- What an attempt at a spool that is not truncated has written. -/
structure Attempted (query : SqlQuery) (attempt : Attempt Row) (dir : SpoolDir Row)
    (result : Writing Row × Option ℕ) (written : List Row) : Prop where
  nothing : written = [] ↔ attempt.LeavesNothing query
  truncated : attempt.LeavesNothing query → result.1.dir.readManifest.truncated = false
  succeeded : result.2.isSome → written = attempt.accepted query

theorem accepted_eq_nil (hlimit : ¬(query.pageBounded ∧ query.acceptedRowLimit = 0))
    {attempt : Attempt Row} (h : attempt.accepted query = []) :
  attempt.rows = []
  := by
  obtain hrows | hzero := List.take_eq_nil_iff.mp h |>.symm
  · exact hrows
  · rw [SqlQuery.acceptedRowLimit] at hlimit hzero
    have hpos := query.maxResultRows_pos
    split at hzero
    · rename_i hbounded
      rw [if_pos hbounded] at hlimit
      exact (hlimit ⟨hbounded, hzero⟩).elim
    · omega

/-- What is read and appended. -/
theorem readQuery_spec (attempt : Attempt Row) (hw : w.Ready)
    (hsome : ¬(query.pageBounded ∧ query.acceptedRowLimit = 0))
    (hlimit : (readQuery limits query attempt w).1.limitReached = false) :
  ∃ written, Wrote w (readQuery limits query attempt w).1 written
    ∧ (w.dir.readManifest.truncated = false →
      (written = [] ↔ w.writesLeft = some 0 ∨ attempt.accepted query = [])
      ∧ (w.writesLeft = some 0 ∨ attempt.accepted query = [] →
        (readQuery limits query attempt w).1.dir.readManifest.truncated = false)
      ∧ ((readQuery limits query attempt w).2.isSome → written = attempt.accepted query))
  := by
  rw [readQuery] at hlimit ⊢
  obtain ⟨written, hwrote, hlooped⟩ :=
    readRows_spec limits query hw attempt.orphan attempt.rows 0 []
  have hempty : attempt.accepted query = [] →
      readRows limits query attempt.orphan attempt.rows 0 [] w = (w, some ⟨[], 0, false⟩) := by
    intro hnil
    rw [accepted_eq_nil hsome hnil]
    rfl
  generalize readRows limits query attempt.orphan attempt.rows 0 [] w = r
    at hlimit hwrote hlooped hempty ⊢
  obtain ⟨w₁, ending⟩ := r
  cases ending with
  | none =>
      refine ⟨written, hwrote, fun hopen => ?_⟩
      obtain ⟨htruncated, -, hstopped, hstill⟩ := hlooped hopen hlimit
      refine ⟨⟨?_, ?_⟩, fun _ => htruncated, nofun⟩
      · intro hnil
        exact .inl ((hstopped hnil).2 rfl)
      · rintro (hzero | hnil)
        · exact hstill hzero
        · cases hempty hnil
  | some ending =>
      obtain ⟨written', hwrote', hall, hstop, hsame⟩ :=
        finishRows_spec limits query hwrote.ready attempt.orphan ending
      dsimp only at hlimit hwrote hwrote' hlooped ⊢
      generalize finishRows limits query attempt.orphan ending w₁ = r
        at hlimit hwrote' hall hsame ⊢
      obtain ⟨w₂, ended⟩ := r
      have hresult : (match (w₂, ended) with
          | (w, false) => (w, none)
          | (w, true) => (w, some w.dir.readManifest.loadedRows)
          : Writing Row × Option ℕ).1 = w₂ := by
        cases ended <;> rfl
      rw [hresult] at hlimit ⊢
      refine ⟨written ++ written', hwrote.trans hwrote', fun hopen => ?_⟩
      obtain ⟨htruncated, hended, hstopped, hstill⟩ := hlooped hopen (hwrote'.limitReached hlimit)
      have haccepted : written ++ ending.batch = attempt.accepted query := hended ending rfl
      have hnone (hnil : attempt.accepted query = []) :
          ending.batch = [] ∧ ending.queryTruncated = false := by
        obtain ⟨-, hending⟩ := Prod.mk.inj (hempty hnil)
        rw [Option.some.inj hending]
        exact ⟨rfl, rfl⟩
      refine ⟨⟨?_, ?_⟩, ?_, ?_⟩
      · intro hnil
        obtain ⟨rfl, rfl⟩ := List.append_eq_nil_iff.mp hnil
        by_cases hzero : w.writesLeft = some 0
        · exact .inl hzero
        · right
          have hleft : w₁.writesLeft ≠ some 0 := (hstopped rfl).1 ▸ hzero
          rw [← haccepted, ← hall htruncated hlimit (.inl hleft)]
          rfl
      · rintro (hzero | hnil)
        · have hnothing := hstill hzero
          rw [hnothing, hstop ((hstopped hnothing).1.trans hzero)]
          rfl
        · rw [(hnone hnil).1, hnil, List.append_nil] at haccepted
          rw [haccepted, List.nil_append]
          by_cases hzero : w₁.writesLeft = some 0
          · exact hstop hzero
          · exact (hall htruncated hlimit (.inl hzero)).trans (hnone hnil).1
      · rintro (hzero | hnil)
        · exact (hsame (.inl ((hstopped (hstill hzero)).1.trans hzero))).trans htruncated
        · exact (hsame (.inr (hnone hnil))).trans htruncated
      · intro hended
        cases ended with
        | false => cases hended
        | true => rw [hall htruncated hlimit (.inr rfl), haccepted]

theorem executeSqlQuery_spec (attempt : Attempt Row) {dir : SpoolDir Row} (hdir : dir.Sound)
    (hsealed : dir.readManifest.isSealed = false)
    (hlimit : (executeSqlQuery limits query attempt dir).1.limitReached = false) :
  ∃ written, Wrote { dir := dir, writesLeft := attempt.stopsAfter }
      (executeSqlQuery limits query attempt dir).1 written
    ∧ (dir.readManifest.truncated = false →
      Attempted query attempt dir (executeSqlQuery limits query attempt dir) written)
  := by
  have hw : Writing.Ready { dir := dir, writesLeft := attempt.stopsAfter } := ⟨hdir, hsealed⟩
  rw [executeSqlQuery] at hlimit ⊢
  split at hlimit
  · rename_i hnone
    rw [if_pos hnone]
    have hnothing : attempt.accepted query = [] := by
      rw [Attempt.accepted, hnone.2, List.take_zero]
    exact ⟨[], .refl hw, fun hopen =>
      ⟨iff_of_true rfl (.inr (.inr hnothing)), fun _ => hopen, nofun⟩⟩
  rename_i hsome
  rw [if_neg hsome]
  obtain ⟨hcolumns, hsame, hcontinues⟩ := write_setSpoolColumns hw attempt.columns
  generalize Writing.write _ (setSpoolColumns attempt.columns) = r
    at hlimit hcolumns hsame hcontinues ⊢
  obtain ⟨w₁, goes⟩ := r
  obtain ⟨hzero, rfl⟩ | ⟨hleft, rfl, hwrites⟩ := hcontinues
  · exact ⟨[], hcolumns, fun hopen =>
      ⟨iff_of_true rfl (.inl hzero), fun _ => hsame.trans hopen, nofun⟩⟩
  dsimp only at hlimit hcolumns hsame hwrites ⊢
  obtain ⟨written, hwrote, hattempted⟩ := readQuery_spec attempt hcolumns.ready hsome hlimit
  refine ⟨written, by simpa using hcolumns.trans hwrote, fun hopen => ?_⟩
  obtain ⟨hnothing, htruncated, hsucceeded⟩ := hattempted (hsame.trans hopen)
  have hleaves : attempt.LeavesNothing query
      ↔ w₁.writesLeft = some 0 ∨ attempt.accepted query = [] := by
    rw [Attempt.LeavesNothing, hwrites]
    cases hstops : attempt.stopsAfter with
    | none => simp
    | some n =>
        rw [hstops] at hleft
        cases n with
        | zero => exact (hleft rfl).elim
        | succ n => simp
  exact ⟨hnothing.trans hleaves.symm, fun h => htruncated (hleaves.mp h), hsucceeded⟩

/-- An attempt that gets to its end says how many rows there are in the spool. -/
theorem executeSqlQuery_loadedRows {attempt : Attempt Row} {dir : SpoolDir Row} {loadedRows : ℕ}
    (h : (executeSqlQuery limits query attempt dir).2 = some loadedRows) :
  loadedRows = (executeSqlQuery limits query attempt dir).1.dir.readManifest.loadedRows
  := by
  rw [executeSqlQuery] at h ⊢
  split at h
  · cases h
  rename_i hsome
  rw [if_neg hsome]
  generalize Writing.write _ (setSpoolColumns attempt.columns) = r at h ⊢
  obtain ⟨w, _ | _⟩ := r
  · cases h
  dsimp only at h ⊢
  rw [readQuery] at h ⊢
  generalize readRows limits query attempt.orphan attempt.rows 0 [] w = r at h ⊢
  obtain ⟨w, _ | ending⟩ := r
  · cases h
  dsimp only at h ⊢
  generalize finishRows limits query attempt.orphan ending w = r at h ⊢
  obtain ⟨w, _ | _⟩ := r
  · cases h
  · exact (Option.some.inj h).symm

/-- A spool that is sealed takes no attempts. -/
theorem executeSqlQuery_sealed (limits : SpoolLimits Row) (query : SqlQuery)
    (attempt : Attempt Row) {dir : SpoolDir Row} (hsealed : dir.readManifest.isSealed = true) :
  (executeSqlQuery limits query attempt dir).1.dir = dir
    ∧ (executeSqlQuery limits query attempt dir).2 = none
  := by
  have hwrite : Writing.write { dir := dir, writesLeft := attempt.stopsAfter }
      (setSpoolColumns attempt.columns)
      = ({ dir := dir, writesLeft := attempt.stopsAfter }, false) := by
    rw [Writing.write, setSpoolColumns, hsealed]
    split
    · rfl
    · rfl
  rw [executeSqlQuery, hwrite]
  split
  · exact ⟨rfl, rfl⟩
  · exact ⟨rfl, rfl⟩

theorem attempts_sealed (earlier : List (Attempt Row)) {dir : SpoolDir Row}
    (hsealed : dir.readManifest.isSealed = true) :
  (attempts limits query earlier dir).1 = dir
  := by
  induction earlier with
  | nil => rfl
  | cons attempt rest ih =>
      rw [attempts, (executeSqlQuery_sealed limits query attempt hsealed).1]
      exact ih

/-- What a sequence of attempts has left behind. -/
theorem attempts_spec (earlier : List (Attempt Row)) {dir : SpoolDir Row} (hdir : dir.Sound)
    (hsealed : dir.readManifest.isSealed = false)
    (hlimit : (attempts limits query earlier dir).2 = false) :
  ∃ left, (attempts limits query earlier dir).1.Sound
    ∧ (attempts limits query earlier dir).1.readManifest.isSealed = false
    ∧ (attempts limits query earlier dir).1.rows = dir.rows ++ left
    ∧ (dir.readManifest.truncated = false →
      (left = [] ↔ ∀ attempt ∈ earlier, attempt.LeavesNothing query)
      ∧ ((∀ attempt ∈ earlier, attempt.LeavesNothing query) →
        (attempts limits query earlier dir).1.readManifest.truncated = false))
  := by
  induction earlier generalizing dir with
  | nil =>
      exact ⟨[], hdir, hsealed, (List.append_nil _).symm, fun hopen =>
        ⟨iff_of_true rfl (by simp), fun _ => hopen⟩⟩
  | cons attempt rest ih =>
      rw [attempts] at hlimit ⊢
      obtain ⟨hfirst, hrest⟩ := Bool.or_eq_false_iff.mp hlimit
      obtain ⟨written, hwrote, hattempted⟩ := executeSqlQuery_spec attempt hdir hsealed hfirst
      obtain ⟨left, hsound, hunsealed, hrows, hleft⟩ := ih hwrote.ready.1 hwrote.ready.2 hrest
      refine ⟨written ++ left, hsound, hunsealed, ?_, fun hopen => ?_⟩
      · rw [hrows, hwrote.rows, List.append_assoc]
      obtain ⟨hnothing, htruncated, -⟩ := hattempted hopen
      rw [List.append_eq_nil_iff, List.forall_mem_cons, hnothing]
      constructor
      · apply and_congr_right
        intro hleaves
        exact (hleft (htruncated hleaves)).1
      · rintro ⟨hleaves, hall⟩
        exact (hleft (htruncated hleaves)).2 hall

/-- After any number of attempts that were cut short, and with no limit of the spool reached, an
attempt that succeeds leaves exactly the rows that were there before the first attempt and then its
own, and counts these, if and only if each attempt before it stopped before it had appended a batch,
or had no rows; or one of them has truncated the spool, and what they have left are just the rows
that the successful attempt accepts. -/
theorem retries_leave_no_rows (limits : SpoolLimits Row) (query : SqlQuery) {dir : SpoolDir Row}
    (hdir : dir.Sound) (hopen : dir.readManifest.truncated = false)
    (earlier : List (Attempt Row)) (last : Attempt Row) {loadedRows : ℕ}
    (hbefore : (attempts limits query earlier dir).2 = false)
    (hlast : (executeSqlQuery limits query last
      (attempts limits query earlier dir).1).1.limitReached = false)
    (h : (executeSqlQuery limits query last (attempts limits query earlier dir).1).2
      = some loadedRows) :
  (executeSqlQuery limits query last (attempts limits query earlier dir).1).1.dir.rows
      = dir.rows ++ last.accepted query
    ∧ loadedRows = (dir.rows ++ last.accepted query).length
  ↔ (∀ attempt ∈ earlier, attempt.LeavesNothing query)
    ∨ (attempts limits query earlier dir).1.readManifest.truncated = true
      ∧ (attempts limits query earlier dir).1.rows = dir.rows ++ last.accepted query
  := by
  have hsealed : dir.readManifest.isSealed = false := by
    by_contra hsealed
    rw [attempts_sealed earlier ((Bool.not_eq_false _).mp hsealed)] at h
    cases (executeSqlQuery_sealed limits query last ((Bool.not_eq_false _).mp hsealed)).2.symm.trans h
  obtain ⟨left, hsound, hunsealed, hrows, hleft⟩ := attempts_spec earlier hdir hsealed hbefore
  obtain ⟨hnothing, htruncated⟩ := hleft hopen
  generalize (attempts limits query earlier dir).1 = before
    at hlast h hsound hunsealed hrows htruncated ⊢
  obtain ⟨written, hwrote, hattempted⟩ := executeSqlQuery_spec last hsound hunsealed hlast
  have hloaded := executeSqlQuery_loadedRows h
  rw [hwrote.ready.1.counted] at hloaded
  rw [and_iff_left_of_imp (fun hfinal => by rw [hloaded, hfinal]), hwrote.rows]
  cases hcut : before.readManifest.truncated with
  | true =>
      rw [(hwrote.truncated hcut).2, List.append_nil]
      constructor
      · exact fun hfinal => .inr ⟨rfl, hfinal⟩
      · rintro (hall | ⟨-, hfinal⟩)
        · cases (htruncated hall).symm.trans hcut
        · exact hfinal
  | false =>
      have hsucceeded : written = last.accepted query :=
        (hattempted hcut).succeeded (by rw [h]; rfl)
      rw [hsucceeded, show before.rows = dir.rows ++ left from hrows, List.append_assoc,
        List.append_cancel_left_eq, List.append_left_eq_self, hnothing]
      constructor
      · exact fun hall => .inl hall
      · rintro (hall | ⟨hfalse, -⟩)
        · exact hall
        · cases hfalse

end Specs

/-! ### A query that is tried again -/

/-- Batches of one row. -/
def rowByRow : SqlQuery where
  sqlSpoolBatchSize := 1
  pageSize := 10
  maxResultRows := 10
  pageBounded := false

/-- Room for all rows; rows are numbers. -/
def ample : SpoolLimits ℕ := ⟨1000, 1000, List.length⟩

/-- A query with two rows that stops after some writes. -/
def twoRows (stopsAfter : Option ℕ) : Attempt ℕ := ⟨[], [1, 2], stopsAfter, none⟩

/-- An attempt that stops before its first batch leaves nothing behind. -/
theorem retries_leave_no_rows_columnsOnly :
  (executeSqlQuery ample rowByRow (twoRows none)
      (attempts ample rowByRow [twoRows (some 1)] {}).1).1.dir.rows = [1, 2]
  := by
  have h : (executeSqlQuery ample rowByRow (twoRows none)
      (attempts ample rowByRow [twoRows (some 1)] {}).1).2 = some 2 := by
    rfl
  have hbefore : (attempts ample rowByRow [twoRows (some 1)] {}).2 = false := by
    rfl
  have hlast : (executeSqlQuery ample rowByRow (twoRows none)
      (attempts ample rowByRow [twoRows (some 1)] {}).1).1.limitReached = false := by
    rfl
  refine ((retries_leave_no_rows ample rowByRow SpoolDir.sound_empty rfl [twoRows (some 1)]
    (twoRows none) hbefore hlast h).mpr (.inl ?_)).1
  intro attempt hattempt
  obtain rfl := List.mem_singleton.mp hattempt
  exact .inr (.inl rfl)

/-- An attempt that stops after its first batch leaves a row behind, which stays in front of those
of the attempt that succeeds. -/
theorem not_leave_no_rows_firstBatch :
  (executeSqlQuery ample rowByRow (twoRows none)
      (attempts ample rowByRow [twoRows (some 2)] {}).1).2 = some 3
    ∧ (executeSqlQuery ample rowByRow (twoRows none)
      (attempts ample rowByRow [twoRows (some 2)] {}).1).1.dir.rows = [1, 1, 2]
    ∧ (twoRows none).accepted rowByRow = [1, 2]
    ∧ (executeSqlQuery ample rowByRow (twoRows none)
      (attempts ample rowByRow [twoRows (some 2)] {}).1).1.limitReached = false
  := by
  decide

end Results

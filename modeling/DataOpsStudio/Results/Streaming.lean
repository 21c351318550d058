import DataOpsStudio.Library.Program
import DataOpsStudio.Results.Console
import Mathlib.Data.List.Nodup

/-!
# Rows of a stream

The lane reads the rows of a statement from a stream, and appends them to the spool in batches.  A
batch that is not yet flushed when the loop ends is flushed in its `finally` clause.  So is a batch
whose flush has raised in the loop, also when it was the catalog that raised and the rows had been
appended before: then they are appended twice.
-/

namespace Results

open Program

/-! ### The loop -/

/-- The rows that a stream yields, and whether it raises then. -/
structure RowStream (Row : Type) where
  rows : List Row
  raises : Bool

/-- Which calls raise: the calls of `append` and of `publish_streaming` in their order, and that
of `mark_truncated`. -/
structure DrainFailures where
  append : ℕ → Bool
  publish : ℕ → Bool
  mark : Bool

inductive DrainError where
  | stream
  | append
  | publish
  | mark
deriving DecidableEq

/-- The batch that has not been flushed and what has been counted; what calls of `append` have
appended, whether the spool is marked, and how many calls have been made. -/
structure Streaming (Row : Type) where
  batch : List Row := []
  rowsRead : ℕ := 0
  rowsReturned : ℕ := 0
  outputLimitApplied : Bool := false
  appended : List Row := []
  truncated : Bool := false
  appends : ℕ := 0
  publishes : ℕ := 0

section Drain

variable {Row : Type}

/-- Computations that read a stream. -/
abbrev DrainM (Row : Type) := EStateM DrainError (Streaming Row)

/-- `results.append`. -/
def appendRows (failures : DrainFailures) (batch : List Row) : DrainM Row PUnit := do
  let s ← get
  modify (fun s => { s with appends := s.appends + 1 })
  if failures.append s.appends then throw .append
  else modify (fun s => { s with appended := s.appended ++ batch })

/-- `results.publish_streaming`. -/
def publishRows (failures : DrainFailures) : DrainM Row PUnit := do
  let s ← get
  modify (fun s => { s with publishes := s.publishes + 1 })
  when (failures.publish s.publishes) (throw .publish)

/-- `_flush_batch`. -/
def flushBatch (failures : DrainFailures) (spool : Option StatementSpool) (batch : List Row) :
    DrainM Row PUnit :=
  match spool with
  | none => pure ⟨⟩
  | some _ => do
      appendRows failures batch
      publishRows failures

/-- How many rows are flushed at once. -/
def flushSize (spoolBatchSize : ℕ) : Option StatementSpool → ℕ
  | none => spoolBatchSize
  | some spool => max 1 (min spoolBatchSize spool.pageSize)

/-- As many rows were taken as the result may have. -/
def LimitReached (spool : Option StatementSpool) (s : Streaming Row) : Prop :=
  ∃ limit ∈ spool.map StatementSpool.maxResultRows, limit ≤ s.rowsReturned

instance (spool : Option StatementSpool) (s : Streaming Row) : Decidable (LimitReached spool s) :=
  inferInstanceAs (Decidable (∃ limit ∈ spool.map StatementSpool.maxResultRows,
    limit ≤ s.rowsReturned))

/-- The loop over the rows of the stream. -/
def readStreamRows (failures : DrainFailures) (spool : Option StatementSpool) (batchSize : ℕ)
    (raises : Bool) : List Row → DrainM Row PUnit
  | [] => when (raises = true) (throw .stream)
  | row :: rows => do
      modify (fun s => { s with rowsRead := s.rowsRead + 1 })
      let s ← get
      if LimitReached spool s then
        -- the row that was read too many only shows that there are more
        modify (fun s => { s with outputLimitApplied := true })
      else do
        modify (fun s => { s with
          rowsReturned := s.rowsReturned + 1
          batch := s.batch ++ [row] })
        let s ← get
        when (batchSize ≤ s.batch.length) (do
          flushBatch failures spool s.batch
          modify (fun s => { s with batch := [] }))
        readStreamRows failures spool batchSize raises rows

/-- `results.mark_truncated`. -/
def markStream (failures : DrainFailures) : DrainM Row PUnit :=
  if failures.mark then throw .mark else modify (fun s => { s with truncated := true })

/-- The `finally` clause. -/
def finishReading (failures : DrainFailures) (spool : Option StatementSpool) :
    DrainM Row PUnit := do
  let s ← get
  when (s.batch ≠ []) (flushBatch failures spool s.batch)
  let s ← get
  when (spool.isSome ∧ s.outputLimitApplied) (markStream failures)

/-- `_drain_to_spool`. -/
def drainToSpool (failures : DrainFailures) (spoolBatchSize : ℕ) (spool : Option StatementSpool)
    (stream : RowStream Row) : DrainM Row PUnit :=
  andFinally
    (readStreamRows failures spool (flushSize spoolBatchSize spool) stream.raises stream.rows)
    (finishReading failures spool)

/-- How the reading of a stream ends, and what it leaves. -/
def drain (failures : DrainFailures) (spoolBatchSize : ℕ) (spool : Option StatementSpool)
    (stream : RowStream Row) : EStateM.Result DrainError (Streaming Row) PUnit :=
  (drainToSpool failures spoolBatchSize spool stream).run {}

end Drain

/-! ### What should be kept -/

section Keeps

variable {Row : Type}

/-- No call raises. -/
structure DrainFailures.Quiet (failures : DrainFailures) (stream : RowStream Row) : Prop where
  stream : stream.raises = false
  append : ∀ i, failures.append i = false
  publish : ∀ i, failures.publish i = false
  mark : failures.mark = false

/-- What was appended is a beginning of the rows and within the limit; if nothing is raised it is as
much as the limit allows, and the spool is marked when there are more rows; and nothing is raised
when no call raises. -/
structure KeepsRows (failures : DrainFailures) (spool : StatementSpool) (stream : RowStream Row)
    (r : EStateM.Result DrainError (Streaming Row) PUnit) : Prop where
  beginning : (stateOf r).appended <+: stream.rows
  limited : (stateOf r).appended.length ≤ spool.maxResultRows
  complete : raised r = none → (stateOf r).appended = stream.rows.take spool.maxResultRows
    ∧ ((stateOf r).truncated = true ↔ spool.maxResultRows < stream.rows.length)
  returns : failures.Quiet stream → raised r = none

/-- The rows of the stream, each with its position. -/
def RowStream.positions (stream : RowStream Row) : RowStream (Row × ℕ) where
  rows := stream.rows.zipIdx
  raises := stream.raises

/-- The flush of one of the first `flushes` batches raises after the batch was appended, the first
that raises at all, and the batch is appended again. -/
def DrainFailures.Repeats (failures : DrainFailures) (flushes : ℕ) : Prop :=
  ∃ j < flushes, (∀ i < j, failures.append i = false ∧ failures.publish i = false)
    ∧ failures.append j = false ∧ failures.publish j = true ∧ failures.append (j + 1) = false

end Keeps

/-! ### Flushes -/

section Proofs

variable {Row : Type} {failures : DrainFailures} {spool : StatementSpool} {s : Streaming Row}
  {Q : PUnit → Streaming Row → Prop} {E : DrainError → Streaming Row → Prop}

/-- The state after both calls of a flush. -/
def Streaming.flushed (s : Streaming Row) (batch : List Row) : Streaming Row :=
  { s with
    appends := s.appends + 1
    appended := s.appended ++ batch
    publishes := s.publishes + 1 }

/-- A flush appends the batch unless the first of its calls raises. -/
theorem ensures_flushBatch (batch : List Row) :
  Ensures (flushBatch failures (some spool) batch) s Q E
    ↔ (failures.append s.appends = true → E .append { s with appends := s.appends + 1 })
      ∧ (failures.append s.appends = false →
        (failures.publish s.publishes = true → E .publish (s.flushed batch))
          ∧ (failures.publish s.publishes = false → Q ⟨⟩ (s.flushed batch)))
  := by
  simp only [flushBatch, appendRows, publishRows, ensures_bind, ensures_get, ensures_ite,
    ensures_throw, ensures_modify, ensures_when, Bool.not_eq_true, Streaming.flushed]

/-! ### The loop -/

/-- What has been seen of the stream is appended or in the batch, which is not full, and no call has
raised. -/
structure Reading (failures : DrainFailures) (batchSize : ℕ) (seen : List Row)
    (s : Streaming Row) : Prop where
  taken : s.appended ++ s.batch = seen
  short : s.batch.length < batchSize
  counted : s.appended.length = s.appends * batchSize
  published : s.publishes = s.appends
  quiet : ∀ i < s.appends, failures.append i = false ∧ failures.publish i = false
  unmarked : s.truncated = false

/-- A flush in the loop has raised: its batch is full, and the calls before it have not raised. -/
structure FlushRaised (failures : DrainFailures) (batchSize : ℕ) (rows : List Row)
    (s : Streaming Row) (flushes : ℕ) : Prop where
  full : s.batch ≠ []
  size : (flushes + 1) * batchSize ≤ rows.length
  appends : s.appends = flushes + 1
  quiet : ∀ i < flushes, failures.append i = false ∧ failures.publish i = false
  unlimited : s.outputLimitApplied = false

/-- How the loop can raise, with the rows that it may take: the stream raises, or the first or the
second call of a flush. -/
inductive LoopRaised (failures : DrainFailures) (batchSize : ℕ) (rows : List Row)
    (s : Streaming Row) : DrainError → Prop
  | stream (h : Reading failures batchSize rows s) (hlimit : s.outputLimitApplied = false) :
      LoopRaised failures batchSize rows s .stream
  | append {flushes : ℕ} (h : FlushRaised failures batchSize rows s flushes)
      (htaken : s.appended ++ s.batch <+: rows) (hraises : failures.append flushes = true)
      (hpublishes : s.publishes = flushes) :
      LoopRaised failures batchSize rows s .append
  | publish {flushes : ℕ} (h : FlushRaised failures batchSize rows s flushes)
      (htaken : s.appended <+: rows) (hbatch : s.batch <:+ s.appended)
      (happend : failures.append flushes = false) (hraises : failures.publish flushes = true) :
      LoopRaised failures batchSize rows s .publish

variable {batchSize : ℕ} {seen : List Row}

/-- A row is taken into a batch that is still not full. -/
theorem Reading.take (h : Reading failures batchSize seen s) {row : Row} {rowsRead : ℕ}
    (hshort : s.batch.length + 1 < batchSize) :
  Reading failures batchSize (seen ++ [row])
    { s with rowsRead, rowsReturned := s.rowsReturned + 1, batch := s.batch ++ [row] }
  where
  taken := by
    rw [← h.taken, List.append_assoc]
  short := by
    rw [List.length_append, List.length_singleton]
    apply hshort
  counted := h.counted
  published := h.published
  quiet := h.quiet
  unmarked := h.unmarked

/-- A row fills the batch, and the batch is flushed. -/
theorem Reading.flush (h : Reading failures batchSize seen s) {row : Row}
    {rowsRead rowsReturned : ℕ} (hfull : batchSize ≤ s.batch.length + 1)
    (happend : failures.append s.appends = false)
    (hpublish : failures.publish s.publishes = false) :
  Reading failures batchSize (seen ++ [row])
    { s with
      rowsRead, rowsReturned
      batch := []
      appends := s.appends + 1
      appended := s.appended ++ (s.batch ++ [row])
      publishes := s.publishes + 1 }
  where
  taken := by
    rw [List.append_nil, ← List.append_assoc, h.taken]
  short := Nat.zero_lt_of_lt h.short
  counted := by
    have hshort := h.short
    rw [List.length_append, List.length_append, List.length_singleton, h.counted, Nat.add_mul,
      Nat.one_mul]
    omega
  published := congrArg Nat.succ h.published
  quiet i hi := by
    rcases Nat.lt_succ_iff_lt_or_eq.mp hi with hlt | rfl
    · apply h.quiet i hlt
    · rw [h.published] at hpublish
      exact ⟨happend, hpublish⟩
  unmarked := h.unmarked

/-- How a loop ends that has seen a part of the rows: it has read as many as the limit allows, and
knows whether there are more, or it has raised. -/
theorem readStreamRows_spec {raises : Bool} {rest : List Row}
    (h : Reading failures batchSize seen s) (hreturned : s.rowsReturned = seen.length)
    (hseen : seen.length ≤ spool.maxResultRows) (hlimit : s.outputLimitApplied = false) :
  Ensures (readStreamRows failures (some spool) batchSize raises rest) s
    (fun _ t => Reading failures batchSize ((seen ++ rest).take spool.maxResultRows) t
      ∧ (t.outputLimitApplied = true ↔ spool.maxResultRows < (seen ++ rest).length))
    (fun e t => (e = .stream → raises = true)
      ∧ LoopRaised failures batchSize ((seen ++ rest).take spool.maxResultRows) t e)
  := by
  induction rest generalizing s seen with
  | nil =>
      rw [List.append_nil, List.take_of_length_le hseen, readStreamRows, ensures_when]
      constructor
      · intro hraises
        exact ⟨fun _ => hraises, .stream h hlimit⟩
      · intro _
        refine ⟨h, ?_⟩
        rw [hlimit]
        exact ⟨by simp, fun hlt => absurd hlt (Nat.not_lt.mpr hseen)⟩
  | cons row rest ih =>
      have hsplit : seen ++ row :: rest = (seen ++ [row]) ++ rest := by
        rw [List.append_assoc, List.singleton_append]
      simp only [readStreamRows, ensures_bind, ensures_modify, ensures_get, ensures_ite,
        ensures_when, ensures_flushBatch]
      constructor
      · rintro ⟨limit, hmem, hle⟩
        obtain rfl := Option.some.inj hmem
        dsimp only at hle
        have hlength : seen.length = spool.maxResultRows := by omega
        constructor
        · rw [← hlength, List.take_left]
          exact ⟨h.taken, h.short, h.counted, h.published, h.quiet, h.unmarked⟩
        · rw [List.length_append, List.length_cons]
          exact ⟨fun _ => by omega, fun _ => trivial⟩
      · intro hroom
        have hlt : seen.length < spool.maxResultRows := by
          by_contra hle
          apply hroom
          refine ⟨spool.maxResultRows, rfl, ?_⟩
          dsimp only
          omega
        have hseen' : (seen ++ [row]).length ≤ spool.maxResultRows := by
          rw [List.length_append, List.length_singleton]
          omega
        have hreturned' : s.rowsReturned + 1 = (seen ++ [row]).length := by
          rw [List.length_append, List.length_singleton, hreturned]
        have hprefix : seen ++ [row] <+: (seen ++ row :: rest).take spool.maxResultRows := by
          rw [hsplit, List.prefix_take_iff]
          exact ⟨List.prefix_append _ _, hseen'⟩
        have htaken : s.appended ++ (s.batch ++ [row]) = seen ++ [row] := by
          rw [← List.append_assoc, h.taken]
        constructor
        · intro hfull
          rw [List.length_append, List.length_singleton] at hfull
          have hcount : (s.appends + 1) * batchSize
              ≤ ((seen ++ row :: rest).take spool.maxResultRows).length := by
            have hlength := congrArg List.length htaken
            simp only [List.length_append, List.length_singleton] at hlength
            have hle := hprefix.length_le
            have hshort := h.short
            have hcounted := h.counted
            rw [List.length_append, List.length_singleton] at hle
            rw [Nat.add_mul, Nat.one_mul]
            omega
          have hraised : ∀ t : Streaming Row, t.batch = s.batch ++ [row] →
              t.appends = s.appends + 1 → t.outputLimitApplied = false →
              FlushRaised failures batchSize ((seen ++ row :: rest).take spool.maxResultRows) t
                s.appends := by
            intro t hbatch happends hunlimited
            refine ⟨?_, hcount, happends, h.quiet, hunlimited⟩
            rw [hbatch]
            exact List.append_ne_nil_of_right_ne_nil _ (List.cons_ne_nil _ _)
          constructor
          · intro hraises
            refine ⟨by simp, .append (hraised _ rfl rfl hlimit) ?_ hraises h.published⟩
            dsimp only
            rw [htaken]
            apply hprefix
          · intro happend
            constructor
            · intro hraises
              rw [h.published] at hraises
              refine ⟨by simp, .publish (hraised _ rfl rfl hlimit) ?_ ?_ happend hraises⟩
              · show s.appended ++ (s.batch ++ [row]) <+: _
                rw [htaken]
                apply hprefix
              · apply List.suffix_append
            · intro hpublish
              rw [hsplit]
              apply ih (h.flush hfull happend hpublish) hreturned' hseen' hlimit
        · intro hshort
          rw [List.length_append, List.length_singleton, Nat.not_le] at hshort
          rw [hsplit]
          apply ih (h.take hshort) hreturned' hseen' hlimit

/-! ### The end of the loop -/

/-- What the `finally` clause does: it flushes the batch if there is one, and marks the spool when
the limit was reached. -/
theorem ensures_finishReading :
  Ensures (finishReading failures (some spool)) s Q E
    ↔ (s.batch ≠ [] → Ensures (flushBatch failures (some spool) s.batch) s
        (fun _ t => Ensures (when (t.outputLimitApplied = true) (markStream failures)) t Q E) E)
      ∧ (s.batch = [] → Ensures (when (s.outputLimitApplied = true) (markStream failures)) s Q E)
  := by
  simp only [finishReading, ensures_bind, ensures_get, ensures_when, Option.isSome_some, true_and,
    ne_eq, not_not]

theorem ensures_markStream {p : Prop} [Decidable p] :
  Ensures (when p (markStream failures)) s Q E
    ↔ (p → (failures.mark = true → E .mark s)
        ∧ (failures.mark = false → Q ⟨⟩ { s with truncated := true }))
      ∧ (¬ p → Q ⟨⟩ s)
  := by
  simp only [markStream, ensures_when, ensures_ite, ensures_throw, ensures_modify,
    Bool.not_eq_true]

variable {rows : List Row}

/-- No flush is repeated when the loop does not raise. -/
theorem Reading.not_repeats (h : Reading failures batchSize rows s) :
  ¬ failures.Repeats (rows.length / batchSize)
  := by
  have hlength := congrArg List.length h.taken
  rw [List.length_append, h.counted] at hlength
  have hflushes : rows.length / batchSize = s.appends := by
    rw [← hlength]
    have := h.short
    rw [Nat.add_comm, Nat.add_mul_div_right _ _ (by omega), Nat.div_eq_of_lt h.short, Nat.zero_add]
  rintro ⟨j, hj, -, -, hpublish, -⟩
  rw [hflushes] at hj
  cases hpublish.symm.trans (h.quiet j hj).2

/-- After a loop that has not raised in a flush, the rest of the rows is appended, or a call raises
that leaves a beginning of them. -/
theorem Reading.finish (h : Reading failures batchSize rows s) :
  Ensures (finishReading failures (some spool)) s
    (fun _ t => t.appended = rows ∧ (t.truncated = true ↔ s.outputLimitApplied = true))
    (fun _ t => t.appended <+: rows ∧ ∀ stream : RowStream Row, ¬ failures.Quiet stream)
  := by
  have hquiet : ∀ {b : Bool}, b = true → (∀ stream, failures.Quiet stream → b = false) →
      ∀ stream : RowStream Row, ¬ failures.Quiet stream :=
    fun hb hfalse stream hstream => Bool.noConfusion (hb.symm.trans (hfalse stream hstream))
  have hall : s.appended ++ s.batch <+: rows := h.taken ▸ List.prefix_refl _
  rw [ensures_finishReading, ensures_flushBatch]
  constructor
  · intro _
    constructor
    · intro hraises
      refine ⟨?_, hquiet hraises (fun _ hstream => hstream.append _)⟩
      rw [← h.taken]
      apply List.prefix_append
    · intro _
      constructor
      · intro hraises
        refine ⟨?_, hquiet hraises (fun _ hstream => hstream.publish _)⟩
        apply hall
      · intro _
        rw [ensures_markStream]
        constructor
        · intro hlimit
          constructor
          · intro hraises
            refine ⟨?_, hquiet hraises (fun _ hstream => hstream.mark)⟩
            apply hall
          · exact fun _ => ⟨h.taken, fun _ => hlimit, fun _ => rfl⟩
        · intro hlimit
          refine ⟨h.taken, fun htrue => ?_, fun hlimit' => (hlimit hlimit').elim⟩
          cases h.unmarked.symm.trans htrue
  · intro hempty
    have htaken : s.appended = rows := by
      rw [← h.taken, hempty, List.append_nil]
    rw [ensures_markStream]
    constructor
    · intro hlimit
      constructor
      · intro hraises
        refine ⟨?_, hquiet hraises (fun _ hstream => hstream.mark)⟩
        exact htaken ▸ List.prefix_refl _
      · exact fun _ => ⟨htaken, fun _ => hlimit, fun _ => rfl⟩
    · intro hlimit
      refine ⟨htaken, fun htrue => ?_, fun hlimit' => (hlimit hlimit').elim⟩
      cases h.unmarked.symm.trans htrue

/-- After a flush has raised in the loop the batch is flushed again. -/
theorem FlushRaised.finish {flushes : ℕ} (h : FlushRaised failures batchSize rows s flushes) :
  Ensures (finishReading failures (some spool)) s Q E
    ↔ (failures.append (flushes + 1) = true → E .append { s with appends := s.appends + 1 })
      ∧ (failures.append (flushes + 1) = false →
        (failures.publish s.publishes = true → E .publish (s.flushed s.batch))
          ∧ (failures.publish s.publishes = false → Q ⟨⟩ (s.flushed s.batch)))
  := by
  have hlimit : ¬ (s.flushed s.batch).outputLimitApplied = true := by
    rw [Streaming.flushed, h.unlimited]
    exact Bool.false_ne_true
  have hmark : Ensures (when ((s.flushed s.batch).outputLimitApplied = true)
      (markStream failures)) (s.flushed s.batch) Q E ↔ Q ⟨⟩ (s.flushed s.batch) := by
    rw [when_neg hlimit, ensures_pure]
  rw [ensures_finishReading, ensures_flushBatch, h.appends, hmark]
  constructor
  · exact fun hflush => hflush.1 h.full
  · exact fun hflush => ⟨fun _ => hflush, fun hempty => (h.full hempty).elim⟩

/-- Whether the flush that has raised is one that is repeated. -/
theorem FlushRaised.repeats_iff {flushes : ℕ} (h : FlushRaised failures batchSize rows s flushes)
    (hsize : 0 < batchSize)
    (hraised : failures.append flushes = true ∨ failures.publish flushes = true) :
  failures.Repeats (rows.length / batchSize)
    ↔ failures.append flushes = false ∧ failures.append (flushes + 1) = false
  := by
  constructor
  · rintro ⟨j, -, hquiet, happend, hpublish, hagain⟩
    obtain hlt | rfl | hgt := Nat.lt_trichotomy j flushes
    · cases hpublish.symm.trans (h.quiet j hlt).2
    · exact ⟨happend, hagain⟩
    · obtain ⟨happend', hpublish'⟩ := hquiet flushes hgt
      rcases hraised with hraised | hraised
      · cases hraised.symm.trans happend'
      · cases hraised.symm.trans hpublish'
  · rintro ⟨happend, hagain⟩
    refine ⟨flushes, ?_, h.quiet, happend, hraised.resolve_left ?_, hagain⟩
    · rw [← Nat.succ_le_iff, Nat.le_div_iff_mul_le hsize]
      apply h.size
    · rw [happend]
      exact Bool.false_ne_true

/-- What is appended after the loop has raised is a beginning of the rows unless a flush is
repeated, when the rows are distinct. -/
theorem LoopRaised.finish {e : DrainError} (h : LoopRaised failures batchSize rows s e)
    (hsize : 0 < batchSize) (hdistinct : rows.Nodup) :
  Ensures (finishReading failures (some spool)) s
    (fun _ t => t.appended <+: rows ↔ ¬ failures.Repeats (rows.length / batchSize))
    (fun _ t => t.appended <+: rows ↔ ¬ failures.Repeats (rows.length / batchSize))
  := by
  cases h with
  | stream h hlimit =>
      have hnot := h.not_repeats
      apply h.finish.mono
      · rintro _ t ⟨happended, -⟩
        rw [happended]
        exact ⟨fun _ => hnot, fun _ => List.prefix_refl _⟩
      · rintro _ t ⟨happended, -⟩
        exact ⟨fun _ => hnot, fun _ => happended⟩
  | append h htaken hraises hpublishes =>
      have hnot : ¬ failures.Repeats (rows.length / batchSize) := by
        rw [h.repeats_iff hsize (.inl hraises), hraises]
        nofun
      rw [h.finish]
      have hbefore : s.appended <+: rows := (List.prefix_append _ _).trans htaken
      refine ⟨fun _ => ⟨fun _ => hnot, fun _ => hbefore⟩, fun _ => ⟨fun _ => ?_, fun _ => ?_⟩⟩
      · exact ⟨fun _ => hnot, fun _ => htaken⟩
      · exact ⟨fun _ => hnot, fun _ => htaken⟩
  | publish h htaken hbatch happend hraises =>
      have hrepeats := h.repeats_iff hsize (.inr hraises)
      rw [h.finish]
      constructor
      · intro hagain
        rw [hrepeats, hagain]
        exact ⟨fun _ hfalse => Bool.noConfusion hfalse.2, fun _ => htaken⟩
      · intro hagain
        have hdouble : ¬ s.appended ++ s.batch <+: rows := by
          intro hprefix
          obtain ⟨row, hrow⟩ := List.exists_mem_of_ne_nil _ h.full
          have hnodup := hdistinct.sublist hprefix.sublist
          apply (List.nodup_append.mp hnodup).2.2 row (hbatch.subset hrow) row hrow rfl
        have hnot : s.appended ++ s.batch <+: rows
            ↔ ¬ failures.Repeats (rows.length / batchSize) := by
          rw [hrepeats]
          exact ⟨fun hprefix => (hdouble hprefix).elim,
            fun hrepeated => (hrepeated ⟨happend, hagain⟩).elim⟩
        exact ⟨fun _ => hnot, fun _ => hnot⟩

/-! ### The whole stream -/

theorem flushSize_pos (spoolBatchSize : ℕ) (spool : StatementSpool) :
  0 < flushSize spoolBatchSize (some spool)
  := Nat.lt_of_lt_of_le Nat.one_pos (Nat.le_max_left _ _)

/-- How the reading of a stream of distinct rows ends. -/
theorem drainToSpool_spec (failures : DrainFailures) (spoolBatchSize : ℕ) (spool : StatementSpool)
    (stream : RowStream Row) (hdistinct : stream.rows.Nodup) :
  Ensures (drainToSpool failures spoolBatchSize (some spool) stream) {}
    (fun _ t => t.appended = stream.rows.take spool.maxResultRows
      ∧ (t.truncated = true ↔ spool.maxResultRows < stream.rows.length)
      ∧ ¬ failures.Repeats ((stream.rows.take spool.maxResultRows).length
        / flushSize spoolBatchSize (some spool)))
    (fun _ t => (t.appended <+: stream.rows.take spool.maxResultRows
        ↔ ¬ failures.Repeats ((stream.rows.take spool.maxResultRows).length
          / flushSize spoolBatchSize (some spool)))
      ∧ ¬ failures.Quiet stream)
  := by
  have hsize := flushSize_pos spoolBatchSize spool
  have hreading : Reading failures (flushSize spoolBatchSize (some spool)) []
      ({} : Streaming Row) :=
    ⟨rfl, hsize, (Nat.zero_mul _).symm, rfl, fun i hi => (Nat.not_lt_zero i hi).elim, rfl⟩
  rw [drainToSpool, ensures_andFinally]
  apply (readStreamRows_spec hreading rfl (Nat.zero_le _) rfl).mono
  · rintro _ t ⟨h, hlimit⟩
    have hnot := h.not_repeats
    apply h.finish.mono
    · rintro _ u ⟨happended, hmarked⟩
      exact ⟨happended, hmarked.trans hlimit, hnot⟩
    · rintro _ u ⟨happended, hquiet⟩
      exact ⟨⟨fun _ => hnot, fun _ => happended⟩, hquiet stream⟩
  · rintro e t ⟨hstream, h⟩
    have hquiet : ¬ failures.Quiet stream := by
      intro hquiet
      cases h with
      | stream => cases (hstream rfl).symm.trans hquiet.stream
      | append _ _ hraises => cases hraises.symm.trans (hquiet.append _)
      | publish _ _ _ _ hraises => cases hraises.symm.trans (hquiet.publish _)
    apply (h.finish hsize (hdistinct.sublist (List.take_sublist _ _))).mono
    · exact fun _ u hu => ⟨hu, hquiet⟩
    · exact fun _ u hu => ⟨hu, hquiet⟩

end Proofs

/-! ### Rows and their positions -/

section Positions

variable {α β : Type} {failures : DrainFailures}

/-- The same state with other rows. -/
def Streaming.map (f : α → β) (s : Streaming α) : Streaming β where
  batch := s.batch.map f
  rowsRead := s.rowsRead
  rowsReturned := s.rowsReturned
  outputLimitApplied := s.outputLimitApplied
  appended := s.appended.map f
  truncated := s.truncated
  appends := s.appends
  publishes := s.publishes

/-- How a computation ends, with other rows. -/
def mapRows (f : α → β) :
    EStateM.Result DrainError (Streaming α) PUnit → EStateM.Result DrainError (Streaming β) PUnit
  | .ok a s => .ok a (s.map f)
  | .error e s => .error e (s.map f)

/-- The second computation does with other rows what the first does. -/
def Maps (f : α → β) (m : DrainM α PUnit) (m' : DrainM β PUnit) : Prop :=
  ∀ s, m'.run (s.map f) = mapRows f (m.run s)

variable {f : α → β}

theorem maps_modify {g : Streaming α → Streaming α} {g' : Streaming β → Streaming β}
    (h : ∀ s, g' (s.map f) = (g s).map f) :
  Maps f (modify g) (modify g')
  := fun s => congrArg (EStateM.Result.ok PUnit.unit) (h s)

theorem maps_throw (e : DrainError) :
  Maps f (throw e) (throw e)
  := fun _ => rfl

theorem Maps.bind {m n : DrainM α PUnit} {m' n' : DrainM β PUnit} (hm : Maps f m m')
    (hn : Maps f n n') :
  Maps f (m >>= fun _ => n) (m' >>= fun _ => n')
  := by
  intro s
  rw [EStateM.run_bind, EStateM.run_bind, hm s]
  cases m.run s with
  | ok a t => apply hn
  | error e t => rfl

/-- A computation that begins with a look at the state. -/
theorem maps_get {m : Streaming α → DrainM α PUnit} {m' : Streaming β → DrainM β PUnit}
    (h : ∀ s, Maps f (m s) (m' (s.map f))) :
  Maps f (get >>= m) (get >>= m')
  := fun s => h s s

theorem maps_ite {p : Prop} [Decidable p] {m n : DrainM α PUnit} {m' n' : DrainM β PUnit}
    (hm : Maps f m m') (hn : Maps f n n') :
  Maps f (if p then m else n) (if p then m' else n')
  := by
  split
  · apply hm
  · apply hn

theorem maps_when {p : Prop} [Decidable p] {m : DrainM α PUnit} {m' : DrainM β PUnit}
    (h : Maps f m m') :
  Maps f (when p m) (when p m')
  := maps_ite h (fun _ => rfl)

theorem maps_andFinally {m cleanup : DrainM α PUnit} {m' cleanup' : DrainM β PUnit}
    (hm : Maps f m m') (hcleanup : Maps f cleanup cleanup') :
  Maps f (andFinally m cleanup) (andFinally m' cleanup')
  := by
  intro s
  have hrun := hm s
  rw [EStateM.run, EStateM.run] at hrun ⊢
  rw [andFinally, andFinally, hrun]
  cases m s with
  | ok a t =>
      have hend := hcleanup t
      rw [EStateM.run, EStateM.run] at hend
      dsimp only [mapRows]
      rw [hend]
      cases cleanup t with
      | ok b u => rfl
      | error e u => rfl
  | error e t =>
      have hend := hcleanup t
      rw [EStateM.run, EStateM.run] at hend
      dsimp only [mapRows]
      rw [hend]
      cases cleanup t with
      | ok b u => rfl
      | error e' u => rfl

theorem maps_flushBatch (spool : Option StatementSpool) (batch : List α) :
  Maps f (flushBatch failures spool batch) (flushBatch failures spool (batch.map f))
  := by
  cases spool with
  | none => exact fun _ => rfl
  | some spool =>
      apply Maps.bind
      · apply maps_get
        intro s
        apply Maps.bind
        · exact maps_modify (fun _ => rfl)
        · apply maps_ite
          · apply maps_throw
          · apply maps_modify
            intro t
            simp only [Streaming.map, List.map_append]
      · apply maps_get
        intro s
        apply Maps.bind
        · exact maps_modify (fun _ => rfl)
        · exact maps_when (maps_throw _)

theorem maps_readStreamRows (spool : Option StatementSpool) (batchSize : ℕ) (raises : Bool)
    (rows : List α) :
  Maps f (readStreamRows failures spool batchSize raises rows)
    (readStreamRows failures spool batchSize raises (rows.map f))
  := by
  induction rows with
  | nil => exact maps_when (maps_throw _)
  | cons row rows ih =>
      apply Maps.bind
      · exact maps_modify (fun _ => rfl)
      apply maps_get
      intro s
      apply maps_ite
      · exact maps_modify (fun _ => rfl)
      apply Maps.bind
      · apply maps_modify
        intro t
        simp only [Streaming.map, List.map_append, List.map_cons, List.map_nil]
      apply maps_get
      intro t
      have hlength : (t.map f).batch.length = t.batch.length := List.length_map _
      rw [hlength]
      apply Maps.bind
      · apply maps_when
        apply Maps.bind
        · apply maps_flushBatch
        · exact maps_modify (fun _ => rfl)
      · apply ih

theorem maps_finishReading (spool : Option StatementSpool) :
  Maps f (finishReading failures spool) (finishReading failures spool)
  := by
  apply maps_get
  intro s
  have hempty : (s.map f).batch ≠ [] ↔ s.batch ≠ [] := List.map_eq_nil_iff.not
  apply Maps.bind
  · by_cases hbatch : s.batch = []
    · rw [when_neg (not_not.mpr hbatch), when_neg (mt hempty.mp (not_not.mpr hbatch))]
      exact fun _ => rfl
    · rw [when_pos hbatch, when_pos (hempty.mpr hbatch)]
      apply maps_flushBatch
  · apply maps_get
    intro t
    apply maps_when
    apply maps_ite
    · apply maps_throw
    · exact maps_modify (fun _ => rfl)

/-- The rows that are appended are those at the positions that are. -/
theorem appended_positions (spoolBatchSize : ℕ) (spool : Option StatementSpool)
    (stream : RowStream α) :
  (stateOf (drain failures spoolBatchSize spool stream)).appended
    = (stateOf (drain failures spoolBatchSize spool stream.positions)).appended.map Prod.fst
  := by
  have hrows : stream.rows = stream.positions.rows.map Prod.fst := by
    rw [RowStream.positions, List.zipIdx_map_fst]
  have hmaps : Maps Prod.fst (drainToSpool failures spoolBatchSize spool stream.positions)
      (drainToSpool failures spoolBatchSize spool stream) := by
    rw [drainToSpool, drainToSpool, hrows]
    exact maps_andFinally (maps_readStreamRows _ _ _ _) (maps_finishReading _)
  have hrun : drain failures spoolBatchSize spool stream
      = mapRows Prod.fst (drain failures spoolBatchSize spool stream.positions) := hmaps {}
  rw [hrun]
  cases drain failures spoolBatchSize spool stream.positions with
  | ok a t => rfl
  | error e t => rfl

end Positions

/-! ### Each row once -/

/-- Every row is kept at most once and in its place, and all that may be are kept when nothing is
raised, if and only if no flush is repeated after its batch was appended. -/
theorem keepsRows_iff {Row : Type} (failures : DrainFailures) (spoolBatchSize : ℕ)
    (spool : StatementSpool) (stream : RowStream Row) :
  KeepsRows failures spool stream.positions
      (drain failures spoolBatchSize (some spool) stream.positions)
    ↔ ¬ failures.Repeats (min stream.rows.length spool.maxResultRows
      / max 1 (min spoolBatchSize spool.pageSize))
  := by
  have hdistinct : stream.positions.rows.Nodup := by
    apply List.Nodup.of_map Prod.snd
    rw [RowStream.positions, List.zipIdx_map_snd]
    exact List.nodup_range'
  have hspec := drainToSpool_spec failures spoolBatchSize spool stream.positions hdistinct
  have hlength : (stream.positions.rows.take spool.maxResultRows).length
      = min stream.rows.length spool.maxResultRows := by
    rw [List.length_take, RowStream.positions, List.length_zipIdx, Nat.min_comm]
  rw [hlength] at hspec
  rw [Ensures] at hspec
  show KeepsRows failures spool stream.positions _
    ↔ ¬ failures.Repeats (_ / flushSize _ (some spool))
  rw [drain]
  cases hrun : (drainToSpool failures spoolBatchSize (some spool) stream.positions).run {} with
  | ok a t =>
      rw [hrun] at hspec
      obtain ⟨happended, htruncated, hnot⟩ := hspec
      refine ⟨fun _ => hnot, fun _ => ⟨?_, ?_, fun _ => ⟨happended, htruncated⟩, fun _ => rfl⟩⟩
      · show t.appended <+: _
        rw [happended]
        apply List.take_prefix
      · show t.appended.length ≤ _
        rw [happended]
        apply List.length_take_le
  | error e t =>
      rw [hrun] at hspec
      obtain ⟨hiff, hquiet⟩ := hspec
      rw [← hiff, List.prefix_take_iff]
      constructor
      · exact fun h => ⟨h.beginning, h.limited⟩
      · exact fun h => ⟨h.1, h.2, (by intro hok; cases hok), fun hq => (hquiet hq).elim⟩

/-- Every batch is one row, and the catalog raises at the first. -/
def catalogFails : DrainFailures where
  append _ := false
  publish i := i == 0
  mark := false

/-- The first row is appended twice. -/
theorem catalogFails_repeats :
  (stateOf (drain catalogFails 1 (some ⟨[], 1, 10⟩) ⟨["a", "b"], false⟩)).appended = ["a", "a"]
    ∧ ¬ KeepsRows catalogFails ⟨[], 1, 10⟩ (RowStream.positions ⟨["a", "b"], false⟩)
      (drain catalogFails 1 (some ⟨[], 1, 10⟩) (RowStream.positions ⟨["a", "b"], false⟩))
  := by
  constructor
  · rfl
  · intro h
    have hbeginning := h.beginning
    revert hbeginning
    decide

end Results

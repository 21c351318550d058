import DataOpsStudio.Results.Eviction

/-!
# Totals in the catalog

When the lane seals a result set it writes a total into the catalog, unless the result was cut off.
It does so however the execution has ended.  If no statement whose execution has raised, and none
whose session was lost or whose spool was deleted meanwhile, gets a total, then every total counts
the rows of a statement that has succeeded, and they are in its spool.
-/

namespace Results

open Text Broker

variable {Row : Type}

/-! ### What a total promises -/

/-- The statement `s` has succeeded and its stream has yielded `n` rows, which are in the spool `r`
until it is deleted. -/
def ResultsConsole.Settled (x : ResultsConsole Row) (r s : Text) (n : ℕ) : Prop :=
  ∃ statement, x.statements.get? s = some statement ∧ statement.state = .succeeded
    ∧ statement.streamed.length = n ∧ (¬ x.Deleted r → (x.dir r).rows = statement.streamed)

/-- The lane is about to end the statement `s`, which has not come to its end before; nothing was
raised, and its `n` rows are in the spool `r`. -/
def ResultsConsole.Settling (x : ResultsConsole Row) (r s : Text) (n : ℕ) : Prop :=
  ∃ drain : Drain Row, x.lane = .ending drain true ∧ drain.statementId = s
    ∧ drain.spool.resultSetId = r ∧ x.Live s ∧ drain.streamed.length = n
    ∧ (¬ x.Deleted r → (x.dir r).rows = drain.streamed)

/-- A result set whose statement has come to its end has a total only if the statement has succeeded
and the spool holds every row of the result, and then the total is their number. -/
def ResultsConsole.TotalsHonest (x : ResultsConsole Row) : Prop :=
  ∀ r row n, x.catalog.get? r = some row → row.totalRows = some n → ¬ x.Live row.executionId →
    x.Settled r row.executionId n

/-- The result that the lane is about to seal was cut off, or it is whole: nothing has been raised,
the session has not been lost, and the spool has not been deleted. -/
def LanePoint.Whole (x : ResultsConsole Row) : LanePoint Row → Prop
  | .finalizing drain good => drain.outputLimitApplied = false →
      (x.dir drain.spool.resultSetId).readManifest.truncated = false →
      good = true ∧ x.Live drain.statementId ∧ ¬ x.Deleted drain.spool.resultSetId
  | _ => True

/-- The lane is not about to end the statement `s` after it has given it a total. -/
def LanePoint.Untotalled (x : ResultsConsole Row) (s : Text) : LanePoint Row → Prop
  | .ending drain _ => drain.statementId = s →
      ∀ row ∈ x.catalog.get? drain.spool.resultSetId, row.totalRows = none
  | _ => True

/-- Results are whole when they are sealed, and a session is not lost between this and the end of
the statement. -/
def SealsWhole (x : ResultsConsole Row) : Action Row → Prop
  | .finalize false _ => x.lane.Whole x
  | .lose s _ => x.lane.Untotalled x s
  | _ => True

/-! ### What steps leave alone -/

/-- The result set to whose spool the lane may write next. -/
def LanePoint.writes : LanePoint Row → Option Text
  | .executing _ spool => some spool.resultSetId
  | .appending drain _ => some drain.spool.resultSetId
  | .marking drain _ => some drain.spool.resultSetId
  | _ => none

/-- A row keeps the total that it has or had. -/
def KeepsTotals (catalog catalog' : Dict Text ResultSetRow) (r : Text) : Prop :=
  ∀ row' n, catalog'.get? r = some row' → row'.totalRows = some n →
    ∃ row, catalog.get? r = some row ∧ row.totalRows = some n
      ∧ row.executionId = row'.executionId

/-- Statements that have succeeded stay as they are, and so do spools to which the lane does not
write, until they are deleted.  Only a result set that the lane seals gets a total. -/
structure Preserves (x x' : ResultsConsole Row) : Prop where
  succeeded : ∀ s statement, x.statements.get? s = some statement → statement.state = .succeeded →
    ∃ statement', x'.statements.get? s = some statement' ∧ statement'.state = .succeeded
      ∧ statement'.streamed = statement.streamed
  dir : ∀ r, x.lane.writes ≠ some r → ¬ x'.Deleted r → ¬ x.Deleted r ∧ x'.dir r = x.dir r
  total : ∀ r, (x'.lane = x.lane
      ∨ ∀ drain good, x.lane = .finalizing drain good → drain.spool.resultSetId ≠ r) →
    KeepsTotals x.catalog x'.catalog r

section Preserves

variable {config : ResultsConfig Row} {x x' : ResultsConsole Row} {s r : Text}
  {statement statement' : SpooledStatement Row}

theorem KeepsTotals.refl (catalog : Dict Text ResultSetRow) (r : Text) :
  KeepsTotals catalog catalog r
  := fun row' _ hrow' htotal => ⟨row', hrow', htotal, rfl⟩

/-- A row that has no total may be set. -/
theorem KeepsTotals.set {catalog : Dict Text ResultSetRow} {row : ResultSetRow}
    (hrow : row.totalRows = none) (r r' : Text) :
  KeepsTotals catalog (catalog.set r row) r'
  := by
  intro row' n hrow' htotal
  rw [Dict.get?_set] at hrow'
  split at hrow'
  · obtain rfl := Option.some.inj hrow'
    cases hrow.symm.trans htotal
  · exact ⟨row', hrow', htotal, rfl⟩

/-- A result set that is closed keeps its total. -/
theorem KeepsTotals.close (now : ℤ) (stale : List Text) (catalog : Dict Text ResultSetRow)
    (r : Text) :
  KeepsTotals catalog (stale.foldl (closeResultSet now) catalog) r
  := by
  induction stale generalizing catalog with
  | nil => apply KeepsTotals.refl
  | cons r' stale ih =>
      intro row' n hrow' htotal
      rw [List.foldl_cons] at hrow'
      obtain ⟨row, hrow, hkept, hexecution⟩ := ih _ row' n hrow' htotal
      rw [closeResultSet] at hrow
      split at hrow
      · exact ⟨row, hrow, hkept, hexecution⟩
      · rename_i old hold
        rw [Dict.get?_set] at hrow
        split at hrow
        · rename_i hr
          obtain rfl := Option.some.inj hrow
          rw [← eq_of_beq hr]
          exact ⟨old, hold, hkept, hexecution⟩
        · exact ⟨row, hrow, hkept, hexecution⟩

theorem Preserves.of_same (hstatements : x'.statements = x.statements)
    (hspools : x'.spools = x.spools) (hdeleted : ∀ r, x'.Deleted r ↔ x.Deleted r)
    (htotal : ∀ r, KeepsTotals x.catalog x'.catalog r) :
  Preserves x x'
  := by
  constructor
  · intro s statement hs hstate
    rw [hstatements]
    exact ⟨statement, hs, hstate, rfl⟩
  · intro r _ hr
    rw [hdeleted] at hr
    rw [ResultsConsole.dir, ResultsConsole.dir, hspools]
    exact ⟨hr, rfl⟩
  · intro r _
    apply htotal

/-- A statement that has not succeeded may be set. -/
theorem Preserves.of_set
    (hs : ∀ statement, x.statements.get? s = some statement → statement.state ≠ .succeeded)
    (hstatements : x'.statements = x.statements.set s statement')
    (hspools : x'.spools = x.spools) (hhistory : x'.history = x.history)
    (hcatalog : x'.catalog = x.catalog) :
  Preserves x x'
  := by
  constructor
  · intro s' statement hs' hstate
    have hne : s ≠ s' := by
      rintro rfl
      apply hs statement hs' hstate
    rw [hstatements, Dict.get?_set_of_ne _ _ hne]
    exact ⟨statement, hs', hstate, rfl⟩
  · intro r _ hr
    rw [ResultsConsole.Deleted, hhistory] at hr
    rw [ResultsConsole.dir, ResultsConsole.dir, hspools]
    exact ⟨hr, rfl⟩
  · intro r _
    rw [hcatalog]
    apply KeepsTotals.refl

/-- The spool to which the lane writes may be set. -/
theorem Preserves.of_dir {dir : SpoolDir Row} (hwrites : x.lane.writes = some r)
    (hstatements : x'.statements = x.statements) (hspools : x'.spools = x.spools.set r dir)
    (hhistory : x'.history = x.history) (hcatalog : x'.catalog = x.catalog) :
  Preserves x x'
  := by
  constructor
  · intro s statement hs hstate
    rw [hstatements]
    exact ⟨statement, hs, hstate, rfl⟩
  · intro r' hr' hdeleted
    rw [ResultsConsole.Deleted, hhistory] at hdeleted
    refine ⟨hdeleted, ?_⟩
    have hne : r ≠ r' := by
      rintro rfl
      apply hr' hwrites
    rw [ResultsConsole.dir, ResultsConsole.dir, hspools, Dict.get?_set_of_ne _ _ hne]
  · intro r' _
    rw [hcatalog]
    apply KeepsTotals.refl

/-- Only the row of the result set changes that is written. -/
theorem Preserves.of_writeCatalog (drain : Drain Row) (state : ResultSetState)
    (totalRows : Option ℕ) (now : ℤ) (lane : LanePoint Row)
    (h : totalRows = none ∨ lane ≠ x.lane ∧ ∃ good, x.lane = .finalizing drain good) :
  Preserves x { writeCatalog x drain state totalRows now with lane := lane }
  := by
  have hcatalog : ∀ r, (lane = x.lane
      ∨ ∀ drain' good, x.lane = .finalizing drain' good → drain'.spool.resultSetId ≠ r) →
      KeepsTotals x.catalog (writeCatalog x drain state totalRows now).catalog r := by
    intro r hr
    rw [writeCatalog]
    split
    · apply KeepsTotals.refl
    · rcases h with rfl | ⟨hnext, good, hlane⟩
      · apply KeepsTotals.set rfl
      · intro row' n hrow' hn
        have hne := hr.resolve_left hnext drain good hlane
        dsimp only at hrow'
        rw [Dict.get?_set_of_ne _ _ hne] at hrow'
        exact ⟨row', hrow', hn, rfl⟩
  obtain ⟨catalog, heq⟩ := writeCatalog_eq x drain state totalRows now
  rw [heq] at hcatalog ⊢
  exact ⟨fun _ statement hs hstate => ⟨statement, hs, hstate, rfl⟩, fun _ _ hr => ⟨hr, rfl⟩,
    hcatalog⟩

/-- The statement that the lane executes has not succeeded. -/
theorem ResultsConsole.Sound.not_succeeded (hx : x.Sound) (spool : StatementSpool)
    (hjob : x.lane.job = some (s, spool)) (hs : x.statements.get? s = some statement) :
  statement.state ≠ .succeeded
  := by
  obtain ⟨⟨statement', hs', -, -, hsucceeded⟩, -⟩ := hx.lane s spool hjob
  obtain rfl := Option.some.inj (hs.symm.trans hs')
  apply hsucceeded

theorem preserves_of_next {action : Action Row} (hx : x.Sound) (hfresh : action.Fresh x)
    (h : x.next config action = some x') :
  Preserves x x'
  := by
  cases action with
  | submit s pageSize maxResultRows =>
      rw [ResultsConsole.next, submit] at h
      split at h
      case isFalse =>
        cases h
      obtain rfl := Option.some.inj h
      refine .of_set (s := s) ?_ rfl rfl rfl rfl
      intro statement hs
      cases hfresh.symm.trans hs
  | register r now =>
      rw [ResultsConsole.next, register.eq_def] at h
      split at h
      · obtain rfl := Option.some.inj h
        exact .of_same rfl rfl (fun _ => Iff.rfl) (.set rfl r)
      · cases h
  | evict listing now =>
      rw [ResultsConsole.next, evictConsoleResultsets.eq_def] at h
      split at h
      case h_2 =>
        cases h
      split at h
      · obtain rfl := Option.some.inj h
        exact .of_same rfl rfl (fun _ => Iff.rfl) (.close now _ _)
      · cases h
  | deleteSpool left =>
      obtain ⟨r, h⟩ := deleteSpool_spec h
      constructor
      · intro s statement hs hstate
        rw [h.statements]
        exact ⟨statement, hs, hstate, rfl⟩
      · intro r' _ hr'
        rw [h.deleted, not_or] at hr'
        exact ⟨hr'.1, h.dir r' hr'.2⟩
      · intro r' _
        rw [h.catalog]
        apply KeepsTotals.refl
  | accept =>
      rw [ResultsConsole.next, accept.eq_def] at h
      split at h
      case h_2 =>
        cases h
      rename_i s spool hpoint
      obtain ⟨statement, hs, rfl⟩ := Option.map_eq_some_iff.mp h
      obtain ⟨statement', hs', haccepted, -⟩ : x.Awaits s := (hx.submitting _ hpoint).1
      refine .of_set (s := s) ?_ rfl rfl rfl rfl
      intro statement'' hs'' hsucceeded
      obtain rfl := Option.some.inj (hs'.symm.trans hs'')
      cases haccepted.symm.trans hsucceeded
  | refuse =>
      have hfail : ∀ s, x.Awaits s → (x.statements.get? s).map (fun statement =>
          { x.setStatement s { statement with state := .failed } with submitting := none })
            = some x' → Preserves x x' := by
        rintro s ⟨statement', hs', haccepted, -⟩ h
        obtain ⟨statement, hs, rfl⟩ := Option.map_eq_some_iff.mp h
        refine .of_set (s := s) ?_ rfl rfl rfl rfl
        intro statement'' hs'' hsucceeded
        obtain rfl := Option.some.inj (hs'.symm.trans hs'')
        cases haccepted.symm.trans hsucceeded
      rw [ResultsConsole.next, refuse] at h
      split at h
      · rename_i s _ _ hpoint
        apply hfail s (hx.submitting _ hpoint) h
      · rename_i s spool hpoint
        apply hfail s (hx.submitting _ hpoint).1 h
      · cases h
  | cancel s =>
      rw [ResultsConsole.next, cancel] at h
      split at h
      case isFalse =>
        cases h
      obtain ⟨statement, hs, h⟩ := Option.bind_eq_some_iff.mp h
      split at h
      case isFalse =>
        cases h
      rename_i haccepted
      obtain rfl := Option.some.inj h
      refine .of_set (s := s) ?_ rfl rfl rfl rfl
      intro statement' hs' hsucceeded
      obtain rfl := Option.some.inj (hs.symm.trans hs')
      cases haccepted.symm.trans hsucceeded
  | lose s state =>
      rw [ResultsConsole.next, lose] at h
      split at h
      case isFalse =>
        cases h
      obtain ⟨statement, hs, h⟩ := Option.bind_eq_some_iff.mp h
      split at h
      case isFalse =>
        cases h
      rename_i hflight
      obtain rfl := Option.some.inj h
      refine .of_set (s := s) ?_ rfl rfl rfl rfl
      intro statement' hs' hsucceeded
      obtain rfl := Option.some.inj (hs.symm.trans hs')
      rw [hsucceeded] at hflight
      revert hflight
      decide
  | take =>
      rw [ResultsConsole.next, takeStatement.eq_def] at h
      split at h
      · obtain rfl := Option.some.inj h
        exact .of_same rfl rfl (fun _ => Iff.rfl) (.refl _)
      · cases h
  | countOff =>
      rw [ResultsConsole.next, countOff.eq_def] at h
      split at h
      · obtain rfl := Option.some.inj h
        exact .of_same rfl rfl (fun _ => Iff.rfl) (.refl _)
      · cases h
  | start refused =>
      rw [ResultsConsole.next, startStatement.eq_def] at h
      split at h
      case h_2 =>
        cases h
      rename_i s hlane hfree
      obtain ⟨statement, hs, h⟩ := Option.bind_eq_some_iff.mp h
      split at h
      · obtain rfl := Option.some.inj h
        exact .of_same rfl rfl (fun _ => Iff.rfl) (.refl _)
      · rename_i hbegins
        obtain ⟨spool, hspool, rfl⟩ := Option.map_eq_some_iff.mp h
        refine .of_set (s := s) ?_ rfl rfl rfl rfl
        intro statement' hs' hsucceeded
        obtain rfl := Option.some.inj (hs.symm.trans hs')
        apply hbegins
        left
        rw [hsucceeded]
        decide
  | captureColumns columns =>
      rw [ResultsConsole.next, captureColumns.eq_def] at h
      split at h
      case h_2 =>
        cases h
      rename_i s spool hlane
      split at h
      · obtain rfl := Option.some.inj h
        refine .of_dir (r := spool.resultSetId) ?_ rfl rfl rfl rfl
        rw [hlane]
        rfl
      · cases h
  | executed raises =>
      rw [ResultsConsole.next, executed.eq_def] at h
      split at h
      case h_2 =>
        cases h
      rename_i s spool hlane hfree
      dsimp only at h
      split at h
      · obtain rfl := Option.some.inj h
        exact .of_same rfl rfl (fun _ => Iff.rfl) (.refl _)
      · obtain ⟨statement, hs, rfl⟩ := Option.map_eq_some_iff.mp h
        refine .of_set (s := s) ?_ rfl rfl rfl rfl
        intro statement' hs'
        refine hx.not_succeeded spool ?_ hs'
        rw [hlane]
        rfl
  | stream event =>
      rw [ResultsConsole.next, readStream.eq_def] at h
      split at h
      · obtain rfl := Option.some.inj h
        exact .of_same rfl rfl (fun _ => Iff.rfl) (.refl _)
      · cases h
  | append raises =>
      rw [ResultsConsole.next, appendBatch.eq_def] at h
      split at h
      case h_2 =>
        cases h
      rename_i drain final hlane
      split at h
      · obtain rfl := Option.some.inj h
        refine .of_dir (r := drain.spool.resultSetId) ?_ rfl rfl rfl rfl
        rw [hlane]
        rfl
      · obtain rfl := Option.some.inj h
        exact .of_same rfl rfl (fun _ => Iff.rfl) (.refl _)
  | publish raises now =>
      rw [ResultsConsole.next, publishStreaming.eq_def] at h
      split at h
      case h_2 =>
        cases h
      rename_i drain final hlane
      split at h
      · obtain rfl := Option.some.inj h
        exact .of_same rfl rfl (fun _ => Iff.rfl) (.refl _)
      · obtain rfl := Option.some.inj h
        exact .of_writeCatalog _ _ _ _ _ (.inl rfl)
  | mark raises =>
      rw [ResultsConsole.next, markTruncated.eq_def] at h
      split at h
      case h_2 =>
        cases h
      rename_i drain good hlane
      split at h
      · split at h
        · obtain rfl := Option.some.inj h
          refine .of_dir (r := drain.spool.resultSetId) ?_ rfl rfl rfl rfl
          rw [hlane]
          rfl
        · obtain rfl := Option.some.inj h
          exact .of_same rfl rfl (fun _ => Iff.rfl) (.refl _)
      · obtain rfl := Option.some.inj h
        exact .of_same rfl rfl (fun _ => Iff.rfl) (.refl _)
  | finalize raises now =>
      rw [ResultsConsole.next, finalize.eq_def] at h
      split at h
      case h_2 =>
        cases h
      rename_i drain good hlane
      split at h
      · obtain rfl := Option.some.inj h
        exact .of_same rfl rfl (fun _ => Iff.rfl) (.refl _)
      · obtain rfl := Option.some.inj h
        exact .of_writeCatalog _ _ _ _ _ (.inr ⟨by simp [hlane], good, hlane⟩)
  | ends state =>
      rw [ResultsConsole.next, endStatement.eq_def] at h
      split at h
      case h_2 =>
        cases h
      rename_i drain good hlane hfree
      split at h
      case isFalse =>
        cases h
      obtain ⟨statement, hs, rfl⟩ := Option.map_eq_some_iff.mp h
      refine .of_set (s := drain.statementId) ?_ rfl rfl rfl rfl
      intro statement' hs'
      refine hx.not_succeeded drain.spool ?_ hs'
      rw [hlane]
      rfl

end Preserves

/-! ### The end of a statement -/

section Ending

variable {config : ResultsConfig Row} {x x' : ResultsConsole Row} {action : Action Row}
  {drain : Drain Row} {good : Bool} {s r : Text} {n : ℕ}

/-- What happens outside the lane. -/
def Action.Outside : Action Row → Prop
  | .submit _ _ _ | .register _ _ | .evict _ _ | .deleteSpool _ | .accept | .refuse | .cancel _
  | .lose _ _ => True
  | _ => False

/-- A lane that seals a result set does nothing else. -/
theorem outside_of_finalizing (hlane : x.lane = .finalizing drain good)
    (h : x.next config action = some x') :
  action.Outside ∨ ∃ raises now, action = .finalize raises now
  := by
  cases action with
  | finalize raises now => exact .inr ⟨raises, now, rfl⟩
  | take => simp [ResultsConsole.next, takeStatement, hlane] at h
  | countOff => simp [ResultsConsole.next, countOff, hlane] at h
  | start refused => simp [ResultsConsole.next, startStatement, hlane] at h
  | captureColumns columns => simp [ResultsConsole.next, captureColumns, hlane] at h
  | executed raises => simp [ResultsConsole.next, executed, hlane] at h
  | stream event => simp [ResultsConsole.next, readStream, hlane] at h
  | append raises => simp [ResultsConsole.next, appendBatch, hlane] at h
  | publish raises now => simp [ResultsConsole.next, publishStreaming, hlane] at h
  | mark raises => simp [ResultsConsole.next, markTruncated, hlane] at h
  | ends state => simp [ResultsConsole.next, endStatement, hlane] at h
  | _ => exact .inl trivial

/-- A lane that is about to end a statement does nothing else. -/
theorem outside_of_ending (hlane : x.lane = .ending drain good)
    (h : x.next config action = some x') :
  action.Outside ∨ ∃ state, action = .ends state
  := by
  cases action with
  | ends state => exact .inr ⟨state, rfl⟩
  | take => simp [ResultsConsole.next, takeStatement, hlane] at h
  | countOff => simp [ResultsConsole.next, countOff, hlane] at h
  | start refused => simp [ResultsConsole.next, startStatement, hlane] at h
  | captureColumns columns => simp [ResultsConsole.next, captureColumns, hlane] at h
  | executed raises => simp [ResultsConsole.next, executed, hlane] at h
  | stream event => simp [ResultsConsole.next, readStream, hlane] at h
  | append raises => simp [ResultsConsole.next, appendBatch, hlane] at h
  | publish raises now => simp [ResultsConsole.next, publishStreaming, hlane] at h
  | mark raises => simp [ResultsConsole.next, markTruncated, hlane] at h
  | finalize raises now => simp [ResultsConsole.next, finalize, hlane] at h
  | _ => exact .inl trivial

theorem live_set_of_ne {s' : Text} {statement : SpooledStatement Row}
    (hstatements : x'.statements = x.statements.set s' statement) (hne : s' ≠ s)
    (h : x.Live s) :
  x'.Live s
  := by
  rw [ResultsConsole.Live, hstatements, Dict.get?_set_of_ne _ _ hne]
  apply h

theorem live_of_same (hstatements : x'.statements = x.statements) (h : x.Live s) :
  x'.Live s
  := by
  rw [ResultsConsole.Live, hstatements]
  apply h

/-- What happens outside the lane leaves the lane where it is, and the statement that it executes
alive unless its session is lost. -/
theorem outside_keeps (hout : action.Outside) (hx : x.Sound) (hfresh : action.Fresh x)
    (h : x.next config action = some x') {spool : StatementSpool}
    (hjob : x.lane.job = some (s, spool)) :
  x'.lane = x.lane ∧ ((∀ state, action ≠ .lose s state) → x.Live s → x'.Live s)
  := by
  obtain ⟨⟨statement, hs, -, haccepted, -⟩, -⟩ := hx.lane s spool hjob
  have hne : ∀ s', (∃ statement', x.statements.get? s' = some statement'
      ∧ statement'.state = .accepted) → s' ≠ s := by
    rintro s' ⟨statement', hs', hstate⟩ rfl
    obtain rfl := Option.some.inj (hs.symm.trans hs')
    apply haccepted hstate
  cases action with
  | submit s' pageSize maxResultRows =>
      rw [ResultsConsole.next, submit] at h
      split at h
      case isFalse =>
        cases h
      obtain rfl := Option.some.inj h
      refine ⟨rfl, fun _ => live_set_of_ne rfl ?_⟩
      rintro rfl
      cases hs.symm.trans hfresh
  | register r now =>
      rw [ResultsConsole.next, register.eq_def] at h
      split at h
      · obtain rfl := Option.some.inj h
        exact ⟨rfl, fun _ => live_of_same rfl⟩
      · cases h
  | evict listing now =>
      obtain ⟨-, -, hstatements, hlane, -⟩ := evict_spec h
      exact ⟨hlane, fun _ => live_of_same hstatements⟩
  | deleteSpool left =>
      obtain ⟨r, h⟩ := deleteSpool_spec h
      exact ⟨h.lane, fun _ => live_of_same h.statements⟩
  | accept =>
      rw [ResultsConsole.next, accept.eq_def] at h
      split at h
      case h_2 =>
        cases h
      rename_i s' spool' hpoint
      obtain ⟨statement', hs', rfl⟩ := Option.map_eq_some_iff.mp h
      obtain ⟨statement'', hs'', hstate, -⟩ : x.Awaits s' := (hx.submitting _ hpoint).1
      exact ⟨rfl, fun _ => live_set_of_ne rfl (hne s' ⟨statement'', hs'', hstate⟩)⟩
  | refuse =>
      have hfail : ∀ s', x.Awaits s' → (x.statements.get? s').map (fun statement =>
          { x.setStatement s' { statement with state := .failed } with submitting := none })
            = some x' → x'.lane = x.lane
              ∧ ((∀ state, Action.refuse ≠ (Action.lose s state : Action Row)) → x.Live s → x'.Live s) := by
        rintro s' ⟨statement'', hs'', hstate, -⟩ h
        obtain ⟨statement', hs', rfl⟩ := Option.map_eq_some_iff.mp h
        exact ⟨rfl, fun _ => live_set_of_ne rfl (hne s' ⟨statement'', hs'', hstate⟩)⟩
      rw [ResultsConsole.next, refuse] at h
      split at h
      · rename_i s' _ _ hpoint
        apply hfail s' (hx.submitting _ hpoint) h
      · rename_i s' spool' hpoint
        apply hfail s' (hx.submitting _ hpoint).1 h
      · cases h
  | cancel s' =>
      rw [ResultsConsole.next, cancel] at h
      split at h
      case isFalse =>
        cases h
      obtain ⟨statement', hs', h⟩ := Option.bind_eq_some_iff.mp h
      split at h
      case isFalse =>
        cases h
      rename_i hstate
      obtain rfl := Option.some.inj h
      exact ⟨rfl, fun _ => live_set_of_ne rfl (hne s' ⟨statement', hs', hstate⟩)⟩
  | lose s' state =>
      rw [ResultsConsole.next, lose] at h
      split at h
      case isFalse =>
        cases h
      obtain ⟨statement', hs', h⟩ := Option.bind_eq_some_iff.mp h
      split at h
      case isFalse =>
        cases h
      obtain rfl := Option.some.inj h
      refine ⟨rfl, fun hlose => live_set_of_ne rfl ?_⟩
      rintro rfl
      apply hlose state rfl
  | _ => cases hout

/-! ### Every run -/

/-- Every total counts the rows of a statement that has succeeded, or is about to. -/
def ResultsConsole.Totalled (x : ResultsConsole Row) : Prop :=
  ∀ r row n, x.catalog.get? r = some row → row.totalRows = some n →
    x.Settled r row.executionId n ∨ x.Settling r row.executionId n

/-- The lane only writes to the spool of the statement that it executes. -/
theorem LanePoint.job_of_writes {lane : LanePoint Row} (h : lane.writes = some r) :
  ∃ s spool, lane.job = some (s, spool) ∧ spool.resultSetId = r
  := by
  cases lane with
  | executing s spool => exact ⟨s, spool, rfl, Option.some.inj h⟩
  | appending drain final => exact ⟨drain.statementId, drain.spool, rfl, Option.some.inj h⟩
  | marking drain good => exact ⟨drain.statementId, drain.spool, rfl, Option.some.inj h⟩
  | _ => cases h

/-- A total that is settled stays so. -/
theorem ResultsConsole.Settled.of_preserves (h : x.Settled r s n) (hx : x.Sound)
    (howner : x.owner r = some s) (hp : Preserves x x') :
  x'.Settled r s n
  := by
  obtain ⟨statement, hs, hstate, hlength, hrows⟩ := h
  obtain ⟨statement', hs', hstate', hstreamed⟩ := hp.succeeded s statement hs hstate
  refine ⟨statement', hs', hstate', ?_, ?_⟩
  · rw [hstreamed]
    apply hlength
  · intro hdeleted
    have hwrites : x.lane.writes ≠ some r := by
      intro hwrites
      obtain ⟨s', spool, hjob, rfl⟩ := LanePoint.job_of_writes hwrites
      obtain ⟨⟨other, hother, hspool, -, hsucceeded⟩, -⟩ := hx.lane s' spool hjob
      obtain rfl := Option.some.inj
        (((hx.statement s' other hother).owner spool hspool).symm.trans howner)
      obtain rfl := Option.some.inj (hs.symm.trans hother)
      apply hsucceeded hstate
    obtain ⟨hbefore, hdir⟩ := hp.dir r hwrites hdeleted
    rw [hdir, hstreamed]
    apply hrows hbefore

/-- A total that is about to be settled stays so while the lane stays where it is. -/
theorem ResultsConsole.Settling.of_preserves (h : x.Settling r s n) (hlane : x'.lane = x.lane)
    (hlive : x.Live s → x'.Live s) (hp : Preserves x x') :
  x'.Settling r s n
  := by
  obtain ⟨drain, hending, rfl, rfl, halive, hlength, hrows⟩ := h
  refine ⟨drain, hlane.trans hending, rfl, rfl, hlive halive, hlength, ?_⟩
  intro hdeleted
  have hwrites : x.lane.writes ≠ some drain.spool.resultSetId := by
    rw [hending]
    nofun
  obtain ⟨hbefore, hdir⟩ := hp.dir _ hwrites hdeleted
  rw [hdir]
  apply hrows hbefore

/-- A statement that ends well settles its total. -/
theorem ResultsConsole.Settling.ends {state : ConsoleStatementState} (h : x.Settling r s n)
    (hnext : endStatement x state = some x') :
  x'.Settled r s n
  := by
  obtain ⟨drain, hlane, rfl, rfl, ⟨statement, hs, hlive⟩, hlength, hrows⟩ := h
  rw [endStatement.eq_def, hlane] at hnext
  split at hnext
  case h_2 =>
    cases hnext
  rename_i drain' good hending hfree
  obtain ⟨rfl, rfl⟩ := LanePoint.ending.inj hending
  split at hnext
  case isFalse =>
    cases hnext
  obtain ⟨statement', hs', rfl⟩ := Option.map_eq_some_iff.mp hnext
  obtain rfl := Option.some.inj (hs.symm.trans hs')
  refine ⟨_, Dict.get?_set_self _ _ _, ?_, hlength, hrows⟩
  dsimp only
  rw [if_neg hlive, if_pos rfl]

/-- A result set that is sealed whole gets the number of its rows as its total. -/
theorem finalize_settling {now : ℤ} {row : ResultSetRow} (hx : x.Sound)
    (hlane : x.lane = .finalizing drain good) (h : finalize x false now = some x')
    (hfine : SealsWhole x (.finalize false now))
    (hrow : x'.catalog.get? drain.spool.resultSetId = some row) (htotal : row.totalRows = some n) :
  x'.Settling drain.spool.resultSetId row.executionId n
  := by
  obtain ⟨⟨statement, hs, hspool, -⟩, htells⟩ := hx.lane drain.statementId drain.spool (by
    rw [hlane]
    rfl)
  have howner := (hx.statement _ _ hs).owner _ hspool
  obtain ⟨old, hold, -⟩ := Option.map_eq_some_iff.mp howner
  have hx' : x' = { writeCatalog x drain .complete
      (if (x.dir drain.spool.resultSetId).readManifest.truncated || drain.outputLimitApplied then none
        else some (x.dir drain.spool.resultSetId).readManifest.loadedRows) now with
      lane := .ending drain good } := by
    rw [finalize.eq_def, hlane] at h
    exact (Option.some.inj h).symm
  rw [writeCatalog, hold] at hx'
  subst hx'
  rw [Dict.get?_set_self] at hrow
  obtain rfl := Option.some.inj hrow
  dsimp only at htotal
  split at htotal
  · cases htotal
  · rename_i hcut
    rw [Bool.or_eq_true, not_or, Bool.not_eq_true, Bool.not_eq_true] at hcut
    rw [SealsWhole, hlane] at hfine
    obtain ⟨rfl, hlive, hdeleted⟩ := hfine hcut.2 hcut.1
    have hrows : (x.dir drain.spool.resultSetId).rows = drain.streamed := by
      have htold := htells hdeleted
      rw [hlane] at htold
      apply htold rfl hcut.1
    refine ⟨drain, rfl, rfl, rfl, hlive, ?_, fun _ => hrows⟩
    rw [← hrows, ← (hx.spool _ hdeleted).counted]
    apply Option.some.inj htotal

theorem step_totalled (hx : x.Sound) (h : x.Totalled)
    (hstep : (resultsSystem config).step x action x') (hfine : SealsWhole x action) :
  x'.Totalled
  := by
  obtain ⟨hfresh, hnext⟩ := hstep
  have hp := preserves_of_next hx hfresh hnext
  -- a total that was there before is kept, or settled by the end of the statement
  have hkept : ∀ r row' n, KeepsTotals x.catalog x'.catalog r → x'.catalog.get? r = some row' →
      row'.totalRows = some n →
      x'.Settled r row'.executionId n ∨ x'.Settling r row'.executionId n := by
    intro r row' n hkeeps hrow' htotal
    obtain ⟨row, hrow, htotal, hexecution⟩ := hkeeps row' n hrow' htotal
    rw [← hexecution]
    have howner : x.owner r = some row.executionId := by
      rw [ResultsConsole.owner, hrow]
      rfl
    rcases h r row n hrow htotal with hsettled | hsettling
    · exact .inl (hsettled.of_preserves hx howner hp)
    · obtain ⟨drain, hlane, hs, hr, -⟩ := id hsettling
      have hjob : x.lane.job = some (row.executionId, drain.spool) := by
        rw [hlane, ← hs]
        rfl
      rcases outside_of_ending hlane hnext with hout | ⟨state, rfl⟩
      · right
        obtain ⟨hsame, hlive⟩ := outside_keeps hout hx hfresh hnext hjob
        apply hsettling.of_preserves hsame (hlive _) hp
        rintro state rfl
        rw [SealsWhole, hlane] at hfine
        have hnone := hfine hs row (by
          rw [hr]
          apply hrow)
        cases hnone.symm.trans htotal
      · exact .inl (hsettling.ends hnext)
  intro r row' n hrow' htotal
  by_cases hfinalizing : ∃ drain good, x.lane = .finalizing drain good
      ∧ drain.spool.resultSetId = r
  · obtain ⟨drain, good, hlane, rfl⟩ := hfinalizing
    rcases outside_of_finalizing hlane hnext with hout | ⟨raises, now, rfl⟩
    · have hjob : x.lane.job = some (drain.statementId, drain.spool) := by
        rw [hlane]
        rfl
      apply hkept _ row' n (hp.total _ (.inl (outside_keeps hout hx hfresh hnext hjob).1)) hrow' htotal
    · cases raises with
      | true =>
          apply hkept _ row' n _ hrow' htotal
          rw [ResultsConsole.next, finalize.eq_def, hlane] at hnext
          obtain rfl := Option.some.inj hnext
          apply KeepsTotals.refl
      | false =>
          right
          apply finalize_settling hx hlane hnext hfine hrow' htotal
  · apply hkept r row' n (hp.total r (.inr ?_)) hrow' htotal
    intro drain good hlane hr
    apply hfinalizing ⟨drain, good, hlane, hr⟩

/-- In every run in which no result set is sealed with a total after an exception, after the session
was lost or after the spool was deleted, every total is honest. -/
theorem reachable_totalsHonest {config : ResultsConfig Row} {x : ResultsConsole Row}
    (h : ((resultsSystem config).restrict SealsWhole).Reachable x) :
  x.TotalsHonest
  := by
  have htotalled : x.Sound ∧ x.Totalled := by
    apply h.invariant
    · rintro x rfl
      refine ⟨initial_sound, ?_⟩
      intro r row n hrow
      cases hrow
    · rintro x action x' ⟨hx, ht⟩ ⟨hstep, hfine⟩
      exact ⟨step_sound hx hstep, step_totalled hx ht hstep hfine⟩
  intro r row n hrow htotal hended
  rcases htotalled.2 r row n hrow htotal with hsettled | ⟨drain, -, -, -, hlive, -⟩
  · apply hsettled
  · apply (hended hlive).elim

end Ending

/-! ### A run that seals a part -/

instance (x : ResultsConsole Row) (r : Text) : Decidable (x.Deleted r) :=
  inferInstanceAs (Decidable (_ ∨ _))

instance (x : ResultsConsole Row) : (lane : LanePoint Row) → Decidable (lane.Whole x)
  | .finalizing _ _ => inferInstanceAs (Decidable (_ → _ → _))
  | .waiting => inferInstanceAs (Decidable True)
  | .dequeued _ => inferInstanceAs (Decidable True)
  | .starting _ => inferInstanceAs (Decidable True)
  | .executing _ _ => inferInstanceAs (Decidable True)
  | .draining _ => inferInstanceAs (Decidable True)
  | .appending _ _ => inferInstanceAs (Decidable True)
  | .publishing _ _ => inferInstanceAs (Decidable True)
  | .marking _ _ => inferInstanceAs (Decidable True)
  | .ending _ _ => inferInstanceAs (Decidable True)

/-- A run without a lost session, in which every result is whole when it is sealed. -/
def wholeRunOf (config : ResultsConfig Row) (actions : List (Action Row)) :
    Option (ResultsConsole Row) :=
  actions.foldlM (fun x action =>
    match action with
    | .lose _ _ => none
    | _ => if action.Fresh x ∧ x.lane.Whole x then x.next config action else none) {}

theorem reachable_of_wholeRunOf {config : ResultsConfig Row} {actions : List (Action Row)}
    {x : ResultsConsole Row} (h : wholeRunOf config actions = some x) :
  ((resultsSystem config).restrict SealsWhole).Reachable x
  := by
  apply TransitionSystem.Reachable.later (.initial rfl)
  apply TransitionSystem.later_of_foldlM _ h
  intro x action x' hstep
  have hwhole : action.Fresh x → x.lane.Whole x → (∀ s state, action ≠ .lose s state) →
      SealsWhole x action := by
    intro _ hwhole hlose
    cases action with
    | finalize raises now =>
        cases raises with
        | true => trivial
        | false => apply hwhole
    | lose s state => apply (hlose s state rfl).elim
    | _ => trivial
  split at hstep
  · cases hstep
  · rename_i hlose
    split at hstep
    · rename_i hfine
      exact ⟨⟨hfine.1, hstep⟩, hwhole hfine.1 hfine.2 hlose⟩
    · cases hstep

theorem reachable_totalsHonest_lastRow :
  ∃ x, wholeRunOf defaultConfig (firstRow ++ lastRow) = some x ∧ x.TotalsHonest
    ∧ (x.catalog.get? "1".toList).map ResultSetRow.totalRows = some (some 2)
  := by
  obtain ⟨x, hx⟩ := Option.isSome_iff_exists.mp
    (by rfl : (wholeRunOf defaultConfig (firstRow ++ lastRow)).isSome = true)
  have htotal : (wholeRunOf defaultConfig (firstRow ++ lastRow)).map (fun x =>
      (x.catalog.get? "1".toList).map ResultSetRow.totalRows) = some (some (some 2)) := by
    rfl
  rw [hx] at htotal
  exact ⟨x, hx, reachable_totalsHonest (reachable_of_wholeRunOf hx), Option.some.inj htotal⟩

/-- The statement is cancelled when its first row has been flushed. -/
def cancelledRow : List (Action ℕ) :=
  [.stream .raises, .mark false, .finalize false 9, .ends .cancelled]

/-- A statement that was cancelled has a total. -/
theorem not_totalsHonest_cancelledRow :
  ∃ x, runOf defaultConfig (firstRow ++ cancelledRow) = some x
    ∧ (resultsSystem defaultConfig).Reachable x ∧ ¬ x.TotalsHonest
  := by
  obtain ⟨x, hx⟩ := Option.isSome_iff_exists.mp
    (by rfl : (runOf defaultConfig (firstRow ++ cancelledRow)).isSome = true)
  have hrow : (runOf defaultConfig (firstRow ++ cancelledRow)).map (fun x =>
      (x.catalog.get? "1".toList).map (fun row => (row.executionId, row.totalRows)))
      = some (some ("1".toList, some 1)) := by
    rfl
  have hstate : (runOf defaultConfig (firstRow ++ cancelledRow)).map (fun x =>
      (x.statements.get? "1".toList).map SpooledStatement.state) = some (some .cancelled) := by
    rfl
  rw [hx] at hrow hstate
  obtain ⟨row, hrow, heq⟩ := Option.map_eq_some_iff.mp (Option.some.inj hrow)
  obtain ⟨hexecution, htotal⟩ := Prod.mk.inj heq
  obtain ⟨statement, hs, hcancelled⟩ := Option.map_eq_some_iff.mp (Option.some.inj hstate)
  refine ⟨x, hx, reachable_of_runOf hx, ?_⟩
  intro hhonest
  have hended : ¬ x.Live row.executionId := by
    rintro ⟨statement', hs', hlive⟩
    rw [hexecution] at hs'
    obtain rfl := Option.some.inj (hs.symm.trans hs')
    rw [hcancelled] at hlive
    revert hlive
    decide
  obtain ⟨statement', hs', hsucceeded, -⟩ := hhonest _ row 1 hrow htotal hended
  rw [hexecution] at hs'
  obtain rfl := Option.some.inj (hs.symm.trans hs')
  cases hcancelled.symm.trans hsucceeded

end Results

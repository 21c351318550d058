import DataOpsStudio.Results.Lane

/-!
# What eviction leaves of the results

A submission closes the result sets that were updated longest ago and deletes their spools, whether
their statements have come to an end or not.  If no submission finds the result set of a live
statement among them, then the result sets of live statements stay open, and a statement that
succeeds leaves its rows in its spool.
-/

namespace Results

open Text Broker

variable {Row : Type}

/-! ### Steps that only let statements age -/

/-- No statement comes to life, no result set is closed, and no spool is deleted. -/
structure Ages (x x' : ResultsConsole Row) : Prop where
  history : x'.history = x.history
  submitting : x'.submitting = x.submitting ∨ x'.submitting = none
  live : ∀ s, x'.Live s → x.Live s
  row : ∀ r row', x'.catalog.get? r = some row' → ∃ row, x.catalog.get? r = some row
    ∧ row'.executionId = row.executionId ∧ (row'.state = .closed → row.state = .closed)

section Ages

variable {config : ResultsConfig Row} {x x' : ResultsConsole Row} {s : Text}
  {statement statement' : SpooledStatement Row}

/-- A statement may change its state if it does not come to life. -/
theorem live_set (hs : x.statements.get? s = some statement)
    (hstatements : x'.statements = x.statements.set s statement')
    (hlive : statement.state.IsTerminal → statement'.state.IsTerminal) {s' : Text}
    (h : x'.Live s') :
  x.Live s'
  := by
  obtain ⟨statement'', hs', hlive'⟩ := h
  rw [hstatements] at hs'
  obtain ⟨rfl, rfl⟩ | ⟨-, hs'⟩ := get?_set_cases hs'
  · exact ⟨statement, hs, fun hterminal => hlive' (hlive hterminal)⟩
  · exact ⟨statement'', hs', hlive'⟩

theorem Ages.of_set (hs : x.statements.get? s = some statement)
    (hstatements : x'.statements = x.statements.set s statement')
    (hlive : statement.state.IsTerminal → statement'.state.IsTerminal)
    (hhistory : x'.history = x.history) (hcatalog : x'.catalog = x.catalog)
    (hsubmitting : x'.submitting = x.submitting ∨ x'.submitting = none) :
  Ages x x'
  := by
  refine ⟨hhistory, hsubmitting, fun s' => live_set hs hstatements hlive, ?_⟩
  intro r row hr
  rw [hcatalog] at hr
  exact ⟨row, hr, rfl, id⟩

/-- The lane writes a spool, or nothing. -/
theorem Ages.of_same (hstatements : x'.statements = x.statements)
    (hhistory : x'.history = x.history) (hcatalog : x'.catalog = x.catalog)
    (hsubmitting : x'.submitting = x.submitting) :
  Ages x x'
  := by
  refine ⟨hhistory, .inl hsubmitting, ?_, ?_⟩
  · intro s' h
    rw [ResultsConsole.Live, hstatements] at h
    apply h
  · intro r row hr
    rw [hcatalog] at hr
    exact ⟨row, hr, rfl, id⟩

/-- The lane writes the row of its result set. -/
theorem Ages.of_writeCatalog (hx : x.Sound) {drain : Drain Row} {state : ResultSetState}
    {totalRows : Option ℕ} {now : ℤ} {lane : LanePoint Row}
    (hjob : x.lane.job = some (drain.statementId, drain.spool)) (hstate : state ≠ .closed) :
  Ages x { writeCatalog x drain state totalRows now with lane := lane }
  := by
  obtain ⟨⟨statement, hs, hspool, -⟩, -⟩ := hx.lane _ _ hjob
  have howner := (hx.statement _ _ hs).owner _ hspool
  rw [writeCatalog]
  split
  · exact .of_same rfl rfl rfl rfl
  rename_i row hrow
  rw [ResultsConsole.owner, hrow] at howner
  refine ⟨rfl, .inl rfl, fun _ => id, ?_⟩
  intro r row' hr
  by_cases hne : r = drain.spool.resultSetId
  · subst hne
    rw [Dict.get?_set_self] at hr
    obtain rfl := Option.some.inj hr
    exact ⟨row, hrow, (Option.some.inj howner).symm, fun hclosed => (hstate hclosed).elim⟩
  · rw [Dict.get?_set_of_ne _ _ (Ne.symm hne)] at hr
    exact ⟨row', hr, rfl, id⟩

/-- A live statement of a result set was live before. -/
theorem Ages.liveResultSet (h : Ages x x') {r : Text} (hr : x'.LiveResultSet r) :
  x.LiveResultSet r
  := by
  obtain ⟨row', hrow', hlive⟩ := hr
  obtain ⟨row, hrow, hexecution, -⟩ := h.row r row' hrow'
  refine ⟨row, hrow, ?_⟩
  rw [← hexecution]
  apply h.live _ hlive

/-- The action is not one of those that make or close result sets. -/
def Action.OnlyAges : Action Row → Prop
  | .submit _ _ _ => False
  | .register _ _ => False
  | .evict _ _ => False
  | .deleteSpool _ => False
  | _ => True

theorem ages_accept (h : accept x = some x') :
  Ages x x'
  := by
  unfold accept at h
  split at h
  · obtain ⟨statement, hs, rfl⟩ := Option.map_eq_some_iff.mp h
    exact .of_set hs rfl id rfl rfl (.inr rfl)
  · cases h

theorem ages_refuse (h : refuse x = some x') :
  Ages x x'
  := by
  have hfail : ∀ s, (x.statements.get? s).map (fun statement =>
      { x.setStatement s { statement with state := .failed } with submitting := none })
        = some x' → Ages x x' := by
    intro s h
    obtain ⟨statement, hs, rfl⟩ := Option.map_eq_some_iff.mp h
    have hfailed : ConsoleStatementState.failed.IsTerminal := by
      decide
    exact .of_set hs rfl (fun _ => hfailed) rfl rfl (.inr rfl)
  unfold refuse at h
  dsimp only at h
  split at h
  · apply hfail _ h
  · apply hfail _ h
  · cases h

theorem ages_cancel (h : cancel x s = some x') :
  Ages x x'
  := by
  rw [cancel] at h
  split at h
  · obtain ⟨statement, hs, h⟩ := Option.bind_eq_some_iff.mp h
    split at h
    · obtain rfl := Option.some.inj h
      have hcancelled : ConsoleStatementState.cancelled.IsTerminal := by
        decide
      exact .of_set hs rfl (fun _ => hcancelled) rfl rfl (.inl rfl)
    · cases h
  · cases h

theorem ages_lose {state : ConsoleStatementState} (h : lose x s state = some x') :
  Ages x x'
  := by
  rw [lose] at h
  split at h
  · rename_i hstate
    obtain ⟨statement, hs, h⟩ := Option.bind_eq_some_iff.mp h
    split at h
    · obtain rfl := Option.some.inj h
      have hterminal : state.IsTerminal := by
        obtain ⟨-, rfl | rfl⟩ := hstate
        all_goals decide
      exact .of_set hs rfl (fun _ => hterminal) rfl rfl (.inl rfl)
    · cases h
  · cases h

theorem ages_startStatement {refused : Bool} (h : startStatement x refused = some x') :
  Ages x x'
  := by
  unfold startStatement at h
  split at h
  case h_2 =>
    cases h
  obtain ⟨statement, hs, h⟩ := Option.bind_eq_some_iff.mp h
  split at h
  · obtain rfl := Option.some.inj h
    exact .of_same rfl rfl rfl rfl
  · rename_i hgo
    rw [not_or, not_not] at hgo
    obtain ⟨spool, -, rfl⟩ := Option.map_eq_some_iff.mp h
    refine .of_set hs rfl ?_ rfl rfl (.inl rfl)
    rw [hgo.1]
    have haccepted : ¬ ConsoleStatementState.accepted.IsTerminal := by
      decide
    exact fun h => (haccepted h).elim

theorem ages_executed {raises : Bool} (h : executed x raises = some x') :
  Ages x x'
  := by
  unfold executed at h
  split at h
  case h_2 =>
    cases h
  dsimp only at h
  split at h
  · obtain rfl := Option.some.inj h
    exact .of_same rfl rfl rfl rfl
  · obtain ⟨statement, hs, rfl⟩ := Option.map_eq_some_iff.mp h
    refine .of_set hs rfl ?_ rfl rfl (.inl rfl)
    split
    · rename_i hstate
      rw [hstate]
      have hexecuting : ¬ ConsoleStatementState.executing.IsTerminal := by
        decide
      exact fun h => (hexecuting h).elim
    · exact id

theorem ages_endStatement {state : ConsoleStatementState} (h : endStatement x state = some x') :
  Ages x x'
  := by
  unfold endStatement at h
  split at h
  case h_2 =>
    cases h
  split at h
  case isFalse =>
    cases h
  obtain ⟨statement, hs, rfl⟩ := Option.map_eq_some_iff.mp h
  refine .of_set hs rfl ?_ rfl rfl (.inl rfl)
  intro hterminal
  rw [if_pos hterminal]
  apply hterminal

theorem ages_of_next (hx : x.Sound) {action : Action Row} (haction : action.OnlyAges)
    (h : x.next config action = some x') :
  Ages x x'
  := by
  cases action with
  | submit s pageSize maxResultRows => apply haction.elim
  | register r now => apply haction.elim
  | evict listing now => apply haction.elim
  | deleteSpool left => apply haction.elim
  | accept => apply ages_accept h
  | refuse => apply ages_refuse h
  | cancel s => apply ages_cancel h
  | lose s state => apply ages_lose h
  | take =>
      rw [ResultsConsole.next, takeStatement] at h
      split at h
      · obtain rfl := Option.some.inj h
        exact .of_same rfl rfl rfl rfl
      · cases h
  | countOff =>
      rw [ResultsConsole.next, countOff] at h
      split at h
      · obtain rfl := Option.some.inj h
        exact .of_same rfl rfl rfl rfl
      · cases h
  | start refused => apply ages_startStatement h
  | captureColumns columns =>
      rw [ResultsConsole.next, captureColumns] at h
      split at h
      · split at h
        · obtain rfl := Option.some.inj h
          exact .of_same rfl rfl rfl rfl
        · cases h
      · cases h
  | executed raises => apply ages_executed h
  | stream event =>
      rw [ResultsConsole.next, readStream] at h
      split at h
      · obtain rfl := Option.some.inj h
        exact .of_same rfl rfl rfl rfl
      · cases h
  | append raises =>
      rw [ResultsConsole.next, appendBatch] at h
      split at h
      · split at h
        · obtain rfl := Option.some.inj h
          exact .of_same rfl rfl rfl rfl
        · obtain rfl := Option.some.inj h
          exact .of_same rfl rfl rfl rfl
      · cases h
  | publish raises now =>
      rw [ResultsConsole.next, publishStreaming] at h
      split at h
      case h_2 =>
        cases h
      rename_i drain final hlane
      split at h
      · obtain rfl := Option.some.inj h
        exact .of_same rfl rfl rfl rfl
      · obtain rfl := Option.some.inj h
        refine .of_writeCatalog hx ?_ nofun
        rw [hlane]
        rfl
  | mark raises =>
      rw [ResultsConsole.next, markTruncated] at h
      split at h
      · split at h
        · split at h
          · obtain rfl := Option.some.inj h
            exact .of_same rfl rfl rfl rfl
          · obtain rfl := Option.some.inj h
            exact .of_same rfl rfl rfl rfl
        · obtain rfl := Option.some.inj h
          exact .of_same rfl rfl rfl rfl
      · cases h
  | finalize raises now =>
      rw [ResultsConsole.next, finalize] at h
      split at h
      case h_2 =>
        cases h
      rename_i drain good hlane
      split at h
      · obtain rfl := Option.some.inj h
        exact .of_same rfl rfl rfl rfl
      · obtain rfl := Option.some.inj h
        refine .of_writeCatalog hx ?_ nofun
        rw [hlane]
        rfl
  | ends state => apply ages_endStatement h

end Ages

/-! ### Eviction that spares live statements -/

/-- A submission does not find the result set of a live statement among those that it closes. -/
def SparesLive (config : ResultsConfig Row) (x : ResultsConsole Row) : Action Row → Prop
  | .evict listing _ => ∀ r ∈ staleConsoleResultsets config listing, ¬ x.LiveResultSet r
  | _ => True

/-- No result set of a live statement has been closed or deleted, or will be by the submission that
holds the lock. -/
structure ResultsConsole.Spared (x : ResultsConsole Row) : Prop where
  closed : x.history.closedLive = []
  deleted : x.history.deletedLive = []
  live : ∀ r row, x.catalog.get? r = some row → x.Live row.executionId → row.state ≠ .closed
  stale : ∀ s spool stale, x.submitting = some (.evicted s spool stale) →
    ∀ r ∈ stale, ¬ x.LiveResultSet r

section Spared

variable {config : ResultsConfig Row} {x x' : ResultsConsole Row} {action : Action Row}

theorem Ages.spared (h : Ages x x') (hspared : x.Spared) :
  x'.Spared
  := by
  constructor
  · rw [h.history]
    apply hspared.closed
  · rw [h.history]
    apply hspared.deleted
  · intro r row' hr hlive hclosed
    obtain ⟨row, hrow, hexecution, hstate⟩ := h.row r row' hr
    rw [hexecution] at hlive
    apply hspared.live r row hrow (h.live _ hlive) (hstate hclosed)
  · intro s spool stale hpoint r hr hlive
    obtain hsame | hnone := h.submitting
    · apply hspared.stale s spool stale (hsame.symm.trans hpoint) r hr (h.liveResultSet hlive)
    · cases hnone.symm.trans hpoint

/-- A new statement has no result set yet. -/
theorem submit_spared {s : Text} {pageSize maxResultRows : ℕ} (hx : x.Sound) (hspared : x.Spared)
    (hfresh : x.statements.get? s = none)
    (h : submit config x s pageSize maxResultRows = some x') :
  x'.Spared
  := by
  rw [submit] at h
  split at h
  case isFalse =>
    cases h
  obtain rfl := Option.some.inj h
  refine ⟨hspared.closed, hspared.deleted, ?_, by simp⟩
  rintro r row hr ⟨statement, hs, hlive⟩
  obtain ⟨hsame, -⟩ | ⟨-, hs⟩ := get?_set_cases hs
  · have howner : x.owner r = some s := by
      rw [ResultsConsole.owner, show x.catalog.get? r = some row from hr, ← hsame]
      rfl
    have hcontains := hx.owned r s howner
    rw [Dict.contains, hfresh] at hcontains
    cases hcontains
  · apply hspared.live r row hr ⟨statement, hs, hlive⟩

theorem register_spared {r : Text} {now : ℤ} (hspared : x.Spared)
    (h : register x r now = some x') :
  x'.Spared
  := by
  unfold register at h
  split at h
  case h_2 =>
    cases h
  obtain rfl := Option.some.inj h
  refine ⟨hspared.closed, hspared.deleted, ?_, nofun⟩
  intro r' row hr' hlive
  by_cases hr : r' = r
  · subst hr
    rw [Dict.get?_set_self] at hr'
    obtain rfl := Option.some.inj hr'
    exact nofun
  · rw [Dict.get?_set_of_ne _ _ (Ne.symm hr)] at hr'
    apply hspared.live r' row hr' hlive

/-- A row is closed by the eviction, or it stays as it is. -/
theorem closeResultSet_get? {now : ℤ} {stale : List Text} {catalog : Dict Text ResultSetRow}
    {r : Text} {row : ResultSetRow}
    (h : (stale.foldl (closeResultSet now) catalog).get? r = some row) :
  r ∈ stale ∨ catalog.get? r = some row
  := by
  induction stale generalizing catalog with
  | nil => exact .inr h
  | cons r' stale ih =>
      rw [List.foldl_cons] at h
      obtain hr | hr := ih h
      · exact .inl (List.mem_cons_of_mem r' hr)
      by_cases hne : r = r'
      · exact .inl (hne ▸ List.mem_cons_self)
      · right
        rw [closeResultSet] at hr
        split at hr
        · apply hr
        · rw [Dict.get?_set_of_ne _ _ (Ne.symm hne)] at hr
          apply hr

/-- An eviction spares the live statements exactly if it adds none of them to the history. -/
theorem evict_history {listing : List Text} {now : ℤ}
    (h : evictConsoleResultsets config x listing now = some x') :
  x'.history.closedLive = x.history.closedLive
      ++ (staleConsoleResultsets config listing).filter (fun r => x.LiveResultSet r)
    ∧ x'.history.deletedLive = x.history.deletedLive
    ∧ x'.catalog = (staleConsoleResultsets config listing).foldl (closeResultSet now) x.catalog
  := by
  unfold evictConsoleResultsets at h
  split at h
  case h_2 =>
    cases h
  split at h
  case isFalse =>
    cases h
  obtain rfl := Option.some.inj h
  exact ⟨rfl, rfl, rfl⟩

theorem evict_spared {listing : List Text} {now : ℤ} (hspared : x.Spared)
    (hfine : ∀ r ∈ staleConsoleResultsets config listing, ¬ x.LiveResultSet r)
    (h : evictConsoleResultsets config x listing now = some x') :
  x'.Spared
  := by
  obtain ⟨hclosed, hdeleted, hcatalog⟩ := evict_history h
  obtain ⟨-, howner, hstatements, -, -, s, spool, hpoint, hpoint'⟩ := evict_spec h
  have hlive : ∀ r, x'.LiveResultSet r → x.LiveResultSet r := by
    rintro r ⟨row', hrow', hlive⟩
    have hr := howner r
    rw [ResultsConsole.owner, hrow'] at hr
    obtain ⟨row, hrow, hexecution⟩ := Option.map_eq_some_iff.mp hr.symm
    refine ⟨row, hrow, ?_⟩
    rw [hexecution]
    rw [ResultsConsole.Live, hstatements] at hlive
    apply hlive
  constructor
  · rw [hclosed, hspared.closed, List.nil_append, List.filter_eq_nil_iff]
    intro r hr
    rw [decide_eq_true_iff]
    apply hfine r hr
  · rw [hdeleted]
    apply hspared.deleted
  · intro r row' hr hlive'
    obtain ⟨row, hrow, hlive''⟩ := hlive r ⟨row', hr, hlive'⟩
    rw [hcatalog] at hr
    obtain hstale | hsame := closeResultSet_get? hr
    · apply (hfine r hstale ⟨row, hrow, hlive''⟩).elim
    · obtain rfl := Option.some.inj (hrow.symm.trans hsame)
      apply hspared.live r row hrow hlive''
  · intro s' spool' stale hsome r hr hlive'
    cases hpoint'.symm.trans hsome
    apply hfine r hr (hlive r hlive')

theorem deleteSpool_spared {left : Option (SpoolDir Row)} (hspared : x.Spared)
    (h : deleteSpool x left = some x') :
  x'.Spared
  := by
  unfold deleteSpool at h
  split at h
  case h_2 =>
    cases h
  rename_i s spool r stale hpoint
  have hnot := hspared.stale s spool (r :: stale) hpoint
  rw [if_neg (hnot r List.mem_cons_self)] at h
  obtain rfl := Option.some.inj h
  refine ⟨hspared.closed, hspared.deleted, hspared.live, ?_⟩
  intro s' spool' stale' hsome r' hr'
  cases hsome
  apply hnot r' (List.mem_cons_of_mem r hr')

theorem step_spared (hx : x.Sound) (hspared : x.Spared)
    (h : (resultsSystem config).step x action x') (hfine : SparesLive config x action) :
  x'.Spared
  := by
  obtain ⟨hfresh, h⟩ := h
  cases action with
  | submit s pageSize maxResultRows => apply submit_spared hx hspared hfresh h
  | register r now => apply register_spared hspared h
  | evict listing now => apply evict_spared hspared hfine h
  | deleteSpool left => apply deleteSpool_spared hspared h
  | _ =>
      refine (ages_of_next hx ?_ h).spared hspared
      trivial

theorem reachable_spared (h : ((resultsSystem config).restrict (SparesLive config)).Reachable x) :
  x.Sound ∧ x.Spared
  := by
  apply h.invariant
  · rintro x rfl
    exact ⟨initial_sound, rfl, rfl, nofun, nofun⟩
  · rintro x action x' ⟨hx, hspared⟩ ⟨hstep, hfine⟩
    exact ⟨step_sound hx hstep, step_spared hx hspared hstep hfine⟩

/-- An eviction that does not spare live statements shows in the history for ever. -/
theorem closedLive_of_step (hx : x.Sound) (h : (resultsSystem config).step x action x')
    (hnone : x'.history.closedLive = []) :
  x.history.closedLive = [] ∧ SparesLive config x action
  := by
  obtain ⟨hfresh, h⟩ := h
  cases action with
  | submit s pageSize maxResultRows =>
      rw [ResultsConsole.next, submit] at h
      split at h
      · obtain rfl := Option.some.inj h
        exact ⟨hnone, trivial⟩
      · cases h
  | register r now =>
      rw [ResultsConsole.next, register] at h
      split at h
      · obtain rfl := Option.some.inj h
        exact ⟨hnone, trivial⟩
      · cases h
  | evict listing now =>
      rw [(evict_history h).1, List.append_eq_nil_iff] at hnone
      refine ⟨hnone.1, ?_⟩
      intro r hr hlive
      apply List.filter_eq_nil_iff.mp hnone.2 r hr
      apply decide_eq_true hlive
  | deleteSpool left =>
      rw [ResultsConsole.next, deleteSpool] at h
      split at h
      · obtain rfl := Option.some.inj h
        refine ⟨?_, trivial⟩
        dsimp only at hnone
        split at hnone
        · apply hnone
        · apply hnone
      · cases h
  | _ =>
      refine ⟨?_, trivial⟩
      rw [← (ages_of_next hx ?_ h).history]
      · apply hnone
      · trivial

/-- A run has spared the live statements if no result set of one was closed. -/
theorem restricted_of_closedLive (h : (resultsSystem config).Reachable x)
    (hnone : x.history.closedLive = []) :
  ((resultsSystem config).restrict (SparesLive config)).Reachable x
  := by
  induction h with
  | initial h => exact .initial h
  | step hx hstep ih =>
      obtain ⟨hbefore, hfine⟩ := closedLive_of_step (reachable_sound hx) hstep hnone
      exact .step (ih hbefore) ⟨hstep, hfine⟩

end Spared

/-! ### What the console promises -/

/-- No result set of a live statement has ever been closed, nor its spool deleted. -/
def ResultsConsole.Untouched (x : ResultsConsole Row) : Prop :=
  x.history.closedLive = [] ∧ x.history.deletedLive = []
    ∧ ∀ r row, x.catalog.get? r = some row → x.Live row.executionId → row.state ≠ .closed

/-- The spool of a statement that has succeeded without truncation holds the rows that were
streamed, in order, unless it has been deleted since. -/
def ResultsConsole.Complete (x : ResultsConsole Row) : Prop :=
  ∀ s statement spool, x.statements.get? s = some statement → statement.state = .succeeded →
    statement.spool = some spool → spool.resultSetId ∉ x.history.deletedLater →
    (x.dir spool.resultSetId).readManifest.truncated = false →
    (∀ offset limit, fetchRange (x.dir spool.resultSetId) offset limit
        = (statement.streamed.drop offset).take limit)
      ∧ (x.dir spool.resultSetId).readManifest.loadedRows = statement.streamed.length

instance (x : ResultsConsole Row) : (action : Action Row) → Decidable (action.Fresh x)
  | .submit s _ _ => inferInstanceAs (Decidable (x.statements.get? s = none))
  | .register r _ => inferInstanceAs (Decidable (x.catalog.get? r = none))
  | .evict _ _ => inferInstanceAs (Decidable True)
  | .deleteSpool _ => inferInstanceAs (Decidable True)
  | .accept => inferInstanceAs (Decidable True)
  | .refuse => inferInstanceAs (Decidable True)
  | .cancel _ => inferInstanceAs (Decidable True)
  | .lose _ _ => inferInstanceAs (Decidable True)
  | .take => inferInstanceAs (Decidable True)
  | .countOff => inferInstanceAs (Decidable True)
  | .start _ => inferInstanceAs (Decidable True)
  | .captureColumns _ => inferInstanceAs (Decidable True)
  | .executed _ => inferInstanceAs (Decidable True)
  | .stream _ => inferInstanceAs (Decidable True)
  | .append _ => inferInstanceAs (Decidable True)
  | .publish _ _ => inferInstanceAs (Decidable True)
  | .mark _ => inferInstanceAs (Decidable True)
  | .finalize _ _ => inferInstanceAs (Decidable True)
  | .ends _ => inferInstanceAs (Decidable True)

/-- A run of a console from the beginning. -/
def runOf (config : ResultsConfig Row) (actions : List (Action Row)) :
    Option (ResultsConsole Row) :=
  actions.foldlM (fun x action => if action.Fresh x then x.next config action else none) {}

theorem reachable_of_runOf {config : ResultsConfig Row} {actions : List (Action Row)}
    {x : ResultsConsole Row} (h : runOf config actions = some x) :
  (resultsSystem config).Reachable x
  := by
  apply TransitionSystem.Reachable.later (.initial rfl)
  apply TransitionSystem.later_of_foldlM _ h
  intro x action x' hstep
  split at hstep
  · rename_i hfresh
    exact ⟨hfresh, hstep⟩
  · cases hstep

/-- A console with the limits it has by default; rows are numbers. -/
def defaultConfig : ResultsConfig ℕ where
  mailboxSize := 32
  limits := { maxRows := 1000000, maxBytes := 536870912, partBytes := List.length }

/-- A statement is submitted, and gets a result set of the same name. -/
def submission (name : Text) (listing : List Text) (now : ℤ) : List (Action ℕ) :=
  [.submit name 1 10, .register name now, .evict listing now]

/-- A statement is submitted and begins; its first row is flushed. -/
def firstRow : List (Action ℕ) :=
  submission "1".toList ["1".toList] 0 ++
    [.accept, .take, .countOff, .start false, .executed false, .stream (.row 1), .append false,
     .publish false 1]

/-- The stream yields another row and is exhausted. -/
def lastRow : List (Action ℕ) :=
  [.stream (.row 2), .append false, .publish false 9, .stream .exhausted, .mark false,
   .finalize false 9, .ends .failed]

/-- Three more statements are submitted while the first is streaming. -/
def threeMore : List (Action ℕ) :=
  submission "2".toList ["2".toList, "1".toList] 2 ++ [.accept] ++
    submission "3".toList ["3".toList, "2".toList, "1".toList] 3 ++ [.accept] ++
    submission "4".toList ["4".toList, "3".toList, "2".toList, "1".toList] 4 ++
    [.deleteSpool none, .accept]

end Results

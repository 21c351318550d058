import DataOpsStudio.Results.Invariant

/-!
# The lane of a console

The steps of the lane keep the invariant of the console.  A row that is read goes to the batch, and
the batch to the spool; after an exception the lane does not know what is in the spool, but then the
statement does not succeed.
-/

namespace Results

open Text Broker

variable {Row : Type}

/-! ### Steps that end a statement from outside -/

section Outside

variable {x x' : ResultsConsole Row} {s : Text} {statement statement' : SpooledStatement Row}

/-- A statement that is being executed may change its state, but not to succeed. -/
theorem current_set (hs : x.statements.get? s = some statement)
    (hstatements : x'.statements = x.statements.set s statement')
    (hspool : statement'.spool = statement.spool) (haccepted : statement'.state ≠ .accepted)
    (hsucceeded : statement'.state ≠ .succeeded) {s' : Text} {spool : StatementSpool}
    (h : x.Current s' spool) :
  x'.Current s' spool
  := by
  by_cases hne : s' = s
  · subst hne
    obtain ⟨statement'', hs'', hspool'', -⟩ := h
    obtain rfl := Option.some.inj (hs.symm.trans hs'')
    refine ⟨statement', ?_, hspool.trans hspool'', haccepted, hsucceeded⟩
    rw [hstatements, Dict.get?_set_self]
  · apply current_set_of_ne h hne hstatements

theorem cancel_sound (hx : x.Sound) (h : cancel x s = some x') :
  x'.Sound
  := by
  rw [cancel] at h
  split at h
  case isFalse =>
    cases h
  rename_i hfree
  obtain ⟨statement, hs, h⟩ := Option.bind_eq_some_iff.mp h
  split at h
  case isFalse =>
    cases h
  rename_i hstate
  obtain rfl := Option.some.inj h
  have hsame : SameResults x (x.setStatement s { statement with state := .cancelled }) :=
    ⟨fun _ _ h => h, fun _ => rfl, fun _ => Iff.rfl⟩
  refine hsame.sound_set hx (fun _ => rfl) rfl ⟨(hx.statement s statement hs).owner, nofun, nofun⟩ ?_ ?_
  · intro point hpoint
    cases hfree.symm.trans hpoint
  · refine hx.lane.of_awaits hsame ?_ rfl rfl
    rintro spool ⟨statement', hs', -, haccepted, -⟩
    obtain rfl := Option.some.inj (hs.symm.trans hs')
    apply haccepted hstate

theorem lose_sound {state : ConsoleStatementState} (hx : x.Sound) (h : lose x s state = some x') :
  x'.Sound
  := by
  rw [lose] at h
  split at h
  case isFalse =>
    cases h
  rename_i hfree
  obtain ⟨statement, hs, h⟩ := Option.bind_eq_some_iff.mp h
  split at h
  case isFalse =>
    cases h
  obtain rfl := Option.some.inj h
  have hsame : SameResults x (x.setStatement s { statement with state := state }) :=
    ⟨fun _ _ h => h, fun _ => rfl, fun _ => Iff.rfl⟩
  have hstate : state ≠ .accepted ∧ state ≠ .succeeded := by
    obtain ⟨-, rfl | rfl⟩ := hfree
    all_goals decide
  refine hsame.sound_set hx (fun _ => rfl) rfl ⟨(hx.statement s statement hs).owner,
    fun _ _ h => (hstate.1 h).elim, fun _ _ h => (hstate.2 h).elim⟩ ?_ ?_
  · intro point hpoint
    cases hfree.1.symm.trans hpoint
  · apply hsame.lane hx.lane rfl (fun _ h => h)
    intro s' spool _ hcurrent
    refine current_set hs (?_ : _ = x.statements.set s { statement with state := state }) rfl
      hstate.1 hstate.2 hcurrent
    rfl

end Outside

/-! ### Steps of the lane -/

section Lane

variable {x x' : ResultsConsole Row}

/-- A lane that executes no statement knows nothing. -/
theorem LanePoint.sound_of_job {lane : LanePoint Row} (h : lane.job = none) :
  lane.Sound x
  := by
  intro s spool hjob
  cases h.symm.trans hjob

/-- The lane goes on and nothing else happens. -/
theorem ResultsConsole.Sound.setLane (hx : x.Sound) (hstatements : x'.statements = x.statements)
    (hsubmitting : x'.submitting = x.submitting) (howner : ∀ r, x'.owner r = x.owner r)
    (hspools : x'.spools = x.spools) (hdeleted : ∀ r, x'.Deleted r ↔ x.Deleted r)
    (hjob : x'.lane.job = x.lane.job ∨ x'.lane.job = none)
    (htells : ∀ dir : SpoolDir Row, x.lane.Tells dir → x'.lane.Tells dir) :
  x'.Sound
  := by
  have hsame : SameResults x x' := .of_owner howner hspools hdeleted
  apply hsame.sound_of_lane hx howner hstatements hsubmitting
  obtain hjob | hnone := hjob
  · apply hsame.lane hx.lane hjob htells
    intro s spool _ hcurrent
    rw [ResultsConsole.Current, hstatements]
    apply hcurrent
  · apply LanePoint.sound_of_job hnone

theorem takeStatement_sound (hx : x.Sound) (h : takeStatement x = some x') :
  x'.Sound
  := by
  unfold takeStatement at h
  split at h
  · obtain rfl := Option.some.inj h
    refine hx.setLane rfl rfl (fun _ => rfl) rfl (fun _ => Iff.rfl) (.inr rfl) ?_
    intro dir _
    trivial
  · cases h

theorem countOff_sound (hx : x.Sound) (h : countOff x = some x') :
  x'.Sound
  := by
  unfold countOff at h
  split at h
  · obtain rfl := Option.some.inj h
    refine hx.setLane rfl rfl (fun _ => rfl) rfl (fun _ => Iff.rfl) (.inr rfl) ?_
    intro dir _
    trivial
  · cases h

theorem startStatement_sound {refused : Bool} (hx : x.Sound)
    (h : startStatement x refused = some x') :
  x'.Sound
  := by
  unfold startStatement at h
  split at h
  case h_2 =>
    cases h
  rename_i s hlane hfree
  obtain ⟨statement, hs, h⟩ := Option.bind_eq_some_iff.mp h
  split at h
  · obtain rfl := Option.some.inj h
    refine hx.setLane rfl rfl (fun _ => rfl) rfl (fun _ => Iff.rfl) (.inr rfl) ?_
    intro dir _
    trivial
  rename_i hgo
  rw [not_or, not_not] at hgo
  obtain ⟨spool, hspool, rfl⟩ := Option.map_eq_some_iff.mp h
  have hsound := hx.statement s statement hs
  have hsame : SameResults x { x.setStatement s { statement with state := .executing } with
      lane := .executing s spool } := ⟨fun _ _ h => h, fun _ => rfl, fun _ => Iff.rfl⟩
  refine hsame.sound_set hx (fun _ => rfl) rfl ⟨hsound.owner, nofun, nofun⟩ ?_ ?_
  · intro point hpoint
    cases hfree.symm.trans hpoint
  · intro s' spool' hjob
    obtain ⟨rfl, rfl⟩ := Prod.mk.inj (Option.some.inj hjob)
    refine ⟨⟨_, Dict.get?_set_self _ _ _, hspool, nofun, nofun⟩, fun hdeleted => ?_⟩
    rw [hsame.dir, hsound.accepted spool hspool hgo.1 hdeleted]
    rfl

theorem captureColumns_sound {columns : List Text} (hx : x.Sound)
    (h : captureColumns x columns = some x') :
  x'.Sound
  := by
  unfold captureColumns at h
  split at h
  case h_2 =>
    cases h
  rename_i s spool hlane
  split at h
  case h_2 =>
    cases h
  rename_i dir hdir
  obtain rfl := Option.some.inj h
  have hjob : x.lane.job = some (s, spool) := by
    rw [hlane]
    rfl
  apply hx.setDir hjob rfl
  intro hdeleted
  have htells := (hx.lane s spool hjob).2 hdeleted
  obtain ⟨hsound, hrows, -⟩ := setSpoolColumns_spec (hx.spool _ hdeleted) hdir
  rw [hlane] at htells ⊢
  exact ⟨hsound, hrows.trans htells⟩

theorem executed_sound {raises : Bool} (hx : x.Sound) (h : executed x raises = some x') :
  x'.Sound
  := by
  unfold executed at h
  split at h
  case h_2 =>
    cases h
  rename_i s spool hlane hfree
  have hjob : x.lane.job = some (s, spool) := by
    rw [hlane]
    rfl
  obtain ⟨hcurrent, htells⟩ := hx.lane s spool hjob
  dsimp only at h
  split at h
  · obtain rfl := Option.some.inj h
    refine hx.setLane rfl rfl (fun _ => rfl) rfl (fun _ => Iff.rfl) (.inl hjob.symm) ?_
    intro dir _
    exact nofun
  obtain ⟨statement, hs, rfl⟩ := Option.map_eq_some_iff.mp h
  obtain ⟨statement', hs', hspool, haccepted, hsucceeded⟩ := id hcurrent
  obtain rfl := Option.some.inj (hs.symm.trans hs')
  generalize hset : (if statement.state = .executing then { statement with state := .streaming }
    else statement : SpooledStatement Row) = next
  have hnext : next.spool = statement.spool ∧ next.state ≠ .accepted ∧ next.state ≠ .succeeded := by
    rw [← hset]
    split
    · exact ⟨rfl, nofun, nofun⟩
    · exact ⟨rfl, haccepted, hsucceeded⟩
  have hsame : SameResults x { x.setStatement s next with
      lane := .draining { statementId := s, spool := spool } } :=
    ⟨fun _ _ h => h, fun _ => rfl, fun _ => Iff.rfl⟩
  refine hsame.sound_set hx (fun _ => rfl) rfl ⟨?_, ?_, ?_⟩ ?_ ?_
  · intro spool' hspool'
    apply (hx.statement s statement hs).owner spool' (hnext.1.symm.trans hspool')
  · intro _ _ hstate
    apply (hnext.2.1 hstate).elim
  · intro _ _ hstate
    apply (hnext.2.2 hstate).elim
  · intro point hpoint
    cases hfree.symm.trans hpoint
  · refine hsame.lane hx.lane hjob.symm ?_ ?_
    · intro dir htold
      rw [hlane] at htold
      intro _ _
      rw [show dir.rows = [] from htold]
      rfl
    · intro s' spool' _ hcurrent'
      apply current_set hs rfl hnext.1 hnext.2.1 hnext.2.2 hcurrent'

/-! ### Steps that read and write rows -/

theorem job_enterFinally (drain : Drain Row) (good : Bool) :
  (enterFinally drain good).job = some (drain.statementId, drain.spool)
  := by
  rw [enterFinally]
  split
  · rfl
  · rfl

/-- In the `finally` clause the lane knows what it knew in the loop. -/
theorem tells_enterFinally {drain : Drain Row} {good : Bool} {dir : SpoolDir Row}
    (h : good = true → drain.Accounts drain.batch dir) :
  (enterFinally drain good).Tells dir
  := by
  rw [enterFinally]
  split
  · rename_i hempty
    intro hgood
    rw [← List.isEmpty_iff.mp hempty]
    apply h hgood
  · intro hfinal
    apply h
    cases good with
    | true => rfl
    | false => exact (hfinal rfl).elim

theorem job_readRow (config : ResultsConfig Row) (drain : Drain Row) (row : Row) :
  (readRow config drain row).job = some (drain.statementId, drain.spool)
  := by
  rw [readRow]
  dsimp only
  split
  · apply job_enterFinally
  split
  · rfl
  · rfl

/-- A row that is read is in the batch, unless the result is cut off. -/
theorem tells_readRow (config : ResultsConfig Row) {drain : Drain Row} {row : Row}
    {dir : SpoolDir Row} (h : drain.Accounts drain.batch dir) :
  (readRow config drain row).Tells dir
  := by
  have hrow : ∀ n m, Drain.Accounts
      { drain with
        rowsRead := n, rowsReturned := m, batch := drain.batch ++ [row]
        streamed := drain.streamed ++ [row] } (drain.batch ++ [row]) dir := by
    intro n m hlimit htruncated
    rw [← List.append_assoc, h hlimit htruncated]
  rw [readRow]
  dsimp only
  split
  · apply tells_enterFinally
    intro _
    exact nofun
  split
  · intro _
    apply hrow
  · apply hrow

theorem readStream_sound {config : ResultsConfig Row} {event : StreamEvent Row} (hx : x.Sound)
    (h : readStream config x event = some x') :
  x'.Sound
  := by
  unfold readStream at h
  split at h
  case h_2 =>
    cases h
  rename_i drain hlane
  obtain rfl := Option.some.inj h
  refine hx.setLane rfl rfl (fun _ => rfl) rfl (fun _ => Iff.rfl) (.inl ?_) ?_
  · rw [hlane]
    cases event with
    | row row => apply job_readRow
    | exhausted => apply job_enterFinally
    | raises => apply job_enterFinally
  · intro dir htells
    rw [hlane] at htells
    cases event with
    | row row => apply tells_readRow config htells
    | exhausted => exact tells_enterFinally (fun _ => htells)
    | raises => exact tells_enterFinally nofun

theorem job_flushRaised (drain : Drain Row) (final : Option Bool) :
  (flushRaised drain final).job = some (drain.statementId, drain.spool)
  := by
  cases final with
  | none => apply job_enterFinally
  | some good => rfl

/-- After an exception nothing is known of the spool. -/
theorem tells_flushRaised (drain : Drain Row) (final : Option Bool) (dir : SpoolDir Row) :
  (flushRaised drain final).Tells dir
  := by
  cases final with
  | none => exact tells_enterFinally nofun
  | some good => exact nofun

theorem appendBatch_sound {config : ResultsConfig Row} {raises : Bool} (hx : x.Sound)
    (h : appendBatch config x raises = some x') :
  x'.Sound
  := by
  unfold appendBatch at h
  split at h
  case h_2 =>
    cases h
  rename_i drain final hlane
  have hjob : x.lane.job = some (drain.statementId, drain.spool) := by
    rw [hlane]
    rfl
  split at h
  · rename_i dir hdir
    obtain rfl := Option.some.inj h
    refine hx.setDir hjob hjob.symm ?_
    intro hdeleted
    have htells := (hx.lane _ _ hjob).2 hdeleted
    obtain ⟨hsound, -, ⟨written, -, hrows, hall⟩, hopen⟩ :=
      appendSpool_spec config.limits (hx.spool _ hdeleted) hdir
    refine ⟨hsound, ?_⟩
    intro hfinal hlimit htruncated
    rw [hlane] at htells
    rw [List.append_nil, hrows, hall htruncated]
    apply htells hfinal hlimit (hopen htruncated)
  · obtain rfl := Option.some.inj h
    refine hx.setLane rfl rfl (fun _ => rfl) rfl (fun _ => Iff.rfl) (.inl ?_) ?_
    · rw [hjob]
      apply job_flushRaised
    · intro dir _
      apply tells_flushRaised

/-- The row of a result set stays with its statement. -/
theorem writeCatalog_owner {drain : Drain Row} (state : ResultSetState) (totalRows : Option ℕ)
    (now : ℤ) (h : x.owner drain.spool.resultSetId = some drain.statementId) (r : Text) :
  (writeCatalog x drain state totalRows now).owner r = x.owner r
  := by
  rw [writeCatalog]
  split
  · rfl
  · by_cases hr : r = drain.spool.resultSetId
    · subst hr
      rw [ResultsConsole.owner, Dict.get?_set_self]
      exact h.symm
    · rw [ResultsConsole.owner, Dict.get?_set_of_ne _ _ (Ne.symm hr)]
      rfl

/-- To write the catalog changes nothing else. -/
theorem writeCatalog_eq (x : ResultsConsole Row) (drain : Drain Row) (state : ResultSetState)
    (totalRows : Option ℕ) (now : ℤ) :
  ∃ catalog, writeCatalog x drain state totalRows now = { x with catalog := catalog }
  := by
  rw [writeCatalog]
  split
  · exact ⟨x.catalog, rfl⟩
  · exact ⟨_, rfl⟩

/-- The lane goes on when it has written the catalog. -/
theorem ResultsConsole.Sound.writeCatalog (hx : x.Sound) {drain : Drain Row}
    {state : ResultSetState} {totalRows : Option ℕ} {now : ℤ} {lane : LanePoint Row}
    (hjob : x.lane.job = some (drain.statementId, drain.spool)) (hlane : lane.job = x.lane.job)
    (htells : ∀ dir : SpoolDir Row, x.lane.Tells dir → lane.Tells dir) :
  ({ writeCatalog x drain state totalRows now with lane := lane }).Sound
  := by
  obtain ⟨⟨statement, hs, hspool, -⟩, -⟩ := hx.lane _ _ hjob
  have howner := writeCatalog_owner state totalRows now ((hx.statement _ _ hs).owner _ hspool)
  obtain ⟨catalog, hcatalog⟩ := writeCatalog_eq x drain state totalRows now
  rw [hcatalog] at howner ⊢
  exact hx.setLane rfl rfl howner rfl (fun _ => Iff.rfl) (.inl hlane) htells

theorem publishStreaming_sound {raises : Bool} {now : ℤ} (hx : x.Sound)
    (h : publishStreaming x raises now = some x') :
  x'.Sound
  := by
  unfold publishStreaming at h
  split at h
  case h_2 =>
    cases h
  rename_i drain final hlane
  have hjob : x.lane.job = some (drain.statementId, drain.spool) := by
    rw [hlane]
    rfl
  split at h
  · obtain rfl := Option.some.inj h
    refine hx.setLane rfl rfl (fun _ => rfl) rfl (fun _ => Iff.rfl) (.inl ?_) ?_
    · rw [hjob]
      apply job_flushRaised
    · intro dir _
      apply tells_flushRaised
  obtain rfl := Option.some.inj h
  apply hx.writeCatalog hjob
  · rw [hjob]
    cases final with
    | none => rfl
    | some good => rfl
  · intro dir htells
    rw [hlane] at htells
    cases final with
    | none => exact htells nofun
    | some good =>
        rintro rfl
        exact htells nofun

theorem markTruncated_sound {raises : Bool} (hx : x.Sound) (h : markTruncated x raises = some x') :
  x'.Sound
  := by
  unfold markTruncated at h
  split at h
  case h_2 =>
    cases h
  rename_i drain good hlane
  have hjob : x.lane.job = some (drain.statementId, drain.spool) := by
    rw [hlane]
    rfl
  split at h
  · split at h
    · rename_i dir hdir
      obtain rfl := Option.some.inj h
      refine hx.setDir hjob hjob.symm ?_
      intro hdeleted
      obtain ⟨hsound, -, htruncated, -⟩ := markSpoolTruncated_spec (hx.spool _ hdeleted) hdir
      refine ⟨hsound, ?_⟩
      intro _ hfalse
      cases htruncated.symm.trans hfalse
    · obtain rfl := Option.some.inj h
      exact hx.setLane rfl rfl (fun _ => rfl) rfl (fun _ => Iff.rfl) (.inl hjob.symm)
        (fun _ _ => nofun)
  · rename_i hlimit
    obtain rfl := Option.some.inj h
    refine hx.setLane rfl rfl (fun _ => rfl) rfl (fun _ => Iff.rfl) (.inl hjob.symm) ?_
    intro dir htells hgood htruncated
    rw [hlane] at htells
    have hrows := htells hgood ((Bool.not_eq_true _).mp hlimit) htruncated
    rw [List.append_nil] at hrows
    apply hrows

theorem finalize_sound {raises : Bool} {now : ℤ} (hx : x.Sound)
    (h : finalize x raises now = some x') :
  x'.Sound
  := by
  unfold finalize at h
  split at h
  case h_2 =>
    cases h
  rename_i drain good hlane
  have hjob : x.lane.job = some (drain.statementId, drain.spool) := by
    rw [hlane]
    rfl
  have htells : ∀ dir : SpoolDir Row, x.lane.Tells dir → (LanePoint.ending drain good).Tells dir := by
    rw [hlane]
    exact fun _ h => h
  split at h
  · obtain rfl := Option.some.inj h
    exact hx.setLane rfl rfl (fun _ => rfl) rfl (fun _ => Iff.rfl) (.inl hjob.symm) htells
  · obtain rfl := Option.some.inj h
    exact hx.writeCatalog hjob hjob.symm htells

/-- The states in which a statement may end that has not succeeded. -/
theorem ne_of_mem_raisedStates {state : ConsoleStatementState} (h : state ∈ raisedStates) :
  state ≠ .accepted ∧ state ≠ .succeeded
  := by
  revert h
  cases state <;> decide

theorem endStatement_sound {state : ConsoleStatementState} (hx : x.Sound)
    (h : endStatement x state = some x') :
  x'.Sound
  := by
  unfold endStatement at h
  split at h
  case h_2 =>
    cases h
  rename_i drain good hlane hfree
  split at h
  case isFalse =>
    cases h
  rename_i hstate
  obtain ⟨statement, hs, rfl⟩ := Option.map_eq_some_iff.mp h
  have hjob : x.lane.job = some (drain.statementId, drain.spool) := by
    rw [hlane]
    rfl
  obtain ⟨⟨statement', hs', hspool, haccepted, hsucceeded⟩, htells⟩ := hx.lane _ _ hjob
  obtain rfl := Option.some.inj (hs.symm.trans hs')
  obtain ⟨haccepted', hsucceeded'⟩ := ne_of_mem_raisedStates hstate
  generalize hset : (if statement.state.IsTerminal then statement.state
    else if good then .succeeded else state) = next
  have hsame : SameResults x
      { x.setStatement drain.statementId { statement with
          state := next, streamed := drain.streamed } with lane := .waiting } :=
    ⟨fun _ _ h => h, fun _ => rfl, fun _ => Iff.rfl⟩
  refine hsame.sound_set hx (fun _ => rfl) rfl ⟨(hx.statement _ _ hs).owner, ?_, ?_⟩ ?_
    (LanePoint.sound_of_job rfl)
  · rintro spool - hnext
    rw [show next = _ from hnext] at hset
    split at hset
    · apply (haccepted hset).elim
    split at hset
    · cases hset
    · apply (haccepted' hset).elim
  · intro spool hspool' hnext hdeleted
    obtain rfl := Option.some.inj (hspool.symm.trans hspool')
    rw [show next = _ from hnext] at hset
    split at hset
    · apply (hsucceeded hset).elim
    split at hset
    · rename_i hgood
      have htold := htells hdeleted
      rw [hlane] at htold
      apply htold hgood
    · apply (hsucceeded' hset).elim
  · intro point hpoint
    cases hfree.symm.trans hpoint

end Lane

/-! ### Every run -/

section Runs

variable {config : ResultsConfig Row} {x x' : ResultsConsole Row} {action : Action Row}

theorem initial_sound :
  ({} : ResultsConsole Row).Sound
  := by
  constructor
  · intro r s hr
    cases hr
  · intro r _
    refine ⟨rfl, ?_⟩
    rintro (hr | hr)
    · cases hr
    · cases hr
  · intro r _
    apply SpoolDir.sound_empty
  · intro s statement hs
    cases (Dict.get?_empty s).symm.trans hs
  · exact nofun
  · exact nofun

theorem step_sound (hx : x.Sound) (h : (resultsSystem config).step x action x') :
  x'.Sound
  := by
  obtain ⟨hfresh, h⟩ := h
  cases action with
  | submit s pageSize maxResultRows => apply submit_sound hx hfresh h
  | register r now => apply register_sound hx hfresh h
  | evict listing now => apply evict_sound hx h
  | deleteSpool left =>
      obtain ⟨r, h⟩ := deleteSpool_spec h
      apply h.sound hx
  | accept => apply accept_sound hx h
  | refuse => apply refuse_sound hx h
  | cancel s => apply cancel_sound hx h
  | lose s state => apply lose_sound hx h
  | take => apply takeStatement_sound hx h
  | countOff => apply countOff_sound hx h
  | start refused => apply startStatement_sound hx h
  | captureColumns columns => apply captureColumns_sound hx h
  | executed raises => apply executed_sound hx h
  | stream event => apply readStream_sound hx h
  | append raises => apply appendBatch_sound hx h
  | publish raises now => apply publishStreaming_sound hx h
  | mark raises => apply markTruncated_sound hx h
  | finalize raises now => apply finalize_sound hx h
  | ends state => apply endStatement_sound hx h

theorem reachable_sound (h : (resultsSystem config).Reachable x) :
  x.Sound
  := by
  apply h.invariant
  · rintro x rfl
    apply initial_sound
  · intro x action x' hx hstep
    apply step_sound hx hstep

end Runs

end Results

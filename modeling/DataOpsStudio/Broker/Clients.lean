import DataOpsStudio.Broker.Sections
import DataOpsStudio.Broker.System

/-!
# What clients and the timer do to a session

To cancel, to close, to time out, to escalate and to shut down move a session as it may move
while the lock is held.  A statement that is submitted is recorded, and then it is put in the
mailbox or fails; the two together are one step.
-/

namespace Broker

open Text Program

/-- A program ends without raising, keeps the records, and moves the session as it may move
while the lock is held. -/
def Moving {α : Type} (size : ℕ) (m : SessionM α) (c : Focus) : Prop :=
  Ensures m c (fun _ c' => Kept c c' ∧ Moves size c.view c'.view) (fun _ _ => False)

section Clients

variable {size : ℕ} {c : Focus} {config : BrokerConfig} {now : ℤ}

theorem Closes.moves {cancels : Prop} {v w : View} (h : Closes size cancels v w) :
  Moves size v w
  := by
  obtain ⟨u, hu, hpath⟩ := h
  exact ⟨u, hu.imp id And.right, hpath⟩

theorem queueCloseLocked_moving {reason : Text} {cancels : Bool} (h : c.Wellformed)
    (hv : c.view.Sound config.mailboxSize) :
  Moving config.mailboxSize (queueCloseLocked config reason cancels now) c
  := by
  apply (queueCloseLocked_spec h hv).mono
  · rintro _ c' ⟨hkept, hcloses, -⟩
    exact ⟨hkept, hcloses.moves⟩
  · intro e c' hfalse
    apply hfalse

theorem shutdownSession_moving (h : c.Wellformed) (hv : c.view.Sound config.mailboxSize) :
  Moving config.mailboxSize (shutdownSession config now) c
  := by
  rw [Moving, shutdownSession, ensures_bind, ensures_get, ensures_when]
  constructor
  · intro _
    apply queueCloseLocked_moving h hv
  · intro _
    exact ⟨Kept.refl h, Moves.refl _⟩

/-! ### Cancelling -/

theorem cancelStatement_moving {s : Text} (h : c.Wellformed) (hv : c.view.Sound size)
    (hs : c.runtime.statements.contains s = true) :
  Moving size (cancelStatement config s now) c
  := by
  obtain ⟨statement, hs⟩ := Option.isSome_iff_exists.mp hs
  rw [Moving, cancelStatement, ensures_bind, ensures_requireStatement hs, ensures_bind,
    ensures_get, ensures_ite]
  constructor
  · intro haccepted
    rw [ensures_bind]
    apply Ensures.mono
    · apply setStatementState_spec h hs
      rw [haccepted]
      decide
    · rintro updated c₁ ⟨hkept₁, -, -, hview₁⟩
      rw [ensures_bind]
      apply ensures_of_does (recordEvent_does _ _ _ hkept₁.wellformed)
      intro _ c₂ hkept₂ hview₂
      refine ⟨hkept₁.trans hkept₂, ?_⟩
      have hcancelled : c.view.put s .cancelled = c.view.cancelling (fun k => k = s) := by
        funext k
        have hstate := Focus.view_statements hs
        rw [haccepted] at hstate
        by_cases hk : k = s
        · simp [View.cancelling, hk, hstate]
        · simp [View.cancelling, hk]
      rw [hview₂, hview₁, hcancelled]
      apply Moves.of_quiet (Quiet.cancelQueued _)
    · intro e c' hfalse
      apply hfalse.elim
  · intro haccepted
    rw [ensures_ite]
    constructor
    · rintro ⟨hcurrent, -⟩
      rw [ensures_bind]
      apply ensures_of_does (beginCancelLocked_current h hv hcurrent hs)
      intro _ c₁ hkept₁ hview₁
      obtain ⟨statement', hs', -⟩ := hkept₁.same s statement hs
      rw [ensures_bind, ensures_requireStatement hs']
      refine ⟨hkept₁, ?_⟩
      rw [hview₁]
      apply View.cancelCurrent_moves
    · intro hcurrent
      rw [ensures_ite]
      constructor
      · intro _
        exact ⟨Kept.refl h, Moves.refl _⟩
      · intro hterminal
        -- a statement that is being executed is the current one
        apply hcurrent
        have hinFlight : statement.state.IsInFlight := by
          rw [ConsoleStatementState.isTerminal_iff] at hterminal
          rw [ConsoleStatementState.isInFlight_iff]
          by_contra hother
          rw [not_or] at hother
          exact hterminal ⟨haccepted, hother.1, hother.2⟩
        exact ⟨(hv.inFlight_iff s).mp ((inFlight_view_iff hs).mpr hinFlight), hinFlight⟩

/-! ### The timer -/

theorem timeOut_does (h : c.Wellformed) (hv : c.view.Sound size) :
  Ensures (timeOut config now) c
    (fun _ c' => Kept c c' ∧ (c'.view = c.view ∨ c'.view = c.view.cancelCurrent))
    (fun _ _ => False)
  := by
  rw [timeOut, ensures_bind, ensures_get]
  dsimp only
  split
  · exact ⟨Kept.refl h, .inl rfl⟩
  · rename_i s hcurrent
    obtain ⟨statement, hs, -⟩ := exists_current hv hcurrent
    rw [ensures_when]
    constructor
    · intro _
      rw [ensures_bind, ensures_requireStatement hs]
      apply ensures_of_does (beginCancelLocked_current h hv hcurrent hs)
      intro _ c' hkept hview
      exact ⟨hkept, .inr hview⟩
    · intro _
      exact ⟨Kept.refl h, .inl rfl⟩

theorem escalate_quiet (h : c.Wellformed) (hv : c.view.Sound size) :
  Ensures (escalate now) c
    (fun _ c' => Kept c c' ∧ (c'.view = c.view ∨ Quiet size c.view c'.view))
    (fun _ _ => False)
  := by
  rw [escalate, ensures_bind, ensures_get, ensures_when]
  constructor
  · rintro ⟨hfence, hsent, -⟩
    obtain ⟨hstate, s, hs, -⟩ := hv.fence hfence
    have hstarted : c.runtime.lane ≠ .unstarted := by
      intro hlane
      have hconnecting := hv.connecting.mpr (.inl hlane)
      rw [hconnecting] at hstate
      obtain hstate | hstate := hstate <;> cases hstate
    have hmarked := kept_runtime h { c.runtime with cancelDestroySent := true } rfl rfl rfl rfl
    have hfenced : c.runtime.cancelStatementId.getD [] = s := by
      rw [show c.runtime.cancelStatementId = some s from hs]
      rfl
    rw [ensures_bind, ensures_modifyRuntime, hfenced]
    apply ensures_of_does (submitControl_does .destroy hmarked.wellformed (h.controlled hstarted))
    intro _ c' hkept hview
    refine ⟨hmarked.trans hkept, .inr ?_⟩
    rw [hview]
    apply Quiet.sendDestroy hfence hsent hs
  · intro _
    exact ⟨Kept.refl h, .inl rfl⟩

theorem closeIdle_closes (h : c.Wellformed) (hv : c.view.Sound config.mailboxSize) :
  Ensures (closeIdle config now) c
    (fun _ c' => Kept c c' ∧ Closes config.mailboxSize False c.view c'.view)
    (fun _ _ => False)
  := by
  rw [closeIdle, ensures_bind, ensures_get, ensures_when]
  constructor
  · intro _
    apply (queueCloseLocked_spec h hv).mono
    · rintro _ c' ⟨hkept, ⟨u, hu, hpath⟩, -⟩
      exact ⟨hkept, u, hu.imp id (fun hcancels => nomatch hcancels.1), hpath⟩
    · intro e c' hfalse
      apply hfalse
  · intro _
    exact ⟨Kept.refl h, c.view, .inl rfl, .refl⟩

theorem runTimers_moving (h : c.Wellformed) (hv : c.view.Sound config.mailboxSize) :
  Moving config.mailboxSize (runTimers config now) c
  := by
  rw [Moving, runTimers, ensures_bind]
  apply (timeOut_does h hv).mono
  · rintro _ c₁ ⟨hkept₁, hview₁⟩
    have hfirst : Moves config.mailboxSize c.view c₁.view := by
      obtain hsame | hcancelled := hview₁
      · rw [hsame]
        apply Moves.refl
      · rw [hcancelled]
        apply View.cancelCurrent_moves
    rw [ensures_bind]
    apply (escalate_quiet hkept₁.wellformed (hfirst.sound hv)).mono
    · rintro _ c₂ ⟨hkept₂, hview₂⟩
      have hsecond : Moves config.mailboxSize c.view c₂.view := by
        obtain hsame | hquiet := hview₂
        · rw [hsame]
          apply hfirst
        · apply hfirst.quiet hquiet
      apply (closeIdle_closes hkept₂.wellformed (hsecond.sound hv)).mono
      · rintro _ c₃ ⟨hkept₃, u, hu, hpath⟩
        refine ⟨(hkept₁.trans hkept₂).trans hkept₃, ?_⟩
        obtain rfl := hu.resolve_right And.left
        obtain ⟨x, hx, hrest⟩ := hsecond
        exact ⟨x, hx, hrest.trans hpath⟩
      · intro e c' hfalse
        apply hfalse
    · intro e c' hfalse
      apply hfalse
  · intro e c' hfalse
    apply hfalse

/-! ### Starting the lane -/

theorem startLane_spec {support : ServerCancelState} (h : c.Wellformed) (hv : c.view.Sound size)
    (hlane : c.runtime.lane = .unstarted)
    (hcontrol : c.controls.contains c.runtime.session.datasourceId = true) :
  Ensures (startLane support false) c
    (fun session c' => session = c'.runtime.session ∧ Kept c c'
      ∧ Step size c.view .plain c'.view)
    (fun _ _ => False)
  := by
  have hstate : c.runtime.session.state = .connecting := hv.connecting.mpr (.inl hlane)
  rw [startLane, ensures_bind, ensures_get]
  dsimp only
  rw [when_pos hstate]
  simp only [ensures_bind, ensures_assignSession, when_neg Bool.false_ne_true, ensures_pure]
  apply ensures_updateSession
  · apply h.sessionStored
  · rw [ensures_setLane, ensures_get]
    have hopening : Kept c { c with runtime := { c.runtime with lane := .opening } } := by
      apply (Kept.refl h).runtime
      · rfl
      · rfl
      · rfl
      · intro _
        apply hcontrol
    refine ⟨rfl, ?_, ?_⟩
    · apply hopening.session_set
      exact ⟨rfl, rfl, rfl, rfl, rfl, rfl⟩
    · apply Step.startLane hlane

end Clients

/-! ### Submitting -/

/-- The requests of a runtime are those of its statements. -/
structure Focus.Requested (c : Focus) : Prop where
  listed : ∀ k statement, c.runtime.statements.get? k = some statement →
    c.runtime.requests.get? statement.clientRequestId = some k
  known : ∀ r k, c.runtime.requests.get? r = some k →
    ∃ statement, c.runtime.statements.get? k = some statement ∧ statement.clientRequestId = r

/-- What is kept keeps the requests. -/
theorem Kept.requested {c c' : Focus} (h : Kept c c') (hc : c.Requested) :
  c'.Requested
  := by
  constructor
  · intro k statement' hk'
    cases hk : c.runtime.statements.get? k with
    | none =>
        rw [h.known k hk] at hk'
        cases hk'
    | some statement =>
        obtain ⟨statement'', hk'', hsame⟩ := h.same k statement hk
        obtain rfl := Option.some.inj (hk''.symm.trans hk')
        rw [h.requests, hsame.clientRequestId]
        apply hc.listed k statement hk
  · intro r k hr
    rw [h.requests] at hr
    obtain ⟨statement, hk, hstatement⟩ := hc.known r k hr
    obtain ⟨statement', hk', hsame⟩ := h.same k statement hk
    exact ⟨statement', hk', hsame.clientRequestId.trans hstatement⟩

section Submit

variable {c : Focus} {config : BrokerConfig} {now : ℤ}

/-- The store has no statement for a request the runtime does not know. -/
theorem findRequest_eq_none (h : c.Wellformed) (hrequested : c.Requested) {r : Text}
    (hr : c.runtime.requests.get? r = none) :
  c.store.findRequest c.runtime.session.id r = none
  := by
  rw [MemoryBrokerStore.findRequest, List.find?_eq_none]
  intro statement hstatement
  obtain ⟨k, hk⟩ := Dict.mem_values_iff.mp hstatement
  simp only [decide_eq_true_eq]
  rintro ⟨hsession, rfl⟩
  have hknown := (h.mirrored k statement).mpr ⟨hk, hsession⟩
  rw [hrequested.listed k statement hknown] at hr
  cases hr

/-- The session with a statement recorded. -/
def Focus.record (c : Focus) (statement : ConsoleStatement) : Focus :=
  { c with
    runtime := { c.runtime with
      statements := c.runtime.statements.set statement.id statement
      requests := c.runtime.requests.set statement.clientRequestId statement.id }
    store := { c.store with
      statements := c.store.statements.set statement.id statement } }

/-- A statement that is new to a session. -/
structure Focus.IsNew (c : Focus) (statement : ConsoleStatement) : Prop where
  fresh : c.store.statements.get? statement.id = none
  own : statement.sessionId = c.runtime.session.id
  unknown : c.runtime.requests.get? statement.clientRequestId = none
  state : statement.state = .accepted

theorem recordStatement_spec {request : SubmitRequest} {statementId : Text} (h : c.Wellformed)
    (hrequested : c.Requested) (hfresh : c.store.statements.get? statementId = none)
    (hr : c.runtime.requests.get? request.clientRequestId = none) :
  Ensures (recordStatement request statementId now) c
    (fun created c' => created.2 = false ∧ created.1.id = statementId
      ∧ created.1.clientRequestId = request.clientRequestId
      ∧ c.IsNew created.1 ∧ c' = c.record created.1)
    (fun _ _ => False)
  := by
  simp only [recordStatement, onStore, MemoryBrokerStore.createStatement, ensures_bind, ensures_get,
    ensures_onPart, findRequest_eq_none h hrequested hr, ensures_modify, ensures_pure,
    ensures_modifyRuntime]
  exact ⟨trivial, rfl, rfl, ⟨hfresh, rfl, hr, rfl⟩, rfl⟩

namespace Focus.IsNew

variable {statement : ConsoleStatement}

theorem get?_eq_none (hnew : c.IsNew statement) (h : c.Wellformed) :
  c.runtime.statements.get? statement.id = none
  := by
  cases hs : c.runtime.statements.get? statement.id with
  | none => rfl
  | some other =>
      have hstored := ((h.mirrored _ _).mp hs).1
      rw [hnew.fresh] at hstored
      cases hstored

/-- The session with the statement recorded agrees with the store. -/
theorem wellformed (hnew : c.IsNew statement) (h : c.Wellformed) :
  (c.record statement).Wellformed
  := by
  constructor
  · apply h.stored
  · intro k other hk
    by_cases hid : statement.id = k
    · subst hid
      rw [Focus.record, Dict.get?_set_self] at hk
      rw [← Option.some.inj hk]
    · rw [Focus.record, Dict.get?_set_of_ne _ _ hid] at hk
      apply h.keyed k other hk
  · intro k other
    by_cases hid : statement.id = k
    · subst hid
      simp only [Focus.record, Dict.get?_set_self]
      constructor
      · intro hk
        obtain rfl := Option.some.inj hk
        exact ⟨rfl, hnew.own⟩
      · rintro ⟨hk, -⟩
        apply hk
    · simp only [Focus.record, Dict.get?_set_of_ne _ _ hid]
      apply h.mirrored
  · apply h.controlled

theorem requested (hnew : c.IsNew statement) (h : c.Wellformed) (hc : c.Requested) :
  (c.record statement).Requested
  := by
  constructor
  · intro k other hk
    by_cases hid : statement.id = k
    · subst hid
      rw [Focus.record, Dict.get?_set_self] at hk
      obtain rfl := Option.some.inj hk
      apply Dict.get?_set_self
    · rw [Focus.record, Dict.get?_set_of_ne _ _ hid] at hk
      have hlisted := hc.listed k other hk
      rw [Focus.record, Dict.get?_set_of_ne]
      · apply hlisted
      · intro heq
        rw [← heq, hnew.unknown] at hlisted
        cases hlisted
  · intro r k hr
    by_cases hrequest : statement.clientRequestId = r
    · subst hrequest
      rw [Focus.record, Dict.get?_set_self] at hr
      obtain rfl := Option.some.inj hr
      exact ⟨statement, Dict.get?_set_self _ _ _, rfl⟩
    · rw [Focus.record, Dict.get?_set_of_ne _ _ hrequest] at hr
      obtain ⟨other, hk, hother⟩ := hc.known r k hr
      refine ⟨other, ?_, hother⟩
      rw [Focus.record, Dict.get?_set_of_ne]
      · apply hk
      · rintro rfl
        rw [hnew.get?_eq_none h] at hk
        cases hk

/-- The statement waits. -/
theorem view (hnew : c.IsNew statement) :
  (c.record statement).view
    = { c.view with statements := c.view.put statement.id .accepted }
  := by
  simp only [Focus.record, Focus.view, Focus.owed, SessionRuntime.view, statesOf_set, hnew.state]
  rfl

end Focus.IsNew

theorem LanePoint.uncounted_nonneg (point : LanePoint) :
  0 ≤ point.uncounted
  := by
  rw [LanePoint.uncounted.eq_def]
  split
  · decide
  · decide

/-- There is room in the mailbox of a session that accepts statements and has not too many. -/
theorem View.Sound.room {size : ℕ} {v : View} (hv : v.Sound size) (haccepting : v.accepting = true)
    (hpending : v.pending < size) :
  v.mailbox.length < size
  := by
  have hcount : v.mailbox.countP LaneCommand.isExecute = v.mailbox.length := by
    rw [List.countP_eq_length]
    intro command hcommand
    cases command with
    | execute s => rfl
    | close r => exact ((hv.accepting haccepting).2.1 r hcommand).elim
  have huncounted := v.lane.uncounted_nonneg
  have hcounted := hv.counted
  rw [hcount] at hcounted
  omega

/-- A recorded statement is put in the mailbox, or it fails; either is a step from the session
before the statement was recorded. -/
theorem enqueueStatement_spec {statement : ConsoleStatement} {resultSetId : Option Text}
    (h : c.Wellformed) (hnew : c.IsNew statement) (hv : c.view.Sound config.mailboxSize)
    (haccepting : c.view.accepting = true) (hactive : c.view.state.IsActive)
    (hpending : c.view.pending < config.mailboxSize) :
  Ensures (enqueueStatement config statement resultSetId now) (c.record statement)
    (fun _ c' => Kept (c.record statement) c' ∧ Moves config.mailboxSize c.view c'.view)
    (fun e c' => e = .resultsError ∧ Kept (c.record statement) c'
      ∧ Moves config.mailboxSize c.view c'.view)
  := by
  have hwf := hnew.wellformed h
  have hs : (c.record statement).runtime.statements.get? statement.id = some statement :=
    Dict.get?_set_self _ _ _
  have hunknown : c.view.statements statement.id = none := by
    simp [Focus.view, SessionRuntime.view, statesOf, hnew.get?_eq_none h]
  cases resultSetId with
  | none =>
      rw [enqueueStatement, ensures_bind]
      apply Ensures.mono
      · apply setStatementState_spec hwf hs
        rw [hnew.state]
        decide
      · rintro updated c₁ ⟨hkept₁, -, -, hview₁⟩
        rw [ensures_bind]
        apply ensures_of_does (recordEvent_does _ _ _ hkept₁.wellformed)
        intro _ c₂ hkept₂ hview₂
        refine ⟨rfl, hkept₁.trans hkept₂, ?_⟩
        have hput : ({ c.view with statements := c.view.put statement.id .accepted } : View).put
            statement.id .failed = c.view.put statement.id .failed :=
          Function.update_idem _ _ _
        rw [hview₂, hview₁, hnew.view, hput]
        apply Moves.of_step (Step.refuse haccepting hunknown) rfl
      · intro e c' hfalse
        apply hfalse.elim
  | some resultSet =>
      rw [enqueueStatement, ensures_bind]
      apply ensures_of_does
      · apply saveStatement_same hwf
        · apply hs
        · exact ⟨rfl, rfl, rfl⟩
        · rfl
      · intro _ c₁ hkept₁ hview₁
        have hmailbox : c₁.runtime.mailbox = c.view.mailbox := by
          have hsame := congrArg View.mailbox hview₁
          rw [hnew.view] at hsame
          apply hsame
        rw [ensures_bind, ensures_get, if_pos (by rw [hmailbox]; exact hv.room haccepting hpending),
          ensures_bind, ensures_modifyRuntime, ensures_bind]
        have hkept₂ : Kept c₁ { c₁ with runtime := { c₁.runtime with
            mailbox := c₁.runtime.mailbox ++ [.execute statement.id]
            pendingCount := c₁.runtime.pendingCount + 1 } } := by
          apply kept_runtime hkept₁.wellformed
          all_goals rfl
        apply ensures_of_does (recordEvent_does _ _ _ hkept₂.wellformed)
        intro _ c₃ hkept₃ hview₃
        refine ⟨(hkept₁.trans hkept₂).trans hkept₃, ?_⟩
        have hview₂ : c₃.view = { c₁.view with
            mailbox := c₁.view.mailbox ++ [.execute statement.id]
            pending := c₁.view.pending + 1 } := hview₃
        rw [hview₂, hview₁, hnew.view]
        apply Moves.of_step (Step.accept haccepting hactive hpending hunknown) rfl

end Submit

end Broker

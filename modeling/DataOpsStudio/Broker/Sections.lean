import DataOpsStudio.Broker.Frame

/-!
# What the programs on a session do

Each program on a session is described by what it does to the view of the session, and is shown
to keep the records of the session and to raise nothing.
-/

namespace Broker

open Text Program

/-! ### Rules for the primitive programs -/

section Rules

variable {c : Focus} {E : BrokerExn → Focus → Prop}

@[simp]
theorem ensures_modifyRuntime (f : SessionRuntime → SessionRuntime) {Q : Unit → Focus → Prop} :
  Ensures (modifyRuntime f) c Q E ↔ Q () { c with runtime := f c.runtime }
  := Iff.rfl

@[simp]
theorem ensures_setLane (point : LanePoint) {Q : Unit → Focus → Prop} :
  Ensures (setLane point) c Q E ↔ Q () { c with runtime := { c.runtime with lane := point } }
  := Iff.rfl

@[simp]
theorem ensures_assignSession (session : ConsoleSession) {Q : Unit → Focus → Prop} :
  Ensures (assignSession session) c Q E
    ↔ Q () { c with runtime := { c.runtime with session := session } }
  := Iff.rfl

@[simp]
theorem ensures_assignStatement (statement : ConsoleStatement) {Q : Unit → Focus → Prop} :
  Ensures (assignStatement statement) c Q E
    ↔ Q () { c with runtime := { c.runtime with
        statements := c.runtime.statements.set statement.id statement } }
  := Iff.rfl

/-- An event is recorded, and nothing else changes. -/
theorem ensures_recordEvent {statementId eventType : Text} {now : ℤ} {Q : Unit → Focus → Prop}
    (h : ∀ events, Q () { c with store := { c.store with events := events } }) :
  Ensures (recordEvent statementId eventType now) c Q E
  := h _

theorem ensures_requireStatement {s : Text} {statement : ConsoleStatement}
    (h : c.runtime.statements.get? s = some statement) {Q : ConsoleStatement → Focus → Prop} :
  Ensures (requireStatement s) c Q E ↔ Q statement c
  := by
  simp only [requireStatement, ensures_bind, ensures_get, h, demand_some, ensures_pure]

theorem ensures_updateSession {session : ConsoleSession} {Q : Unit → Focus → Prop}
    (h : c.store.sessions.contains session.id = true)
    (hQ : Q () { c with store := { c.store with
      sessions := c.store.sessions.set session.id session } }) :
  Ensures (onStore (MemoryBrokerStore.updateSession session)) c Q E
  := by
  simp only [onStore, MemoryBrokerStore.updateSession, ensures_onPart, ensures_bind, ensures_get,
    h, if_true, ensures_modify]
  apply hQ

theorem ensures_updateStatement {statement : ConsoleStatement} {Q : Unit → Focus → Prop}
    (h : c.store.statements.contains statement.id = true)
    (hQ : Q () { c with store := { c.store with
      statements := c.store.statements.set statement.id statement } }) :
  Ensures (onStore (MemoryBrokerStore.updateStatement statement)) c Q E
  := by
  simp only [onStore, MemoryBrokerStore.updateStatement, ensures_onPart, ensures_bind,
    ensures_get, h, if_true, ensures_modify]
  apply hQ

theorem ensures_transitionSession {source target : ConsoleSessionState}
    (h : SessionEdge source target) {Q : ConsoleSessionState → Focus → Prop} :
  Ensures (ofExcept (transitionSession source target)) c Q E ↔ Q target c
  := by
  rw [transitionSession_of_edge h, ofExcept_ok, ensures_pure]

theorem ensures_transitionStatement {source target : ConsoleStatementState}
    (h : StatementEdge source target) {Q : ConsoleStatementState → Focus → Prop} :
  Ensures (ofExcept (transitionStatement source target)) c Q E ↔ Q target c
  := by
  rw [transitionStatement_of_edge h, ofExcept_ok, ensures_pure]

end Rules

/-- A program ends without raising, keeps the records, and changes the view as given. -/
def Does {α : Type} (m : SessionM α) (c : Focus) (change : View → View) : Prop :=
  Ensures m c (fun _ c' => Kept c c' ∧ c'.view = change c.view) (fun _ _ => False)

/-- What follows a program may use what the program does. -/
theorem ensures_of_does {α : Type} {m : SessionM α} {c : Focus} {change : View → View}
    {Q : α → Focus → Prop} {E : BrokerExn → Focus → Prop} (h : Does m c change)
    (hQ : ∀ a c', Kept c c' → c'.view = change c.view → Q a c') :
  Ensures m c Q E
  := by
  apply h.mono
  · rintro a c' ⟨hkept, hview⟩
    apply hQ a c' hkept hview
  · intro e c' hfalse
    apply hfalse.elim

theorem when_does {c : Focus} {p : Prop} [Decidable p] {m : SessionM Unit}
    {change : View → View} (h : c.Wellformed) (hm : p → Does m c change) :
  Does (when p m) c (fun v => if p then change v else v)
  := by
  by_cases hp : p
  · rw [when_pos hp]
    simpa only [Does, if_pos hp] using hm hp
  · rw [when_neg hp, Does, ensures_pure, if_neg hp]
    exact ⟨Kept.refl h, rfl⟩

namespace Focus

variable {c : Focus}

theorem Wellformed.sessionStored (h : c.Wellformed) :
  c.store.sessions.contains c.runtime.session.id = true
  := by
  rw [Dict.contains, h.stored]
  rfl

theorem Wellformed.statementStored (h : c.Wellformed) {s : Text} {statement : ConsoleStatement}
    (hs : c.runtime.statements.get? s = some statement) :
  c.store.statements.contains s = true
  := by
  rw [Dict.contains, ((h.mirrored s statement).mp hs).1]
  rfl

theorem exists_statement {s : Text} (h : c.view.statements s ≠ none) :
  ∃ statement, c.runtime.statements.get? s = some statement
  := by
  cases hs : c.runtime.statements.get? s with
  | none =>
      have hnone : c.view.statements s = none := by
        simp [view, SessionRuntime.view, statesOf, hs]
      exact (h hnone).elim
  | some statement => exact ⟨statement, rfl⟩

/-- Putting the state a statement has changes nothing. -/
theorem put_view {s : Text} {statement : ConsoleStatement}
    (h : c.runtime.statements.get? s = some statement) :
  c.view.put s statement.state = c.view.statements
  := by
  apply Function.update_eq_self_iff.mpr
  simp [view, SessionRuntime.view, statesOf, h]

theorem view_statements {s : Text} {statement : ConsoleStatement}
    (h : c.runtime.statements.get? s = some statement) :
  c.view.statements s = some statement.state
  := by
  simp [view, SessionRuntime.view, statesOf, h]

end Focus

/-- To record an event changes nothing in the view. -/
theorem recordEvent_does {c : Focus} (statementId eventType : Text) (now : ℤ)
    (h : c.Wellformed) :
  Does (recordEvent statementId eventType now) c id
  := by
  apply ensures_recordEvent
  intro events
  exact ⟨(Kept.refl h).events events, rfl⟩

/-! ### Statements -/

section Statements

variable {c : Focus} {statement : ConsoleStatement} {s : Text} {now : ℤ}

/-- Writing a statement changes the statement in the runtime, and nothing else there. -/
theorem saveStatement_spec {old new : ConsoleStatement} (h : c.Wellformed)
    (hold : c.runtime.statements.get? new.id = some old) (hsame : old.Same new) :
  Ensures (saveStatement new) c
    (fun _ c' => Kept c c' ∧ c'.runtime = { c.runtime with
      statements := c.runtime.statements.set new.id new } ∧ c'.controls = c.controls)
    (fun _ _ => False)
  := by
  rw [saveStatement, ensures_bind, ensures_assignStatement]
  apply ensures_updateStatement
  · apply h.statementStored hold
  · exact ⟨(Kept.refl h).statement_set hold hsame, rfl, rfl⟩

/-- Writing a statement changes its state in the view. -/
theorem view_of_statement_set {c c' : Focus} {new : ConsoleStatement}
    (hruntime : c'.runtime = { c.runtime with
      statements := c.runtime.statements.set new.id new }) (hcontrols : c'.controls = c.controls) :
  c'.view = { c.view with statements := c.view.put new.id new.state }
  := by
  simp only [Focus.view, Focus.owed, SessionRuntime.view, hruntime, hcontrols, statesOf_set]
  rfl

/-- Writing a statement whose state is as it was changes nothing in the view. -/
theorem saveStatement_same {old new : ConsoleStatement} (h : c.Wellformed)
    (hold : c.runtime.statements.get? new.id = some old) (hsame : old.Same new)
    (hstate : new.state = old.state) :
  Does (saveStatement new) c id
  := by
  apply (saveStatement_spec h hold hsame).mono
  · rintro _ c' ⟨hkept, hruntime, hcontrols⟩
    have hview := view_of_statement_set hruntime hcontrols
    rw [hstate, Focus.put_view hold] at hview
    exact ⟨hkept, hview⟩
  · intro e c' hfalse
    apply hfalse

theorem setStatementState_spec {state : ConsoleStatementState} {cancelRequested : Option Bool}
    {errorCode errorSummary : Option Text} (h : c.Wellformed)
    (hs : c.runtime.statements.get? s = some statement)
    (hedge : StatementEdge statement.state state) :
  Ensures (setStatementState statement state now cancelRequested errorCode errorSummary) c
    (fun updated c' => Kept c c' ∧ updated.id = s
      ∧ c'.runtime.statements = c.runtime.statements.set s updated
      ∧ c'.view = { c.view with statements := c.view.put s state })
    (fun _ _ => False)
  := by
  have hid := h.keyed s statement hs
  subst hid
  rw [setStatementState, ensures_bind, ensures_transitionStatement hedge, ensures_bind]
  apply Ensures.mono
  · apply saveStatement_spec h
    · apply hs
    · exact ⟨rfl, rfl, rfl⟩
  · rintro _ c' ⟨hkept, hruntime, hcontrols⟩
    rw [ensures_pure]
    exact ⟨hkept, rfl, by rw [hruntime], view_of_statement_set hruntime hcontrols⟩
  · intro e c' hfalse
    apply hfalse

end Statements

/-! ### Sessions -/

section Sessions

variable {c : Focus} {now : ℤ}

/-- Fields of the runtime that no record depends on change the view only. -/
theorem kept_runtime (h : c.Wellformed) (runtime : SessionRuntime)
    (hsession : runtime.session = c.runtime.session)
    (hstatements : runtime.statements = c.runtime.statements)
    (hrequests : runtime.requests = c.runtime.requests)
    (hlane : runtime.lane = c.runtime.lane) :
  Kept c { c with runtime := runtime }
  := by
  apply (Kept.refl h).runtime runtime hsession hstatements hrequests
  rw [hlane]
  apply h.controlled

/-- A change of the runtime that no record depends on changes the view only. -/
theorem modifyRuntime_does {f : SessionRuntime → SessionRuntime} {change : View → View}
    (h : c.Wellformed) (hsession : (f c.runtime).session = c.runtime.session)
    (hstatements : (f c.runtime).statements = c.runtime.statements)
    (hrequests : (f c.runtime).requests = c.runtime.requests)
    (hlane : (f c.runtime).lane ≠ .unstarted → c.runtime.lane ≠ .unstarted)
    (hview : (f c.runtime).view c.owed = change c.view) :
  Does (modifyRuntime f) c change
  := by
  constructor
  · apply (Kept.refl h).runtime _ hsession hstatements hrequests
    intro hne
    apply h.controlled (hlane hne)
  · rw [← hview, Focus.view, Focus.owed, Focus.owed, hsession]

theorem clearCurrent_does (h : c.Wellformed) :
  Does clearCurrent c (fun v => { v with current := none })
  := modifyRuntime_does h rfl rfl rfl id rfl

/-- The lane of a session that has been started goes on. -/
theorem setLane_does (point : LanePoint) (h : c.Wellformed) (hlane : c.runtime.lane ≠ .unstarted) :
  Does (setLane point) c (fun v => { v with lane := point })
  := modifyRuntime_does h rfl rfl rfl (fun _ => hlane) rfl

theorem moveSession_does {target : ConsoleSessionState} {change : ConsoleSession → ConsoleSession}
    (h : c.Wellformed) (hedge : SessionEdge c.runtime.session.state target)
    (hsame : ∀ session, session.Same (change session) ∧ (change session).state = session.state) :
  Does (moveSession target change) c (fun v => { v with state := target })
  := by
  have hmoved := hsame { c.runtime.session with state := target }
  simp only [Does, moveSession, ensures_bind, ensures_get, ensures_transitionSession hedge,
    ensures_assignSession]
  apply ensures_updateSession
  · rw [hmoved.1.id]
    apply h.sessionStored
  · constructor
    · apply (Kept.refl h).session_set
      exact ⟨hmoved.1.id, hmoved.1.consoleId, hmoved.1.datasourceId, hmoved.1.ownerUserId,
        hmoved.1.epoch, hmoved.1.brokerBootId⟩
    · simp only [Focus.view, SessionRuntime.view, Focus.owed, hmoved.1.datasourceId, hmoved.1.id,
        hmoved.2]

theorem becomeIdle_does {config : BrokerConfig} (h : c.Wellformed)
    (hedge : SessionEdge c.runtime.session.state .idle) :
  Does (becomeIdle config now) c (fun v => { v with state := .idle })
  := by
  simp only [Does, becomeIdle, ensures_bind, ensures_get, ensures_transitionSession hedge,
    ensures_assignSession, ensures_modifyRuntime]
  apply ensures_updateSession
  · apply h.sessionStored
  · constructor
    · have hdeadline := kept_runtime h { c.runtime with
        idleDeadline := some (idleDeadlineAfter config now) } rfl rfl rfl rfl
      apply hdeadline.session_set
      exact ⟨rfl, rfl, rfl, rfl, rfl, rfl⟩
    · rfl

theorem loseSessionLocked_of_lost (reason : Text) (h : c.Wellformed)
    (hstate : c.runtime.session.state = .sessionLost) :
  Does (loseSessionLocked reason now) c id
  := by
  rw [Does, loseSessionLocked, ensures_bind, ensures_get, when_neg (not_not_intro hstate),
    ensures_pure]
  exact ⟨Kept.refl h, rfl⟩

theorem loseSessionLocked_does (reason : Text) (h : c.Wellformed)
    (hstate : c.runtime.session.state ≠ .sessionLost)
    (hedge : SessionEdge c.runtime.session.state .sessionLost) :
  Does (loseSessionLocked reason now) c
    (fun v => { v with accepting := false, inFlight := false, state := .sessionLost })
  := by
  rw [Does, loseSessionLocked, ensures_bind, ensures_get, when_pos hstate]
  simp only [ensures_bind, ensures_get, ensures_modifyRuntime, ensures_transitionSession hedge,
    ensures_assignSession]
  apply ensures_updateSession
  · apply h.sessionStored
  · constructor
    · have hflags := kept_runtime h { c.runtime with
        accepting := false, cancelInFlight := false, idleDeadline := none } rfl rfl rfl rfl
      apply hflags.session_set
      exact ⟨rfl, rfl, rfl, rfl, rfl, rfl⟩
    · rfl

end Sessions

/-! ### The cancel fence -/

section Fence

variable {c : Focus} {config : BrokerConfig} {statement : ConsoleStatement} {s : Text} {now : ℤ}

theorem submitControl_does (kind : ControlKind) (h : c.Wellformed)
    (hcontrol : c.controls.contains c.runtime.session.datasourceId = true) :
  Does (submitControl kind s) c (fun v => { v with owed := v.owed ++ [(kind, s)] })
  := by
  constructor
  · apply (Kept.refl h).post
    rfl
  · simp only [Focus.view, SessionRuntime.view, Focus.owed, View.mk.injEq, true_and]
    apply owedIn_postControl _ hcontrol

theorem dispatchCancel_does (h : c.Wellformed)
    (hcontrol : c.controls.contains c.runtime.session.datasourceId = true) :
  Does (dispatchCancel s now) c (fun v => { v with owed := v.owed ++ [(.cancel, s)] })
  := by
  rw [Does, dispatchCancel, ensures_bind]
  apply ensures_recordEvent
  intro events
  have hevents := (Kept.refl h).events events
  rw [ensures_bind, ensures_get, if_pos hcontrol]
  apply ensures_of_does (submitControl_does .cancel hevents.wellformed hcontrol)
  intro _ c' hkept hview
  exact ⟨hevents.trans hkept, hview⟩

theorem beginCancelLocked_of_inFlight {reason : CancelReason} (h : c.Wellformed)
    (hfence : c.runtime.cancelInFlight = true) :
  Does (beginCancelLocked config now statement reason) c id
  := by
  rw [Does, beginCancelLocked, ensures_bind, ensures_get, when_neg (by simp [hfence]),
    ensures_pure]
  exact ⟨Kept.refl h, rfl⟩

/-- A cancellation begins: the fence is set up and the control lane gets a command. -/
theorem beginCancelLocked_does {reason : CancelReason} (h : c.Wellformed)
    (hs : c.runtime.statements.get? s = some statement)
    (hcontrol : c.controls.contains c.runtime.session.datasourceId = true)
    (hfence : c.runtime.cancelInFlight = false) :
  Does (beginCancelLocked config now statement reason) c (fun v =>
    { v with
      inFlight := true
      fenced := some s
      controlDone := false
      confirmed := false
      destroySent := false
      state := if v.state = .executing then .cancelling else v.state
      owed := v.owed ++ [(.cancel, s)] })
  := by
  have hid := h.keyed s statement hs
  subst hid
  have hraised := kept_runtime h (c.runtime.raiseFence config now statement.id reason)
    rfl rfl rfl rfl
  rw [Does, beginCancelLocked, ensures_bind, ensures_get, when_pos hfence]
  simp only [ensures_bind, ensures_modifyRuntime, ensures_get]
  apply ensures_of_does
  · apply saveStatement_same hraised.wellformed
    · apply hs
    · exact ⟨rfl, rfl, rfl⟩
    · rfl
  · intro _ c₁ hkept₁ hview₁
    apply ensures_of_does
    · apply when_does hkept₁.wellformed
      intro hstate
      apply moveSession_does hkept₁.wellformed
      · rw [hstate]
        decide
      · intro session
        exact ⟨⟨rfl, rfl, rfl, rfl, rfl, rfl⟩, rfl⟩
    · intro _ c₂ hkept₂ hview₂
      have hkept := (hraised.trans hkept₁).trans hkept₂
      apply ensures_of_does (dispatchCancel_does hkept.wellformed (hkept.contains.trans hcontrol))
      intro _ c₃ hkept₃ hview₃
      constructor
      · apply hkept.trans hkept₃
      · have hstate : c₁.runtime.session.state = c.view.state := congrArg View.state hview₁
        rw [hview₃, hview₂, hview₁, hstate]
        by_cases hexecuting : c.view.state = .executing
        · simp only [if_pos hexecuting]
          rfl
        · simp only [if_neg hexecuting]
          rfl

/-- Where there is no fence around a statement, nothing is settled. -/
theorem settleCancelFenceLocked_of_not_fenced (h : c.Wellformed)
    (hfence : ¬ (c.runtime.cancelInFlight = true ∧ c.runtime.cancelStatementId = some s)) :
  Does (settleCancelFenceLocked config s now) c id
  := by
  rw [Does, settleCancelFenceLocked, ensures_bind, ensures_get, when_neg hfence, ensures_pure]
  exact ⟨Kept.refl h, rfl⟩

/-- A fence is held until it may be released. -/
theorem settleCancelFenceLocked_holds (h : c.Wellformed)
    (hs : c.runtime.statements.get? s = some statement)
    (hheld : c.runtime.cancelConfirmed = false
      ∧ (c.runtime.cancelControlDone = true → ¬ statement.state.IsTerminal)) :
  Does (settleCancelFenceLocked config s now) c id
  := by
  rw [Does, settleCancelFenceLocked, ensures_bind, ensures_get]
  apply ensures_of_does
  · apply when_does h
    intro hfence
    have hdone := kept_runtime h { c.runtime with
      cancelStatementDone := statement.state.IsTerminal } rfl rfl rfl rfl
    rw [Does, ensures_bind, ensures_requireStatement hs, ensures_bind, ensures_modifyRuntime,
      ensures_bind, ensures_get, when_neg (by simpa using hheld), ensures_pure]
    exact ⟨hdone, show _ = id _ from rfl⟩
  · intro _ c' hkept hview
    rw [id, ite_self] at hview
    exact ⟨hkept, hview⟩

/-- A fence is released. -/
theorem settleCancelFenceLocked_releases (h : c.Wellformed)
    (hs : c.runtime.statements.get? s = some statement)
    (hfence : c.runtime.cancelInFlight = true ∧ c.runtime.cancelStatementId = some s)
    (hdone : c.runtime.cancelConfirmed = true
      ∨ c.runtime.cancelControlDone = true ∧ statement.state.IsTerminal) :
  Does (settleCancelFenceLocked config s now) c (fun v =>
    { v with
      inFlight := false
      fenced := none
      destroySent := false
      state := if v.state = .cancelling then .idle else v.state })
  := by
  have hreleased := kept_runtime h ({ c.runtime with
    cancelStatementDone := statement.state.IsTerminal } : SessionRuntime).releaseFence
    rfl rfl rfl rfl
  rw [Does, settleCancelFenceLocked, ensures_bind, ensures_get, when_pos hfence, ensures_bind,
    ensures_requireStatement hs, ensures_bind, ensures_modifyRuntime, ensures_bind, ensures_get,
    when_pos (by simpa using hdone), ensures_bind, ensures_modifyRuntime, ensures_bind,
    ensures_get]
  apply ensures_of_does
  · apply when_does hreleased.wellformed
    intro hstate
    apply becomeIdle_does hreleased.wellformed
    rw [hstate]
    decide
  · intro _ c' hkept hview
    constructor
    · apply hreleased.trans hkept
    · rw [hview]
      by_cases hstate : c.view.state = .cancelling
      · simp only [if_pos hstate]
        exact if_pos hstate
      · simp only [if_neg hstate]
        exact if_neg hstate

end Fence

/-! ### Reports of the control lane -/

section Reports

variable {size : ℕ} {c : Focus} {config : BrokerConfig} {failed : Bool} {now : ℤ}

theorem ended_iff {s : Text} {statement : ConsoleStatement}
    (hs : c.runtime.statements.get? s = some statement) :
  c.view.Ended s ↔ statement.state.IsTerminal
  := by
  rw [View.Ended, View.InFlight, Focus.view_statements hs, ConsoleStatementState.isTerminal_iff]
  simp

theorem inFlight_view_iff {s : Text} {statement : ConsoleStatement}
    (hs : c.runtime.statements.get? s = some statement) :
  c.view.InFlight s ↔ statement.state.IsInFlight
  := by
  rw [View.InFlight, Focus.view_statements hs, ConsoleStatementState.isInFlight_iff]
  simp

/-- The statement behind the fence is known. -/
theorem exists_fenced (hv : c.view.Sound size) {s : Text}
    (hs : c.runtime.cancelStatementId = some s) :
  ∃ statement, c.runtime.statements.get? s = some statement
  := by
  apply Focus.exists_statement
  obtain hcurrent | hended := hv.fenced s hs
  · intro hnone
    have hinFlight := (hv.inFlight_iff s).mpr hcurrent
    rw [View.InFlight, hnone] at hinFlight
    obtain h | h := hinFlight
    all_goals cases h
  · apply hended.1

/-- What the report of a control command leaves: no command is posted, and it is a plain step
of the session or one with the given label, if the command is no longer owed. -/
def Reports (size : ℕ) (label : Label) (rest : List (ControlKind × Text)) (c c' : Focus) : Prop :=
  Kept c c' ∧ c'.view.owed = c.view.owed
    ∧ (Step size c.view .plain { c'.view with owed := rest }
      ∨ Step size c.view label { c'.view with owed := rest })

/-- The report of a cancellation is a step of the session. -/
theorem onControlCancelDone_spec (h : c.Wellformed) (hv : c.view.Sound size)
    {s' : Text} {rest : List (ControlKind × Text)} (howed : c.view.owed = (.cancel, s') :: rest) :
  Ensures (onControlCancelDone config failed now) c
    (fun _ c' => Reports size .controlRelease rest c c')
    (fun _ _ => False)
  := by
  rw [onControlCancelDone, ensures_bind, ensures_get]
  cases hfenced : c.runtime.cancelStatementId with
  | none =>
      exact ⟨Kept.refl h, rfl, .inl (.reportIgnored howed hfenced)⟩
  | some s =>
      obtain ⟨statement, hs⟩ := exists_fenced hv hfenced
      have hdone := kept_runtime h { c.runtime with cancelControlDone := true } rfl rfl rfl rfl
      simp only [ensures_bind, ensures_requireStatement hs, ensures_modifyRuntime]
      apply ensures_recordEvent
      intro events
      have hevents := hdone.events events
      by_cases hrelease : c.runtime.cancelInFlight = true
          ∧ (c.runtime.cancelConfirmed = true ∨ statement.state.IsTerminal)
      · apply ensures_of_does
        · apply settleCancelFenceLocked_releases hevents.wellformed hs ⟨hrelease.1, hfenced⟩
          exact hrelease.2.imp id (fun hterminal => ⟨rfl, hterminal⟩)
        · intro _ c' hkept hview
          refine ⟨hevents.trans hkept, ?_, ?_⟩
          · rw [hview]
            rfl
          · right
            rw [hview]
            apply Step.reportReleasing howed hfenced hrelease.1
            rw [ended_iff hs]
            apply hrelease.2
      · have hheld : c.runtime.cancelInFlight = false
            ∨ c.runtime.cancelConfirmed = false ∧ ¬ statement.state.IsTerminal := by
          rw [not_and, not_or] at hrelease
          cases hfence : c.runtime.cancelInFlight with
          | false => exact .inl rfl
          | true =>
              obtain ⟨hconfirmed, hterminal⟩ := hrelease hfence
              exact .inr ⟨by simpa using hconfirmed, hterminal⟩
        have hsettle : Does (settleCancelFenceLocked config s now)
            { c with
              runtime := { c.runtime with cancelControlDone := true }
              store := { c.store with events := events } } id := by
          obtain hfence | hheld := hheld
          · apply settleCancelFenceLocked_of_not_fenced hevents.wellformed
            simp [hfence]
          · apply settleCancelFenceLocked_holds hevents.wellformed hs
            exact ⟨hheld.1, fun _ => hheld.2⟩
        apply ensures_of_does hsettle
        intro _ c' hkept hview
        refine ⟨hevents.trans hkept, ?_, ?_⟩
        · rw [hview]
          rfl
        · left
          rw [hview]
          apply Step.reportCancel howed hfenced
          rw [ended_iff hs]
          apply hheld

/-- The report of a destruction is a step of the session. -/
theorem onControlDestroyDone_spec (h : c.Wellformed) (hv : c.view.Sound size)
    {s' : Text} {rest : List (ControlKind × Text)} (howed : c.view.owed = (.destroy, s') :: rest) :
  Ensures (onControlDestroyDone failed now) c
    (fun _ c' => Reports size .controlLose rest c c')
    (fun _ _ => False)
  := by
  rw [onControlDestroyDone, ensures_bind, ensures_get]
  cases hfenced : c.runtime.cancelStatementId with
  | none => exact ⟨Kept.refl h, rfl, .inl (.reportIgnored howed hfenced)⟩
  | some s =>
      obtain ⟨statement, hs⟩ := exists_fenced hv hfenced
      simp only [ensures_bind, ensures_requireStatement hs]
      apply ensures_recordEvent
      intro events
      have hevents := (Kept.refl h).events events
      apply (ensures_requireStatement (c := { c with
        store := { c.store with events := events } }) hs).mpr
      by_cases hlost : c.runtime.session.state = .sessionLost
      · -- the session has been given up before, and with it the statement
        have hcurrent : c.runtime.currentStatementId = none := (hv.lost hlost).2.2
        have hterminal : statement.state.IsTerminal := by
          rw [← ended_iff hs]
          apply (hv.fenced s hfenced).resolve_left
          rw [show c.view.current = none from hcurrent]
          simp
        rw [when_neg (not_not_intro hterminal), ensures_pure]
        apply ensures_of_does (loseSessionLocked_of_lost _ hevents.wellformed hlost)
        intro _ c₁ hkept₁ hview₁
        apply ensures_of_does (clearCurrent_does hkept₁.wellformed)
        intro _ c₂ hkept₂ hview₂
        refine ⟨(hevents.trans hkept₁).trans hkept₂, ?_, ?_⟩
        · rw [hview₂, hview₁]
          rfl
        · left
          rw [hview₂, hview₁]
          simp only [show (none : Option Text) = c.view.current from hcurrent.symm]
          apply Step.reportAfterLoss howed hfenced hlost
      · have hinFlight := hv.inFlight_of_fenced hfenced hlost
        have hedge : SessionEdge c.view.state .sessionLost := by
          obtain ⟨hstate | hstate, -⟩ := hv.fence hinFlight
          all_goals
            rw [hstate]
            decide
        have htail : ∀ c₁ x, Kept c c₁ → c₁.view = { c.view with statements := c.view.put s x } →
            (c.view.statements s = some x ∧ x.IsTerminal
              ∨ ¬ c.view.Ended s ∧ (x = .failed ∨ x = .outcomeUnknown)) →
            Ensures (loseSessionLocked "cancel_escalated".toList now) c₁
              (fun _ c₂ => Ensures clearCurrent c₂
                (fun _ c' => Reports size .controlLose rest c c')
                (fun _ _ => False))
              (fun _ _ => False) := by
          intro c₁ x hkept₁ hview₁ hx
          have hstate₁ : c₁.runtime.session.state = c.view.state := congrArg View.state hview₁
          apply ensures_of_does
          · apply loseSessionLocked_does _ hkept₁.wellformed
            · rw [hstate₁]
              apply hlost
            · rw [hstate₁]
              apply hedge
          · intro _ c₂ hkept₂ hview₂
            apply ensures_of_does (clearCurrent_does hkept₂.wellformed)
            intro _ c₃ hkept₃ hview₃
            refine ⟨(hkept₁.trans hkept₂).trans hkept₃, ?_, ?_⟩
            · rw [hview₃, hview₂, hview₁]
            · right
              rw [hview₃, hview₂, hview₁]
              apply Step.reportLosing x howed hfenced hlost hx
        by_cases hterminal : statement.state.IsTerminal
        · rw [when_neg (not_not_intro hterminal), ensures_pure]
          apply htail _ statement.state hevents
          · rw [Focus.put_view hs]
            rfl
          · exact .inl ⟨Focus.view_statements hs, hterminal⟩
        · have hcurrent : c.view.current = some s := by
            apply (hv.fenced s hfenced).resolve_right
            rw [ended_iff hs]
            apply hterminal
          have hstarted : statement.state.IsInFlight := by
            rw [← inFlight_view_iff hs]
            apply (hv.inFlight_iff s).mpr hcurrent
          rw [when_pos hterminal, ensures_bind]
          apply Ensures.mono
          · apply setStatementState_spec hevents.wellformed hs
            apply MemoryBrokerStore.unobserved_edge hstarted
          · rintro updated c₁ ⟨hkept₁, -, -, hview₁⟩
            rw [ensures_pure]
            apply htail c₁ (MemoryBrokerStore.unobserved statement) (hevents.trans hkept₁) hview₁
            right
            rw [ended_iff hs]
            exact ⟨hterminal, MemoryBrokerStore.unobserved_eq statement⟩
          · intro e c' hfalse
            apply hfalse

end Reports

/-! ### Closing -/

section Closing

variable {size : ℕ} {c : Focus} {config : BrokerConfig} {eventType reason : Text} {now : ℤ}

theorem cancelQueuedStatement_spec {s : Text} {statement : ConsoleStatement} (h : c.Wellformed)
    (hs : c.runtime.statements.get? s = some statement) (haccepted : statement.state = .accepted) :
  Ensures (cancelQueuedStatement eventType now statement) c
    (fun _ c' => Kept c c' ∧ (∀ k, k ≠ s →
        c'.runtime.statements.get? k = c.runtime.statements.get? k)
      ∧ c'.view = { c.view with statements := c.view.put s .cancelled })
    (fun _ _ => False)
  := by
  rw [cancelQueuedStatement, ensures_bind]
  apply Ensures.mono
  · apply setStatementState_spec h hs
    rw [haccepted]
    decide
  · rintro updated c₁ ⟨hkept₁, -, hstatements₁, hview₁⟩
    apply ensures_recordEvent
    intro events
    have hevents := (Kept.refl hkept₁.wellformed).events events
    refine ⟨hkept₁.trans hevents, ?_, hview₁⟩
    intro k hk
    simp only [hstatements₁, Dict.get?_set_of_ne _ _ hk.symm]
  · intro e c' hfalse
    apply hfalse

/-- Statements that have not been started are cancelled one after the other. -/
theorem forM_cancelQueuedStatement (statements : List ConsoleStatement) (h : c.Wellformed)
    (hstatements : ∀ statement ∈ statements,
      c.runtime.statements.get? statement.id = some statement ∧ statement.state = .accepted)
    (hnodup : (statements.map ConsoleStatement.id).Nodup) :
  Does (statements.forM (cancelQueuedStatement eventType now)) c (fun v =>
    { v with statements := v.cancelling (fun k => k ∈ statements.map ConsoleStatement.id) })
  := by
  induction statements generalizing c with
  | nil =>
      constructor
      · apply Kept.refl h
      · have hsame : c.view.cancelling (fun k => k ∈ ([] : List Text)) = c.view.statements := by
          funext k
          simp [View.cancelling]
        simp only [List.map_nil, hsame]
  | cons statement rest ih =>
      obtain ⟨hs, haccepted⟩ := hstatements statement List.mem_cons_self
      obtain ⟨hfresh, hnodup⟩ := List.nodup_cons.mp hnodup
      rw [Does, show (statement :: rest).forM (cancelQueuedStatement eventType now)
        = cancelQueuedStatement eventType now statement >>= fun _ =>
          rest.forM (cancelQueuedStatement eventType now) from rfl, ensures_bind]
      apply (cancelQueuedStatement_spec h hs haccepted).mono
      · rintro _ c₁ ⟨hkept₁, hothers₁, hview₁⟩
        apply ensures_of_does
        · apply ih hkept₁.wellformed _ hnodup
          intro other hother
          rw [hothers₁]
          · apply hstatements other (List.mem_cons_of_mem _ hother)
          · intro heq
            apply hfresh
            rw [← heq]
            apply List.mem_map_of_mem hother
        · intro _ c₂ hkept₂ hview₂
          constructor
          · apply hkept₁.trans hkept₂
          · have hboth : ({ c.view with statements := c.view.put statement.id .cancelled } :
                View).cancelling (fun k => k ∈ rest.map ConsoleStatement.id)
                = c.view.cancelling
                  (fun k => k ∈ (statement :: rest).map ConsoleStatement.id) := by
              funext k
              have hstate := Focus.view_statements hs
              by_cases hk : k = statement.id
              · simp [View.cancelling, hk, hstate, haccepted]
              · simp [View.cancelling, hk]
            rw [hview₂, hview₁, ← hboth]
      · intro e c' hfalse
        apply hfalse.elim

/-- The statements of a runtime are listed under their own identifiers. -/
theorem map_id_values (h : c.Wellformed) :
  c.runtime.statements.values.map ConsoleStatement.id = c.runtime.statements.keys
  := by
  rw [Dict.values, Dict.keys, List.map_map]
  apply List.map_congr_left
  intro item hitem
  apply h.keyed item.1 item.2 (Dict.get?_of_mem hitem)

theorem cancelQueuedLocked_does (h : c.Wellformed) :
  Does (cancelQueuedLocked eventType now) c (fun v =>
    { v with statements := v.cancelling (fun _ => true) })
  := by
  rw [Does, cancelQueuedLocked, ensures_bind, ensures_get]
  have hmem : ∀ statement ∈ c.runtime.statements.values,
      c.runtime.statements.get? statement.id = some statement := by
    intro statement hstatement
    obtain ⟨k, hk⟩ := Dict.mem_values_iff.mp hstatement
    rw [h.keyed k statement hk]
    apply hk
  apply ensures_of_does
  · apply forM_cancelQueuedStatement _ h
    · intro statement hstatement
      obtain ⟨hvalue, haccepted⟩ := List.mem_filter.mp hstatement
      exact ⟨hmem statement hvalue, by simpa using haccepted⟩
    · have hkeys : (c.runtime.statements.values.map ConsoleStatement.id).Nodup := by
        rw [map_id_values h]
        apply Dict.keys_nodup
      apply List.Nodup.sublist _ hkeys
      apply List.filter_sublist.map
  · intro _ c' hkept hview
    refine ⟨hkept, ?_⟩
    rw [hview]
    congr 1
    funext k
    rw [View.cancelling, View.cancelling]
    by_cases hk : c.view.statements k = some .accepted
    · obtain ⟨statement, hs⟩ := Focus.exists_statement (c := c) (s := k) (by simp [hk])
      have haccepted : statement.state = .accepted :=
        Option.some.inj ((Focus.view_statements hs).symm.trans hk)
      have hlisted : k ∈ (c.runtime.statements.values.filter (fun statement =>
          statement.state = .accepted)).map ConsoleStatement.id := by
        rw [← h.keyed k statement hs]
        apply List.mem_map_of_mem
        apply List.mem_filter.mpr
        exact ⟨Dict.mem_values_iff.mpr ⟨k, hs⟩, by simpa using haccepted⟩
      simp only [hlisted, decide_true]
    · rw [if_neg (by simp [hk]), if_neg (by simp [hk])]

/-- The statement a session is executing is known and is being executed. -/
theorem exists_current (hv : c.view.Sound size) {s : Text}
    (hs : c.runtime.currentStatementId = some s) :
  ∃ statement, c.runtime.statements.get? s = some statement ∧ statement.state.IsInFlight
  := by
  have hinFlight := (hv.inFlight_iff s).mpr hs
  obtain ⟨statement, hstatement⟩ := Focus.exists_statement (c := c) (s := s) (by
    intro hnone
    rw [View.InFlight, hnone] at hinFlight
    simp at hinFlight)
  exact ⟨statement, hstatement, (inFlight_view_iff hstatement).mp hinFlight⟩

/-- A session that is executing a statement has a control lane. -/
theorem contains_of_current (h : c.Wellformed) (hv : c.view.Sound size) {s : Text}
    (hs : c.runtime.currentStatementId = some s) :
  c.controls.contains c.runtime.session.datasourceId = true
  := by
  apply h.controlled
  intro hlane
  have hrunning := hv.running s hs
  rw [show c.view.lane = .unstarted from hlane] at hrunning
  cases hrunning

/-- The session with a fence around a statement. -/
def View.fence (v : View) (s : Text) : View :=
  { v with
    inFlight := true
    fenced := some s
    controlDone := false
    confirmed := false
    destroySent := false
    state := if v.state = .executing then .cancelling else v.state
    owed := v.owed ++ [(.cancel, s)] }

/-- The session with a fence around the statement it is executing, if there is one. -/
def View.cancelCurrent (v : View) : View :=
  match v.current with
  | none => v
  | some s => if v.inFlight then v else v.fence s

theorem View.cancelCurrent_of_none {v : View} (h : v.current = none) :
  v.cancelCurrent = v
  := by
  rw [View.cancelCurrent, h]

theorem View.cancelCurrent_of_inFlight {v : View} (h : v.inFlight = true) :
  v.cancelCurrent = v
  := by
  rw [View.cancelCurrent]
  split
  · rfl
  · rw [if_pos h]

theorem View.cancelCurrent_of_current {v : View} {s : Text} (hcurrent : v.current = some s)
    (h : v.inFlight = false) :
  v.cancelCurrent = v.fence s
  := by
  rw [View.cancelCurrent, hcurrent, h]
  rfl

/-- A session has a statement that can be fenced, or there is nothing to do. -/
theorem View.cancelCurrent_cases (v : View) :
  v.cancelCurrent = v
    ∨ ∃ s, v.current = some s ∧ v.inFlight = false ∧ v.cancelCurrent = v.fence s
  := by
  cases hcurrent : v.current with
  | none => exact .inl (View.cancelCurrent_of_none hcurrent)
  | some s =>
      cases hfence : v.inFlight with
      | true => exact .inl (View.cancelCurrent_of_inFlight hfence)
      | false => exact .inr ⟨s, rfl, rfl, View.cancelCurrent_of_current hcurrent hfence⟩

theorem View.cancelCurrent_eq_or_step (size : ℕ) (v : View) :
  v.cancelCurrent = v
    ∨ Step size v .plain v.cancelCurrent ∧ v.cancelCurrent.lane = v.lane
  := by
  obtain hsame | ⟨s, hcurrent, hfence, hfenced⟩ := v.cancelCurrent_cases
  · exact .inl hsame
  · right
    rw [hfenced]
    exact ⟨Step.beginCancel hfence hcurrent, rfl⟩

theorem View.cancelCurrent_moves (size : ℕ) (v : View) :
  Moves size v v.cancelCurrent
  := ⟨v.cancelCurrent, v.cancelCurrent_eq_or_step size, .refl⟩

/-- The session once it no longer accepts statements. -/
def View.stopAccepting (v : View) : View := { v with accepting := false }

/-- Whether a session accepts statements does not bear on the cancellation of the one it is
executing. -/
theorem View.cancelCurrent_stopAccepting (v : View) :
  v.stopAccepting.cancelCurrent = v.cancelCurrent.stopAccepting
  := by
  cases hcurrent : v.current with
  | none =>
      rw [View.cancelCurrent_of_none hcurrent]
      apply View.cancelCurrent_of_none (v := v.stopAccepting) hcurrent
  | some s =>
      cases hfence : v.inFlight with
      | true =>
          rw [View.cancelCurrent_of_inFlight hfence]
          apply View.cancelCurrent_of_inFlight (v := v.stopAccepting) hfence
      | false =>
          rw [View.cancelCurrent_of_current hcurrent hfence]
          apply View.cancelCurrent_of_current (v := v.stopAccepting) hcurrent hfence

/-- To cancel the statement that is being executed sets a fence up, unless there is one. -/
theorem beginCancelLocked_current {reason : CancelReason} {s : Text} {statement : ConsoleStatement}
    (h : c.Wellformed) (hv : c.view.Sound size) (hcurrent : c.runtime.currentStatementId = some s)
    (hs : c.runtime.statements.get? s = some statement) :
  Does (beginCancelLocked config now statement reason) c View.cancelCurrent
  := by
  have hview : c.view.current = some s := hcurrent
  cases hfence : c.runtime.cancelInFlight with
  | true =>
      have hinFlight : c.view.inFlight = true := hfence
      apply ensures_of_does (beginCancelLocked_of_inFlight h hfence)
      intro _ c' hkept hsame
      exact ⟨hkept, hsame.trans (View.cancelCurrent_of_inFlight hinFlight).symm⟩
  | false =>
      have hinFlight : c.view.inFlight = false := hfence
      apply ensures_of_does
        (beginCancelLocked_does h hs (contains_of_current h hv hcurrent) hfence)
      intro _ c' hkept hfenced
      exact ⟨hkept, hfenced.trans (View.cancelCurrent_of_current hview hinFlight).symm⟩

theorem cancelCurrent_does (h : c.Wellformed) (hv : c.view.Sound size) :
  Does (cancelCurrent config now) c View.cancelCurrent
  := by
  rw [Does, cancelCurrent, ensures_bind, ensures_get]
  cases hcurrent : c.runtime.currentStatementId with
  | none =>
      have hview : c.view.current = none := hcurrent
      refine ⟨Kept.refl h, ?_⟩
      rw [View.cancelCurrent, hview]
  | some s =>
      obtain ⟨statement, hs, hstarted⟩ := exists_current hv hcurrent
      simp only [ensures_bind, ensures_requireStatement hs]
      rw [when_pos hstarted]
      apply beginCancelLocked_current h hv hcurrent hs

/-- A session that no longer accepts statements is sound. -/
theorem View.Sound.stopAccepting {v : View} (hv : v.Sound size) :
  v.stopAccepting.Sound size
  := by
  obtain ⟨hlane, ⟨hexecuting, hcancelling, hfence, hfenced, hreleased, hlost⟩,
    ⟨hknown, -, hcounted, hbounded⟩⟩ := hv
  refine ⟨?_, ?_, ?_⟩
  · exact ⟨hlane.connecting, hlane.closing, hlane.exited, hlane.closed, hlane.running,
      hlane.current, hlane.inFlight_iff, hlane.outcome⟩
  · refine ⟨hexecuting, hcancelling, hfence, hfenced, hreleased, ?_⟩
    intro hstate
    exact ⟨(hlost hstate).1, rfl, (hlost hstate).2.2⟩
  · exact ⟨hknown, nofun, hcounted, hbounded⟩

/-- The session with a request to close. -/
def View.askClose (size : ℕ) (reason : Text) (v : View) : View :=
  if v.mailbox.length < size then
    { v with accepting := false, mailbox := v.mailbox ++ [.close reason] }
  else
    { v with accepting := false, closePending := some reason }

theorem View.askClose_quiet (reason : Text) {v : View} (h : v.accepting = true) :
  Quiet size v (v.askClose size reason)
  := by
  rw [View.askClose]
  split
  · rename_i hroom
    apply Quiet.putClose reason h hroom
  · rename_i hroom
    apply Quiet.noteClose reason h (Nat.le_of_not_lt hroom)

theorem View.askClose_accepting (size : ℕ) (reason : Text) (v : View) :
  (v.askClose size reason).accepting = false
  := by
  rw [View.askClose]
  split
  · rfl
  · rfl

/-- What is done while the lock is held to ask a lane to close the session: the statement that
is being executed may be cancelled, and quiet steps follow. -/
def Closes (size : ℕ) (cancels : Prop) (v w : View) : Prop :=
  ∃ u, (u = v ∨ cancels ∧ Step size v .plain u ∧ u.lane = v.lane)
    ∧ Relation.ReflTransGen (Quiet size) u w

/-- The session with the cancellation of its statement begun, if it is wanted. -/
def View.cancelIf (cancels : Bool) (v : View) : View :=
  if cancels = true then v.cancelCurrent else v

/-- The session with the statements that wait cancelled, if it is wanted. -/
def View.cancelAcceptedIf (p : Prop) [Decidable p] (v : View) : View :=
  if p then { v with statements := v.cancelling (fun _ => true) } else v

theorem View.cancelIf_closes (cancels : Bool) (v : View) :
  v.cancelIf cancels = v
    ∨ cancels = true ∧ Step size v .plain (v.cancelIf cancels) ∧ (v.cancelIf cancels).lane = v.lane
  := by
  cases cancels with
  | false => exact .inl rfl
  | true =>
      apply (v.cancelCurrent_eq_or_step size).imp id
      intro hstep
      exact ⟨rfl, hstep⟩

theorem View.cancelIf_accepting (cancels : Bool) (v : View) :
  (v.cancelIf cancels).accepting = v.accepting
  := by
  cases cancels with
  | false => rfl
  | true =>
      show v.cancelCurrent.accepting = v.accepting
      obtain hsame | ⟨s, -, -, hfenced⟩ := v.cancelCurrent_cases
      · rw [hsame]
      · rw [hfenced]
        rfl

theorem View.cancelAcceptedIf_quiet (p : Prop) [Decidable p] (v : View) :
  Relation.ReflTransGen (Quiet size) v (v.cancelAcceptedIf p)
  := by
  rw [View.cancelAcceptedIf]
  split
  · exact .single (.cancelQueued _)
  · exact .refl

theorem View.cancelAcceptedIf_accepting (p : Prop) [Decidable p] (v : View) :
  (v.cancelAcceptedIf p).accepting = v.accepting
  := by
  rw [View.cancelAcceptedIf]
  split
  · rfl
  · rfl

theorem putClose_view (config : BrokerConfig) (reason : Text) (h : c.Wellformed) :
  Kept c { c with runtime := putClose config reason c.runtime }
    ∧ ∀ v : View, c.view = v.stopAccepting →
      ({ c with runtime := putClose config reason c.runtime } : Focus).view
        = v.askClose config.mailboxSize reason
  := by
  rw [putClose]
  split
  · rename_i hroom
    constructor
    · apply kept_runtime h
      all_goals rfl
    · intro v hv
      have hmailbox : c.runtime.mailbox = v.mailbox := congrArg View.mailbox hv
      rw [View.askClose, if_pos (by rw [← hmailbox]; exact hroom)]
      show { c.view with mailbox := c.runtime.mailbox ++ [LaneCommand.close reason] } = _
      rw [hv, hmailbox]
      rfl
  · rename_i hroom
    constructor
    · apply kept_runtime h
      all_goals rfl
    · intro v hv
      have hmailbox : c.runtime.mailbox = v.mailbox := congrArg View.mailbox hv
      rw [View.askClose, if_neg (by rw [← hmailbox]; exact hroom)]
      show { c.view with closePending := some reason } = _
      rw [hv]
      rfl

theorem queueCloseLocked_spec {cancels : Bool} (h : c.Wellformed)
    (hv : c.view.Sound config.mailboxSize) :
  Ensures (queueCloseLocked config reason cancels now) c
    (fun _ c' => Kept c c' ∧ Closes config.mailboxSize (cancels = true) c.view c'.view
      ∧ c'.view.accepting = false)
    (fun _ _ => False)
  := by
  rw [queueCloseLocked, ensures_bind, ensures_get, ensures_when]
  constructor
  · intro haccepting
    -- what comes first is done to a session that no longer accepts statements; the steps are
    -- the same as if the request to close came last
    have hstop := kept_runtime h { c.runtime with accepting := false } rfl rfl rfl rfl
    simp only [ensures_bind, ensures_modifyRuntime]
    apply ensures_of_does
    · apply when_does hstop.wellformed
      intro _
      apply cancelCurrent_does hstop.wellformed hv.stopAccepting
    · intro _ c₁ hkept₁ hview₁
      apply ensures_of_does
      · apply when_does hkept₁.wellformed
        intro _
        apply cancelQueuedLocked_does hkept₁.wellformed
      · intro _ c₂ hkept₂ hview₂
        have hkept := (hstop.trans hkept₁).trans hkept₂
        obtain ⟨hkept₃, hview₃⟩ := putClose_view config reason hkept.wellformed
        have hfirst : c₁.view = (c.view.cancelIf cancels).stopAccepting := by
          rw [hview₁, View.cancelIf]
          split
          · apply c.view.cancelCurrent_stopAccepting
          · rfl
        have hsecond : c₂.view = ((c.view.cancelIf cancels).cancelAcceptedIf
            (reason = "shutdown".toList)).stopAccepting := by
          rw [hview₂, hfirst, View.cancelAcceptedIf]
          split
          · rfl
          · rfl
        rw [hview₃ _ hsecond]
        refine ⟨hkept.trans hkept₃, ⟨c.view.cancelIf cancels, c.view.cancelIf_closes cancels, ?_⟩,
          View.askClose_accepting _ _ _⟩
        apply Relation.ReflTransGen.tail
          (View.cancelAcceptedIf_quiet (reason = "shutdown".toList) _)
        apply View.askClose_quiet
        rw [View.cancelAcceptedIf_accepting, View.cancelIf_accepting]
        apply haccepting
  · intro hnot
    exact ⟨Kept.refl h, ⟨c.view, .inl rfl, .refl⟩, (Bool.not_eq_true _).mp hnot⟩

end Closing

end Broker

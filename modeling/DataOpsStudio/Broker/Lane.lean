import DataOpsStudio.Broker.Sections

/-!
# What the lane of a session does

Whatever the lane does between two points of its program is one step of the session, and it
raises nothing.
-/

namespace Broker

open Text Program

/-- A program of the lane ends without raising, keeps the records and is a step of the session,
though not one of those by which the control lane releases the fence. -/
def Advances {α : Type} (size : ℕ) (m : SessionM α) (c : Focus) : Prop :=
  Ensures m c
    (fun _ c' => Kept c c' ∧ ∃ label, label.IsLane ∧ Step size c.view label c'.view)
    (fun _ _ => False)

section Lane

variable {size : ℕ} {c : Focus} {config : BrokerConfig} {now : ℤ}

theorem advances_of_does {m : SessionM Unit} {change : View → View} (h : Does m c change)
    (hstep : Step size c.view .plain (change c.view)) :
  Advances size m c
  := by
  apply ensures_of_does h
  intro _ c' hkept hview
  refine ⟨hkept, .plain, trivial, ?_⟩
  rw [hview]
  apply hstep

/-- Fields that no record depends on may change, and also the point of a lane that has been
started. -/
theorem kept_started (h : c.Wellformed) (hlane : c.runtime.lane ≠ .unstarted)
    (runtime : SessionRuntime) (hsession : runtime.session = c.runtime.session)
    (hstatements : runtime.statements = c.runtime.statements)
    (hrequests : runtime.requests = c.runtime.requests) :
  Kept c { c with runtime := runtime }
  := by
  apply (Kept.refl h).runtime runtime hsession hstatements hrequests
  intro _
  apply h.controlled hlane

/-- A change of the runtime that no record depends on is a step if it changes the view as a
step does. -/
theorem advances_modifyRuntime {f : SessionRuntime → SessionRuntime} (h : c.Wellformed)
    (hsession : (f c.runtime).session = c.runtime.session)
    (hstatements : (f c.runtime).statements = c.runtime.statements)
    (hrequests : (f c.runtime).requests = c.runtime.requests)
    (hlane : c.runtime.lane ≠ .unstarted)
    (hstep : Step size c.view .plain ((f c.runtime).view c.owed)) :
  Advances size (modifyRuntime f) c
  := by
  have hdoes : Does (modifyRuntime f) c (fun _ => (f c.runtime).view c.owed) :=
    modifyRuntime_does h hsession hstatements hrequests (fun _ => hlane) rfl
  apply advances_of_does hdoes hstep

/-! ### Opening the connection -/

theorem laneOpened_advances {marker : Text} (h : c.Wellformed) (hv : c.view.Sound size)
    (hlane : c.runtime.lane = .opening) :
  Advances size (laneOpened config marker now) c
  := by
  have hstate : c.runtime.session.state = .connecting := hv.connecting.mpr (.inr hlane)
  have hedge : SessionEdge c.runtime.session.state .idle := by
    rw [hstate]
    decide
  simp only [Advances, laneOpened, ensures_bind, ensures_get, ensures_transitionSession hedge,
    ensures_assignSession, ensures_modifyRuntime]
  apply ensures_updateSession
  · apply h.sessionStored
  · rw [ensures_setLane]
    constructor
    · have hwaiting := kept_started h (by simp [hlane]) { c.runtime with
        idleDeadline := some (idleDeadlineAfter config now), lane := .waiting } rfl rfl rfl
      apply hwaiting.session_set
      exact ⟨rfl, rfl, rfl, rfl, rfl, rfl⟩
    · exact ⟨.plain, trivial, .opened hlane⟩

/-- A session whose connection is open is idle. -/
theorem laneOpened_idle {marker : Text} (h : c.Wellformed) (hv : c.view.Sound size)
    (hlane : c.runtime.lane = .opening) :
  Ensures (laneOpened config marker now) c (fun _ c' => c'.runtime.session.state = .idle)
    (fun _ _ => False)
  := by
  have hstate : c.runtime.session.state = .connecting := hv.connecting.mpr (.inr hlane)
  have hedge : SessionEdge c.runtime.session.state .idle := by
    rw [hstate]
    decide
  simp only [laneOpened, ensures_bind, ensures_get, ensures_transitionSession hedge,
    ensures_assignSession, ensures_modifyRuntime]
  apply ensures_updateSession
  · apply h.sessionStored
  · rw [ensures_setLane]

theorem laneOpenFailed_advances {errorCode : Text} (h : c.Wellformed) (hv : c.view.Sound size)
    (hlane : c.runtime.lane = .opening) :
  Advances size (laneOpenFailed errorCode now) c
  := by
  have hstate : c.runtime.session.state = .connecting := hv.connecting.mpr (.inr hlane)
  have hstop := kept_runtime h { c.runtime with accepting := false } rfl rfl rfl rfl
  rw [Advances, laneOpenFailed, ensures_bind, ensures_modifyRuntime, ensures_bind]
  apply ensures_of_does
  · apply moveSession_does hstop.wellformed
    · rw [show _ = ConsoleSessionState.connecting from hstate]
      decide
    · intro session
      exact ⟨⟨rfl, rfl, rfl, rfl, rfl, rfl⟩, rfl⟩
  · intro _ c₁ hkept₁ hview₁
    have hlane₁ : c₁.runtime.lane = .opening := (congrArg View.lane hview₁).trans hlane
    apply ensures_of_does
    · apply setLane_does .exited hkept₁.wellformed
      rw [hlane₁]
      nofun
    · intro _ c₂ hkept₂ hview₂
      refine ⟨(hstop.trans hkept₁).trans hkept₂, .laneLose, trivial, ?_⟩
      rw [hview₂, hview₁]
      apply Step.openFailed hlane

/-! ### Starting a statement -/

/-- The statement a lane has taken is known. -/
theorem exists_taken (hv : c.view.Sound size) {s : Text} (hlane : c.runtime.lane.taken = some s) :
  ∃ statement, c.runtime.statements.get? s = some statement
  := by
  apply Focus.exists_statement
  apply hv.known s (.inl hlane)

/-- A session whose lane is between two statements and not fenced is idle, or given up. -/
theorem View.Sound.idle_or_lost {v : View} (hv : v.Sound size) (hrunning : v.lane.running = none)
    (hlane : v.lane ≠ .unstarted ∧ v.lane ≠ .opening ∧ v.lane ≠ .exited)
    (hclosing : ∀ r, v.lane ≠ .closing r) (hfence : ¬ v.Fenced) :
  v.state = .idle ∧ v.inFlight = false ∨ v.state = .sessionLost
  := by
  by_cases hactive : v.state.IsActive
  · left
    constructor
    · apply hv.idle_of_not_fenced hrunning ⟨hlane.1, hlane.2.1⟩ hclosing hfence hactive
    · by_contra hinFlight
      apply hfence
      exact ⟨by simpa using hinFlight, hactive⟩
  · right
    by_contra hlost
    apply hlane.2.2
    apply hv.closed
    rw [ConsoleSessionState.isActive_iff] at hactive
    by_contra hother
    apply hactive
    rw [not_or] at hother
    exact ⟨hother.1, hlost, hother.2⟩

theorem executeStatementStart_advances {s : Text} (h : c.Wellformed) (hv : c.view.Sound size)
    (hlane : c.runtime.lane = .fenced s) (hfence : ¬ c.view.Fenced) :
  Advances size (executeStatementStart s now) c
  := by
  obtain ⟨statement, hs⟩ := exists_taken hv (s := s) (by rw [hlane]; rfl)
  have hstarted : c.runtime.lane ≠ .unstarted := by
    rw [hlane]
    nofun
  have hview : c.view.lane = .fenced s := hlane
  have hidle := hv.idle_or_lost (by rw [hview]; rfl) (by simp [hview]) (by simp [hview]) hfence
  rw [Advances, executeStatementStart, ensures_bind, ensures_requireStatement hs, ensures_bind,
    ensures_get, ensures_ite]
  constructor
  · intro hstate
    apply advances_of_does (setLane_does .checking h hstarted)
    apply Step.skip hlane hfence
    left
    rw [Focus.view_statements hs]
    simpa using hstate
  · intro hstate
    rw [not_not] at hstate
    rw [ensures_ite]
    constructor
    · intro hstopped
      apply advances_of_does (setLane_does .checking h hstarted)
      apply Step.skip hlane hfence
      right
      apply hidle.resolve_left
      intro hstate
      apply hstopped.2.1 hstate.1
    · intro hgoing
      have hnow : c.runtime.session.state = .idle ∧ c.runtime.cancelInFlight = false := by
        apply hidle.resolve_right
        intro hlost
        apply hgoing
        rw [show c.runtime.session.state = .sessionLost from hlost]
        exact ⟨(hv.lost hlost).2.1, by decide, by decide⟩
      have hedge : SessionEdge c.runtime.session.state .executing := by
        rw [hnow.1]
        decide
      have hedge' : StatementEdge statement.state .executing := by
        rw [hstate]
        decide
      have hid := h.keyed s statement hs
      subst hid
      simp only [ensures_bind, ensures_modifyRuntime, ensures_transitionSession hedge,
        ensures_assignSession, ensures_transitionStatement hedge', ensures_assignStatement]
      apply ensures_updateSession
      · apply h.sessionStored
      · apply ensures_updateStatement
        · apply h.statementStored hs
        · apply ensures_recordEvent
          intro events
          rw [ensures_setLane]
          constructor
          · have hpreparing := kept_started h hstarted { c.runtime with
              softCancel := false
              currentStatementId := some statement.id
              statementDeadline := deadlineOf statement now
              lane := .preparing statement.id } rfl rfl rfl
            have hsame : c.runtime.session.Same { c.runtime.session with
                state := .executing, lastActivityAt := now } := ⟨rfl, rfl, rfl, rfl, rfl, rfl⟩
            have hstatement := @Kept.statement_set _ _ (hpreparing.session_set hsame) statement
              { statement with state := .executing, startedAt := some now } hs ⟨rfl, rfl, rfl⟩
            apply hstatement.events events
          · refine ⟨.plain, trivial, ?_⟩
            have hstart : Step size c.view .plain _ := Step.start hlane hnow.1 hnow.2
              (by rw [Focus.view_statements hs, hstate])
            rw [View.put] at hstart
            simp only [Focus.view, Focus.owed, SessionRuntime.view, statesOf_set]
            apply hstart

/-! ### Executing a statement -/

/-- The statement a lane is executing is known. -/
theorem exists_running (hv : c.view.Sound size) {s : Text}
    (hlane : c.runtime.lane.running = some s) :
  ∃ statement, c.runtime.statements.get? s = some statement
  := by
  obtain hcurrent | ⟨-, hended⟩ := hv.current s hlane
  · obtain ⟨statement, hs, -⟩ := exists_current hv hcurrent
    exact ⟨statement, hs⟩
  · apply Focus.exists_statement hended.1

theorem executeStatementStream_advances {s : Text} (h : c.Wellformed) (hv : c.view.Sound size)
    (hlane : c.runtime.lane = .executing s) :
  Advances size (executeStatementStream s) c
  := by
  obtain ⟨statement, hs⟩ := exists_running hv (s := s) (by rw [hlane]; rfl)
  have hstarted : c.runtime.lane ≠ .unstarted := by
    rw [hlane]
    nofun
  rw [Advances, executeStatementStream, ensures_bind, ensures_requireStatement hs, ensures_bind,
    ensures_when]
  constructor
  · intro hstate
    have hid := h.keyed s statement hs
    subst hid
    have hedge : StatementEdge statement.state .streaming := by
      rw [hstate]
      decide
    rw [ensures_bind, ensures_transitionStatement hedge]
    apply Ensures.mono
    · apply saveStatement_spec h
      · apply hs
      · exact ⟨rfl, rfl, rfl⟩
    · rintro _ c₁ ⟨hkept₁, hruntime₁, hcontrols₁⟩
      apply ensures_of_does
      · apply setLane_does (.draining statement.id) hkept₁.wellformed
        rw [hruntime₁]
        apply hstarted
      · intro _ c₂ hkept₂ hview₂
        refine ⟨hkept₁.trans hkept₂, .plain, trivial, ?_⟩
        rw [hview₂, view_of_statement_set hruntime₁ hcontrols₁]
        apply Step.stream hlane
        rw [Focus.view_statements hs, hstate]
    · intro e c' hfalse
      apply hfalse.elim
  · intro hstate
    apply advances_of_does (setLane_does (.draining s) h hstarted)
    apply Step.streamEnded hlane
    rw [Focus.view_statements hs]
    simpa using hstate

/-- The lane may find that a statement has failed, has timed out, was cancelled, or that its
outcome was not observed. -/
theorem edge_of_end {state : ConsoleStatementState}
    (h : state = .failed ∨ state = .timeout ∨ state = .cancelled ∨ state = .outcomeUnknown) :
  StatementEdge .executing state ∧ state.IsTerminal
  := by
  obtain rfl | rfl | rfl | rfl := h
  all_goals decide

theorem executeStatementHandle_advances {s : Text} {error : Option InteractiveExecuteError}
    {alive : Bool} (h : c.Wellformed) (hv : c.view.Sound size)
    (hlane : c.runtime.lane = .handling s error) :
  Advances size (executeStatementHandle s error alive) c
  := by
  obtain ⟨statement, hs⟩ := exists_running hv (s := s) (by rw [hlane]; rfl)
  have hstarted : c.runtime.lane ≠ .unstarted := by
    rw [hlane]
    nofun
  have hfinishing : ∀ outcome : StatementEnd,
      outcome.state = .failed ∨ outcome.state = .timeout ∨ outcome.state = .cancelled
        ∨ outcome.state = .outcomeUnknown →
      Advances size (setLane (.finishing s outcome)) c := by
    intro outcome houtcome
    apply advances_of_does (setLane_does _ h hstarted)
    apply Step.handle outcome hlane (edge_of_end houtcome)
  have hlost : ∀ classified summary, (lostEnd statement classified summary).state = .failed
      ∨ (lostEnd statement classified summary).state = .timeout
      ∨ (lostEnd statement classified summary).state = .cancelled
      ∨ (lostEnd statement classified summary).state = .outcomeUnknown := by
    intro classified summary
    obtain hend | hend := MemoryBrokerStore.unobserved_eq statement
    · exact .inl hend
    · exact .inr (.inr (.inr hend))
  rw [Advances, executeStatementHandle, ensures_bind, ensures_requireStatement hs]
  cases error with
  | none => exact hfinishing _ (.inl rfl)
  | some raised =>
      simp only [ensures_ite]
      refine ⟨?_, fun _ => ⟨?_, fun _ => ⟨?_, fun _ => ⟨?_, ?_⟩⟩⟩⟩
      · intro _
        apply hfinishing _ (hlost _ _)
      · intro _
        exact hfinishing _ (.inr (.inl rfl))
      · intro _
        have hcancelled : ∀ reason : Option CancelReason,
            (if reason = some .timeout then ConsoleStatementState.timeout else .cancelled)
                = .timeout
              ∨ (if reason = some .timeout then ConsoleStatementState.timeout else .cancelled)
                = .cancelled := by
          intro reason
          split
          · exact .inl rfl
          · exact .inr rfl
        rw [ensures_bind, ensures_get, ensures_bind, ensures_when]
        constructor
        · intro _
          rw [ensures_modifyRuntime, ensures_setLane]
          constructor
          · apply kept_started h hstarted
            all_goals rfl
          · refine ⟨.plain, trivial, ?_⟩
            apply Step.confirm _ hlane
            apply edge_of_end
            exact .inr ((hcancelled _).imp id .inl)
        · intro _
          apply hfinishing
          exact .inr ((hcancelled _).imp id .inl)
      · intro _
        apply hfinishing _ (hlost _ _)
      · intro _
        exact hfinishing _ (.inl rfl)

/-! ### Ending a statement -/

section Finish

variable {s : Text} {outcome : StatementEnd}

/-- The session without a fence. -/
def View.release (v : View) : View :=
  { v with
    inFlight := false
    fenced := none
    destroySent := false
    state := if v.state = .cancelling then .idle else v.state }

/-- A statement that has come to an end settles the fence around it. -/
def View.settle (s : Text) (v : View) : View :=
  if v.inFlight = true ∧ v.fenced = some s ∧ (v.confirmed = true ∨ v.controlDone = true)
  then v.release else v

/-- The session once its lane no longer executes a statement. -/
def View.clear (v : View) : View := { v with current := none }

/-- The session once its lane looks for a close that found the mailbox full. -/
def View.checked (v : View) : View := { v with lane := .checking }

/-- A session that has neither a statement nor a fence is idle. -/
def View.rest (v : View) : View :=
  if v.inFlight = false ∧ (v.state = .executing ∨ v.state = .cancelling)
  then { v with state := .idle } else v

theorem View.settle_of_done {v : View} (h : v.inFlight = true ∧ v.fenced = some s
    ∧ (v.confirmed = true ∨ v.controlDone = true)) :
  v.settle s = v.release
  := if_pos h

theorem View.settle_of_not_done {v : View} (h : ¬ (v.inFlight = true ∧ v.fenced = some s
    ∧ (v.confirmed = true ∨ v.controlDone = true))) :
  v.settle s = v
  := if_neg h

/-- The lane of a session with a control lane goes on. -/
theorem setLane_controlled (point : LanePoint) (h : c.Wellformed)
    (hcontrol : c.controls.contains c.runtime.session.datasourceId = true) :
  Does (setLane point) c (fun v => { v with lane := point })
  := by
  constructor
  · apply (Kept.refl h).runtime
    · rfl
    · rfl
    · rfl
    · intro _
      apply hcontrol
  · rfl

theorem settleCancelFenceLocked_ended (h : c.Wellformed) (hs : c.view.Ended s) :
  Does (settleCancelFenceLocked config s now) c (View.settle s)
  := by
  obtain ⟨statement, hstatement⟩ := Focus.exists_statement hs.1
  have hterminal : statement.state.IsTerminal := (ended_iff hstatement).mp hs
  by_cases hrelease : c.view.inFlight = true ∧ c.view.fenced = some s
      ∧ (c.view.confirmed = true ∨ c.view.controlDone = true)
  · obtain ⟨hinFlight, hfenced, hdone⟩ := hrelease
    apply ensures_of_does
    · apply settleCancelFenceLocked_releases h hstatement ⟨hinFlight, hfenced⟩
      exact hdone.imp id (fun hcontrol => ⟨hcontrol, hterminal⟩)
    · intro _ c' hkept hview
      exact ⟨hkept, hview.trans (View.settle_of_done ⟨hinFlight, hfenced, hdone⟩).symm⟩
  · have hheld : Does (settleCancelFenceLocked config s now) c id := by
      by_cases hfence : c.view.inFlight = true ∧ c.view.fenced = some s
      · apply settleCancelFenceLocked_holds h hstatement
        rw [not_and, not_and, not_or] at hrelease
        obtain ⟨hconfirmed, hcontrol⟩ := hrelease hfence.1 hfence.2
        exact ⟨eq_false_of_ne_true hconfirmed, fun hdone => (hcontrol hdone).elim⟩
      · apply settleCancelFenceLocked_of_not_fenced h hfence
    apply ensures_of_does hheld
    intro _ c' hkept hview
    exact ⟨hkept, hview.trans (View.settle_of_not_done hrelease).symm⟩

/-- What is left to do once a statement has come to an end. -/
theorem afterEnd_does (h : c.Wellformed)
    (hcontrol : c.controls.contains c.runtime.session.datasourceId = true)
    (hs : c.view.Ended s) (hcurrent : c.view.current = none ∨ c.view.current = some s) :
  Does (do
      Program.when ((← get).runtime.currentStatementId = some s) clearCurrent
      settleCancelFenceLocked config s now
      let runtime := (← get).runtime
      Program.when (runtime.cancelInFlight = false
          ∧ (runtime.session.state = .executing ∨ runtime.session.state = .cancelling))
        (becomeIdle config now)
      setLane .checking) c
    (fun v => (v.clear.settle s).rest.checked)
  := by
  rw [Does, ensures_bind, ensures_get, ensures_bind]
  apply ensures_of_does
  · apply when_does h
    intro _
    apply clearCurrent_does h
  · intro _ c₁ hkept₁ hview₁
    have hcleared : c₁.view = c.view.clear := by
      rw [hview₁]
      split
      · rfl
      · rename_i hne
        have hnone : c.view.current = none := hcurrent.resolve_right hne
        rw [View.clear, ← hnone]
    have hended₁ : c₁.view.Ended s := by
      rw [hcleared]
      apply hs
    rw [ensures_bind]
    apply ensures_of_does (settleCancelFenceLocked_ended hkept₁.wellformed hended₁)
    intro _ c₂ hkept₂ hview₂
    rw [ensures_bind, ensures_get, ensures_bind]
    apply ensures_of_does
    · apply when_does hkept₂.wellformed
      rintro ⟨-, hstate⟩
      apply becomeIdle_does hkept₂.wellformed
      obtain hstate | hstate := hstate
      all_goals
        rw [hstate]
        decide
    · intro _ c₃ hkept₃ hview₃
      have hkept := (hkept₁.trans hkept₂).trans hkept₃
      apply ensures_of_does
      · apply setLane_controlled .checking hkept.wellformed
        apply hkept.contains.trans hcontrol
      · intro _ c₄ hkept₄ hview₄
        refine ⟨hkept.trans hkept₄, ?_⟩
        rw [hview₄, hview₃, ← hcleared, ← hview₂]
        rfl

/-- In a session that has been given up nothing is left to do. -/
theorem View.rest_settle_of_lost {v : View} (hlost : v.state = .sessionLost)
    (hfence : v.inFlight = false) :
  (v.settle s).rest = v
  := by
  rw [View.settle_of_not_done (by simp [hfence]), View.rest, if_neg (by simp [hlost])]

/-- A session that has no fence becomes idle. -/
theorem View.rest_settle_of_not_fenced {v : View} (hfence : v.inFlight = false)
    (hstate : v.state = .idle ∨ v.state = .executing ∨ v.state = .cancelling) :
  (v.settle s).rest = { v with state := .idle }
  := by
  rw [View.settle_of_not_done (by simp [hfence]), View.rest]
  split
  · rfl
  · rename_i hne
    have hidle : v.state = .idle := hstate.resolve_right (fun h => hne ⟨hfence, h⟩)
    rw [← hidle]

/-- A session whose fence is released becomes idle. -/
theorem View.rest_settle_of_done {v : View} (hfence : v.inFlight = true) (hs : v.fenced = some s)
    (hdone : v.confirmed = true ∨ v.controlDone = true)
    (hstate : v.state = .idle ∨ v.state = .cancelling) :
  (v.settle s).rest
    = { v with inFlight := false, fenced := none, destroySent := false, state := .idle }
  := by
  have hreleased : v.release.state = .idle := by
    rw [View.release]
    obtain hstate | hstate := hstate
    all_goals
      rw [hstate]
      rfl
  rw [View.settle_of_done ⟨hfence, hs, hdone⟩, View.rest, if_neg (by simp [hreleased]),
    View.release]
  congr 1

/-- A session whose fence is not released stays as it is. -/
theorem View.rest_settle_of_held {v : View} (hfence : v.inFlight = true)
    (hheld : ¬ (v.confirmed = true ∨ v.controlDone = true)) :
  (v.settle s).rest = v
  := by
  rw [View.settle_of_not_done (fun h => hheld h.2.2), View.rest, if_neg (by simp [hfence])]

/-- The session once a statement has come to an end. -/
def View.ended (v : View) (s : Text) (x : ConsoleStatementState) : View :=
  { v with statements := v.put s x }

/-- The end of a statement in a session that has not been given up. -/
theorem step_of_end {v : View} (hv : v.Sound size) (hlane : v.lane = .finishing s outcome)
    (hstate : v.state ≠ .sessionLost) (hlost : outcome.connectionLost = false) :
  ∃ label, label.IsLane
    ∧ Step size v label ((v.ended s outcome.state).clear.settle s).rest.checked
  := by
  obtain ⟨hcurrent, hactive⟩ := hv.state_of_running (s := s) (by rw [hlane]; rfl) hstate
  cases hfence : v.inFlight with
  | false =>
      refine ⟨.plain, trivial, ?_⟩
      rw [View.rest_settle_of_not_fenced (v := (v.ended s outcome.state).clear) hfence hactive]
      apply Step.finishIdle hlane hstate hlost hfence
  | true =>
      obtain ⟨hidle, s', hs', hown⟩ := hv.fence hfence
      have hfenced : v.fenced = some s := by
        rw [hcurrent] at hown
        rw [hs', hown.resolve_left nofun]
      by_cases hdone : v.confirmed = true ∨ v.controlDone = true
      · refine ⟨.laneRelease, trivial, ?_⟩
        rw [View.rest_settle_of_done (v := (v.ended s outcome.state).clear) hfence hfenced hdone
          hidle]
        apply Step.finishReleasing hlane hstate hlost hfence hdone
      · refine ⟨.plain, trivial, ?_⟩
        rw [View.rest_settle_of_held (v := (v.ended s outcome.state).clear) hfence hdone]
        apply Step.finishFenced hlane hstate hlost hfence

theorem executeStatementFinish_advances (h : c.Wellformed) (hv : c.view.Sound size)
    (hlane : c.runtime.lane = .finishing s outcome) :
  Advances size (executeStatementFinish config s outcome now) c
  := by
  obtain ⟨statement, hs⟩ := exists_running hv (s := s) (by rw [hlane]; rfl)
  have hstarted : c.runtime.lane ≠ .unstarted := by
    rw [hlane]
    nofun
  rw [Advances, executeStatementFinish, ensures_bind, ensures_requireStatement hs, ensures_bind]
  by_cases hlost : c.runtime.session.state = .sessionLost
  · -- the statement has come to an end when the session was given up
    obtain ⟨hfence, -, hcurrent⟩ := hv.lost hlost
    have hended : c.view.Ended s := by
      have hrunning := hv.current s (by rw [show c.view.lane = _ from hlane]; rfl)
      rw [hcurrent] at hrunning
      apply (hrunning.resolve_left nofun).2
    rw [when_neg (not_not_intro ((ended_iff hs).mp hended)), ensures_pure, ensures_bind, ensures_get,
      ensures_bind, when_neg (fun hcond => hcond.2 hlost), ensures_pure]
    apply advances_of_does (afterEnd_does h (h.controlled hstarted) hended (.inl hcurrent))
    have hsame : c.view.clear = c.view := by
      rw [View.clear, ← hcurrent]
    rw [hsame, View.rest_settle_of_lost hlost hfence]
    apply Step.finishAfterLoss hlane hlost
  · obtain ⟨hcurrent, hactive⟩ := hv.state_of_running (s := s)
      (by rw [show c.view.lane = _ from hlane]; rfl) hlost
    obtain ⟨hedge, hterminal⟩ := hv.outcome s outcome hlane
    have hinFlight : statement.state.IsInFlight :=
      (inFlight_view_iff hs).mp ((hv.inFlight_iff s).mpr hcurrent)
    rw [when_pos (by rw [ConsoleStatementState.isTerminal_iff]; grind), ensures_bind]
    apply Ensures.mono
    · apply setStatementState_spec h hs
      apply Step.edge_finish hv hlane hlost (Focus.view_statements hs)
    · rintro updated c₁ ⟨hkept₁, -, -, hview₁⟩
      apply ensures_of_does (recordEvent_does _ _ _ hkept₁.wellformed)
      intro _ c₂ hkept₂ hview₂
      have hkept := hkept₁.trans hkept₂
      have hview : c₂.view = c.view.ended s outcome.state := hview₂.trans hview₁
      have hcontrol := hkept.contains.trans (h.controlled hstarted)
      have hended : (c.view.ended s outcome.state).Ended s := by
        rw [ConsoleStatementState.isTerminal_iff] at hterminal
        simpa [View.Ended, View.InFlight, View.ended] using hterminal
      rw [ensures_bind, ensures_get, ensures_bind]
      cases hconnection : outcome.connectionLost with
      | false =>
          rw [when_neg (by simp), ensures_pure]
          apply ensures_of_does
          · apply afterEnd_does hkept.wellformed hcontrol
            · rw [hview]
              apply hended
            · rw [hview]
              exact .inr hcurrent
          · intro _ c₃ hkept₃ hview₃
            refine ⟨hkept.trans hkept₃, ?_⟩
            rw [hview₃, hview]
            apply step_of_end hv hlane hlost hconnection
      | true =>
          have hstate : c₂.runtime.session.state = c.view.state := congrArg View.state hview
          rw [when_pos ⟨rfl, by rw [hstate]; exact hlost⟩]
          apply ensures_of_does
          · apply loseSessionLocked_does _ hkept.wellformed
            · rw [hstate]
              apply hlost
            · rw [hstate]
              obtain hstate | hstate | hstate := hactive
              all_goals
                rw [hstate]
                decide
          · intro _ c₃ hkept₃ hview₃
            rw [hview] at hview₃
            apply ensures_of_does
            · apply afterEnd_does hkept₃.wellformed (hkept₃.contains.trans hcontrol)
              · rw [hview₃]
                apply hended
              · rw [hview₃]
                exact .inr hcurrent
            · intro _ c₄ hkept₄ hview₄
              refine ⟨(hkept.trans hkept₃).trans hkept₄, .laneLose, trivial, ?_⟩
              rw [hview₄, View.rest_settle_of_lost, hview₃]
              · apply Step.finishLosing hlane hlost hconnection
              · rw [hview₃]
                rfl
              · rw [hview₃]
                rfl
    · intro e c' hfalse
      apply hfalse.elim

end Finish

/-! ### Closing the session -/

section Closing

variable {reason : Text}

theorem closeIfPendingAndDrained_advances (h : c.Wellformed)
    (hlane : c.runtime.lane = .checking) :
  Advances size closeIfPendingAndDrained c
  := by
  have hstarted : c.runtime.lane ≠ .unstarted := by
    rw [hlane]
    nofun
  have hwaiting : c.view.closePending = none ∨ c.view.mailbox ≠ [] →
      Advances size (setLane .waiting) c := by
    intro hpending
    apply advances_of_does (setLane_does .waiting h hstarted)
    apply Step.check hlane hpending
  rw [Advances, closeIfPendingAndDrained, ensures_bind, ensures_get]
  dsimp only
  split
  · rename_i hpending
    exact hwaiting (.inl hpending)
  · rename_i reason hpending
    rw [ensures_ite]
    constructor
    · intro hempty
      apply advances_modifyRuntime h
      · rfl
      · rfl
      · rfl
      · apply hstarted
      · apply Step.checkClose hlane hpending hempty
    · intro hfull
      exact hwaiting (.inr hfull)

theorem closeOnLaneBegin_advances (h : c.Wellformed) (hv : c.view.Sound size)
    (hlane : c.runtime.lane = .closeFenced reason) (hfence : ¬ c.view.Fenced) :
  Advances size (closeOnLaneBegin reason now) c
  := by
  have hstarted : c.runtime.lane ≠ .unstarted := by
    rw [hlane]
    nofun
  have hview : c.view.lane = .closeFenced reason := hlane
  rw [Advances, closeOnLaneBegin, ensures_bind, ensures_get, ensures_ite]
  constructor
  · intro hstate
    apply advances_of_does (setLane_does .exited h hstarted)
    apply Step.exit hlane
    rw [ConsoleSessionState.isActive_iff]
    rintro ⟨hclosed, hlost, hfailed⟩
    obtain hstate | hstate | hstate := hstate
    · apply hclosed hstate
    · apply hlost hstate
    · apply hfailed hstate
  · intro hstate
    rw [not_or, not_or] at hstate
    have hactive : c.view.state.IsActive := ConsoleSessionState.isActive_iff.mpr hstate
    have hidle : c.runtime.session.state = .idle :=
      hv.idle_of_not_fenced (by rw [hview]; rfl) (by simp [hview]) (by simp [hview]) hfence hactive
    rw [ensures_bind, when_pos (by rw [hidle]; decide)]
    apply ensures_of_does
    · apply moveSession_does h
      · rw [hidle]
        decide
      · intro session
        exact ⟨⟨rfl, rfl, rfl, rfl, rfl, rfl⟩, rfl⟩
    · intro _ c₁ hkept₁ hview₁
      apply ensures_of_does
      · apply setLane_controlled (.closing reason) hkept₁.wellformed
        apply hkept₁.contains.trans (h.controlled hstarted)
      · intro _ c₂ hkept₂ hview₂
        refine ⟨hkept₁.trans hkept₂, .plain, trivial, ?_⟩
        rw [hview₂, hview₁]
        apply Step.beginClose hlane hfence hactive

theorem closeOnLaneEnd_advances (h : c.Wellformed) (hv : c.view.Sound size)
    (hlane : c.runtime.lane = .closing reason) :
  Advances size (closeOnLaneEnd reason now) c
  := by
  have hstarted : c.runtime.lane ≠ .unstarted := by
    rw [hlane]
    nofun
  have hstate : c.runtime.session.state = .closing := hv.closing.mpr ⟨reason, hlane⟩
  have hedge : SessionEdge c.runtime.session.state .closed := by
    rw [hstate]
    decide
  simp only [Advances, closeOnLaneEnd, ensures_bind, ensures_get, ensures_transitionSession hedge,
    ensures_assignSession, ensures_modifyRuntime]
  apply ensures_updateSession
  · apply h.sessionStored
  · rw [ensures_setLane]
    constructor
    · have hexited := kept_started h hstarted { c.runtime with
        idleDeadline := none, lane := .exited } rfl rfl rfl
      apply hexited.session_set
      exact ⟨rfl, rfl, rfl, rfl, rfl, rfl⟩
    · exact ⟨.plain, trivial, .endClose hlane⟩

end Closing

/-! ### The program of a lane -/

theorem laneGet_advances {m : SessionM Unit} (h : c.Wellformed)
    (hlane : c.runtime.lane = .waiting) (hget : laneGet c.runtime = some m) :
  Advances size m c
  := by
  have hstarted : c.runtime.lane ≠ .unstarted := by
    rw [hlane]
    nofun
  rw [laneGet] at hget
  split at hget
  · cases hget
  · rename_i s rest hmail
    obtain rfl := Option.some.inj hget
    apply advances_modifyRuntime h
    · rfl
    · rfl
    · rfl
    · apply hstarted
    · apply Step.takeExecute hlane hmail
  · rename_i reason rest hmail
    obtain rfl := Option.some.inj hget
    apply advances_modifyRuntime h
    · rfl
    · rfl
    · rfl
    · apply hstarted
    · apply Step.takeClose _ hlane hmail

/-- Whatever a lane does next is a step of its session. -/
theorem laneNext_advances {input : LaneInput} {m : SessionM Unit} (h : c.Wellformed)
    (hv : c.view.Sound size) (hnext : laneNext config c.runtime input now = some m) :
  Advances size m c
  := by
  have hstarted : c.runtime.lane ≠ .unstarted := by
    intro hlane
    unfold laneNext at hnext
    rw [hlane] at hnext
    cases hnext
  have hsetLane : ∀ point, Step size c.view .plain { c.view with lane := point } →
      Advances size (setLane point) c :=
    fun point hstep => advances_of_does (setLane_does point h hstarted) hstep
  unfold laneNext at hnext
  split at hnext
  case h_1 marker hlane =>
    obtain rfl := Option.some.inj hnext
    apply laneOpened_advances h hv hlane
  case h_2 errorCode hlane =>
    obtain rfl := Option.some.inj hnext
    apply laneOpenFailed_advances h hv hlane
  case h_3 hlane => apply laneGet_advances h hlane hnext
  case h_4 s hlane =>
    obtain rfl := Option.some.inj hnext
    apply advances_modifyRuntime h
    · rfl
    · rfl
    · rfl
    · apply hstarted
    · apply Step.countOff hlane
  case h_5 s hlane =>
    split at hnext
    · cases hnext
    · rename_i hfence
      obtain rfl := Option.some.inj hnext
      apply executeStatementStart_advances h hv hlane hfence
  case h_6 s hlane =>
    obtain rfl := Option.some.inj hnext
    apply hsetLane _ (Step.handOver hlane)
  case h_7 s hlane =>
    obtain rfl := Option.some.inj hnext
    apply hsetLane _ (Step.raise none (.inl hlane))
  case h_8 s hlane =>
    obtain rfl := Option.some.inj hnext
    apply executeStatementStream_advances h hv hlane
  case h_9 s error hlane =>
    obtain rfl := Option.some.inj hnext
    apply hsetLane _ (Step.raise error (.inr (.inl hlane)))
  case h_10 s hlane =>
    obtain rfl := Option.some.inj hnext
    apply hsetLane _ (Step.drained hlane)
  case h_11 s error hlane =>
    obtain rfl := Option.some.inj hnext
    apply hsetLane _ (Step.raise error (.inr (.inr hlane)))
  case h_12 s error alive hlane =>
    obtain rfl := Option.some.inj hnext
    apply executeStatementHandle_advances h hv hlane
  case h_13 s outcome hlane =>
    obtain rfl := Option.some.inj hnext
    apply executeStatementFinish_advances h hv hlane
  case h_14 hlane =>
    obtain rfl := Option.some.inj hnext
    apply closeIfPendingAndDrained_advances h hlane
  case h_15 reason hlane =>
    split at hnext
    · cases hnext
    · rename_i hfence
      obtain rfl := Option.some.inj hnext
      apply closeOnLaneBegin_advances h hv hlane hfence
  case h_16 reason hlane =>
    obtain rfl := Option.some.inj hnext
    apply closeOnLaneEnd_advances h hv hlane
  case h_17 => cases hnext

end Lane

end Broker

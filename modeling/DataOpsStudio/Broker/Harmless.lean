import DataOpsStudio.Broker.Outage

/-!
# Writes that may raise without harm

Some writes of a lane or a client may raise without harm: nothing is left to do after them, or
the exception is caught, or the client is told and the statement is in order.  If no other write
raises, the memory of the broker is that of one whose store does not fail, so that no lane is
killed and no statement is left behind.
-/

namespace Broker

open Text Program

/-- The writes that may raise without harm. -/
def Write.IsHarmless : Write → Prop
  | .openFailedSession => True
  | .streamStatement => True
  | .publish => True
  | .finalize => True
  | .closedSession => True
  | .createStatement => True
  | .failStatement => True
  | .failEvent => True
  | .submitEvent => True
  | _ => False

instance : (site : Write) → Decidable site.IsHarmless
  | .openedSession => inferInstanceAs (Decidable False)
  | .openFailedSession => inferInstanceAs (Decidable True)
  | .startSession => inferInstanceAs (Decidable False)
  | .startStatement => inferInstanceAs (Decidable False)
  | .startEvent => inferInstanceAs (Decidable False)
  | .streamStatement => inferInstanceAs (Decidable True)
  | .publish => inferInstanceAs (Decidable True)
  | .finalize => inferInstanceAs (Decidable True)
  | .endStatement => inferInstanceAs (Decidable False)
  | .endEvent => inferInstanceAs (Decidable False)
  | .loseSession => inferInstanceAs (Decidable False)
  | .settleSession => inferInstanceAs (Decidable False)
  | .idleSession => inferInstanceAs (Decidable False)
  | .closingSession => inferInstanceAs (Decidable False)
  | .closedSession => inferInstanceAs (Decidable True)
  | .createStatement => inferInstanceAs (Decidable True)
  | .failStatement => inferInstanceAs (Decidable True)
  | .failEvent => inferInstanceAs (Decidable True)
  | .acceptStatement => inferInstanceAs (Decidable False)
  | .submitEvent => inferInstanceAs (Decidable True)

/-- No write raises but those that may. -/
def Outage.IsHarmless (fails : Outage) : Prop := ∀ site, fails site = true → site.IsHarmless

/-! ### Programs whose writes do not raise -/

section Reliable

variable {fails : Outage} {config : BrokerConfig} {now : ℤ}

theorem Outage.IsHarmless.off (h : fails.IsHarmless) (site : Write) (hsite : ¬ site.IsHarmless) :
  fails site = false
  := by
  by_contra hfails
  apply hsite
  apply h
  simpa using hfails

theorem write_off {α : Type} {site : Write} (h : fails site = false) (m : StoreM α) :
  fails.write site m = onStore m
  := by
  rw [Outage.write, h]
  rfl

theorem write_on {α : Type} {site : Write} (h : fails site = true) (m : StoreM α) :
  fails.write site m = throw (.storeError [])
  := by
  rw [Outage.write, h]
  rfl

theorem saveStatement_off {site : Write} (h : fails site = false) (statement : ConsoleStatement) :
  fails.saveStatement site statement = saveStatement statement
  := by
  rw [Outage.saveStatement, write_off h]
  rfl

theorem moveSession_off {site : Write} (h : fails site = false) (target : ConsoleSessionState)
    (change : ConsoleSession → ConsoleSession) :
  fails.moveSession site target change = moveSession target change
  := by
  simp only [Outage.moveSession, write_off h]
  rfl

theorem recordEvent_off {site : Write} (h : fails site = false) (statementId eventType : Text)
    (now : ℤ) :
  fails.recordEvent site statementId eventType now = recordEvent statementId eventType now
  := write_off h _

theorem setStatementState_off {site : Write} (h : fails site = false)
    (statement : ConsoleStatement) (state : ConsoleStatementState) (now : ℤ)
    (errorCode errorSummary : Option Text) :
  fails.setStatementState site statement state now errorCode errorSummary
    = setStatementState statement state now none errorCode errorSummary
  := by
  simp only [Outage.setStatementState, saveStatement_off h]
  rfl

theorem becomeIdle_off {site : Write} (h : fails site = false) :
  fails.becomeIdle site config now = becomeIdle config now
  := by
  simp only [Outage.becomeIdle, write_off h]
  rfl

theorem settleCancelFenceLocked_off (h : fails .settleSession = false) (statementId : Text) :
  fails.settleCancelFenceLocked config statementId now
    = settleCancelFenceLocked config statementId now
  := by
  simp only [Outage.settleCancelFenceLocked, becomeIdle_off h]
  rfl

theorem loseSessionLocked_off (h : fails .loseSession = false) (reason : Text) :
  fails.loseSessionLocked reason now = loseSessionLocked reason now
  := by
  simp only [Outage.loseSessionLocked, write_off h]
  rfl

theorem laneOpenFailed_off (h : fails .openFailedSession = false) (errorCode : Text) :
  fails.laneOpenFailed errorCode now = laneOpenFailed errorCode now
  := by
  simp only [Outage.laneOpenFailed, moveSession_off h]
  rfl

theorem laneOpened_off (h : fails .openedSession = false) (marker : Text) :
  fails.laneOpened config marker now = laneOpened config marker now
  := by
  simp only [Outage.laneOpened, write_off h]
  rfl

theorem executeStatementStart_off (hsession : fails .startSession = false)
    (hstatement : fails .startStatement = false) (hevent : fails .startEvent = false)
    (statementId : Text) :
  fails.executeStatementStart statementId now = executeStatementStart statementId now
  := by
  simp only [Outage.executeStatementStart, write_off hsession, write_off hstatement,
    recordEvent_off hevent]
  rfl

/-- What is raised when a result is sealed does not matter. -/
theorem finalizeResult_eq (fails : Outage) :
  fails.finalizeResult = pure ()
  := by
  rw [Outage.finalizeResult, Outage.write]
  cases fails .finalize with
  | false => rfl
  | true => rfl

theorem executeStatementFinish_off (h : fails.IsHarmless) (statementId : Text)
    (outcome : StatementEnd) :
  fails.executeStatementFinish config statementId outcome now
    = executeStatementFinish config statementId outcome now
  := by
  simp only [Outage.executeStatementFinish, finalizeResult_eq,
    setStatementState_off (h.off .endStatement id), recordEvent_off (h.off .endEvent id),
    loseSessionLocked_off (h.off .loseSession id),
    settleCancelFenceLocked_off (h.off .settleSession id),
    becomeIdle_off (h.off .idleSession id)]
  rfl

theorem closeOnLaneBegin_off (h : fails .closingSession = false) (reason : Text) :
  fails.closeOnLaneBegin reason now = closeOnLaneBegin reason now
  := by
  simp only [Outage.closeOnLaneBegin, moveSession_off h]
  rfl

theorem closeOnLaneEnd_off (h : fails .closedSession = false) (reason : Text) :
  fails.closeOnLaneEnd reason now = closeOnLaneEnd reason now
  := by
  simp only [Outage.closeOnLaneEnd, write_off h]
  rfl

end Reliable

/-! ### The lane -/

section Lane

variable {fails : Outage} {config : BrokerConfig} {c c' : Focus} {now : ℤ}

/-- If only writes without harm raise, a lane goes on as if none did, except where such a write
is made. -/
theorem laneNext_cases {runtime : SessionRuntime} {input : LaneInput} {m : SessionM Unit}
    (h : fails.IsHarmless) (hm : fails.laneNext config runtime input now = some m) :
  laneNext config runtime input now = some m
    ∨ (∃ code, runtime.lane = .opening ∧ input = .openFailed code
      ∧ m = fails.laneOpenFailed code now)
    ∨ (∃ s, runtime.lane = .executing s ∧ input = .returned ∧ m = fails.executeStatementStream s)
    ∨ (∃ s, runtime.lane = .draining s ∧ input = .returned ∧ m = fails.executeStatementDrained s)
    ∨ (∃ r, runtime.lane = .closing r ∧ input = .proceed ∧ m = fails.closeOnLaneEnd r now)
  := by
  unfold Outage.laneNext at hm
  split at hm
  case h_1 marker hlane =>
    left
    unfold laneNext
    rw [hlane, ← hm, laneOpened_off (h.off .openedSession id)]
  case h_2 code hlane =>
    obtain rfl := Option.some.inj hm
    exact .inr (.inl ⟨code, hlane, rfl, rfl⟩)
  case h_3 s hlane =>
    left
    unfold laneNext
    rw [hlane, ← hm, executeStatementStart_off (h.off .startSession id) (h.off .startStatement id)
      (h.off .startEvent id)]
  case h_4 s hlane =>
    obtain rfl := Option.some.inj hm
    exact .inr (.inr (.inl ⟨s, hlane, rfl, rfl⟩))
  case h_5 s hlane =>
    obtain rfl := Option.some.inj hm
    exact .inr (.inr (.inr (.inl ⟨s, hlane, rfl, rfl⟩)))
  case h_6 s outcome hlane =>
    left
    unfold laneNext
    rw [hlane, ← hm, executeStatementFinish_off h]
  case h_7 r hlane =>
    left
    unfold laneNext
    rw [hlane, ← hm, closeOnLaneBegin_off (h.off .closingSession id)]
  case h_8 r hlane =>
    obtain rfl := Option.some.inj hm
    exact .inr (.inr (.inr (.inr ⟨r, hlane, rfl, rfl⟩)))
  case h_9 => exact .inl hm

theorem exit_alike (h : c.Alike c') :
  ({ c with runtime := { c.runtime with lane := .exited } } : Focus).Alike
    { c' with runtime := { c'.runtime with lane := .exited } }
  := by
  constructor
  · rw [h.memory]
  · apply h.store

/-- A connection that could not be opened ends the lane, whether or not the store fails. -/
theorem laneOpenFailed_alike (h : c.Alike c') (hc' : c'.Wellformed)
    (hstate : c'.runtime.session.state = .connecting) (code : Text) :
  (stateOf ((onLane (fails.laneOpenFailed code now)).run c)).Alike
    (stateOf ((onLane (laneOpenFailed code now)).run c'))
  := by
  cases hfails : fails .openFailedSession with
  | false =>
      rw [laneOpenFailed_off hfails]
      apply Matched.stateOf
      apply matched_onRaise (laneOpenFailed_uniform _ _ _ _ h)
      intro c c' h
      apply exit_alike h
  | true =>
      obtain ⟨hmemory, hstore⟩ := h
      generalize c'.store = store' at hmemory hstore
      subst hmemory
      have hedge : SessionEdge c.runtime.session.state .connectFailed := by
        rw [show c.runtime.session.state = _ from hstate]
        decide
      apply stateOf_related
      simp only [onLane, ensures_onRaise, Outage.laneOpenFailed, Outage.moveSession, laneOpenFailed,
        moveSession, ensures_bind, ensures_modifyRuntime, ensures_get,
        ensures_transitionSession hedge, ensures_assignSession, write_on hfails, ensures_throw]
      apply ensures_updateSession
      · apply hc'.sessionStored
      · rw [ensures_setLane]
        constructor
        · rfl
        · apply hstore.setSession_right hc'.stored
          · rfl
          · simp [ConsoleSessionState.isActive_iff]

/-- A session that has been closed ends its lane, whether or not the store fails. -/
theorem closeOnLaneEnd_alike (h : c.Alike c') (hc' : c'.Wellformed)
    (hstate : c'.runtime.session.state = .closing) (reason : Text) :
  (stateOf ((onLane (fails.closeOnLaneEnd reason now)).run c)).Alike
    (stateOf ((onLane (closeOnLaneEnd reason now)).run c'))
  := by
  cases hfails : fails .closedSession with
  | false =>
      rw [closeOnLaneEnd_off hfails]
      apply Matched.stateOf
      apply matched_onRaise (closeOnLaneEnd_uniform _ _ _ _ h)
      intro c c' h
      apply exit_alike h
  | true =>
      obtain ⟨hmemory, hstore⟩ := h
      generalize c'.store = store' at hmemory hstore
      subst hmemory
      have hedge : SessionEdge c.runtime.session.state .closed := by
        rw [show c.runtime.session.state = _ from hstate]
        decide
      apply stateOf_related
      simp only [onLane, ensures_onRaise, Outage.closeOnLaneEnd, closeOnLaneEnd, ensures_bind,
        ensures_modifyRuntime, ensures_get, ensures_transitionSession hedge,
        ensures_assignSession, write_on hfails, ensures_throw]
      apply ensures_updateSession
      · apply hc'.sessionStored
      · rw [ensures_setLane]
        constructor
        · rfl
        · apply hstore.setSession_right hc'.stored
          · rfl
          · simp [ConsoleSessionState.isActive_iff]

/-- The session when the rows of a statement have begun to arrive. -/
def Focus.streaming (c : Focus) (statement : ConsoleStatement) : Focus :=
  { c with
    runtime := { c.runtime with
      statements := c.runtime.statements.set statement.id { statement with state := .streaming }
      lane := .draining statement.id }
    store := { c.store with
      statements := c.store.statements.set statement.id { statement with state := .streaming } } }

theorem stateOf_executeStatementStream (hc : c.Wellformed) {statement : ConsoleStatement}
    (hs : c.runtime.statements.get? statement.id = some statement)
    (hstate : statement.state = .executing) :
  stateOf ((onLane (executeStatementStream statement.id)).run c) = c.streaming statement
  := by
  have hedge : StatementEdge statement.state .streaming := by
    rw [hstate]
    decide
  apply Ensures.stateOf (P := fun t => t = _)
  rw [onLane, ensures_onRaise, executeStatementStream, ensures_bind, ensures_requireStatement hs,
    ensures_bind, when_pos hstate, ensures_bind, ensures_transitionStatement hedge, saveStatement,
    ensures_bind, ensures_assignStatement]
  apply ensures_updateStatement
  · apply hc.statementStored hs
  · rw [ensures_setLane]
    rfl

/-- A write that raises when the rows begin to arrive does what an exception does that is raised
then. -/
theorem executeStatementStream_alike (h : c.Alike c') (hc' : c'.Wellformed)
    {statement : ConsoleStatement} (hs : c'.runtime.statements.get? statement.id = some statement)
    (hstate : statement.state = .executing) (hfails : fails .streamStatement = true) :
  (stateOf ((onLane (fails.executeStatementStream statement.id)).run c)).Alike
    (stateOf ((onLane (setLane (.handling statement.id none))).run
      (stateOf ((onLane (executeStatementStream statement.id)).run c'))))
  := by
  rw [stateOf_executeStatementStream hc' hs hstate]
  obtain ⟨hmemory, hstore⟩ := h
  generalize c'.store = store' at hmemory hstore
  subst hmemory
  have hs' : c.runtime.statements.get? statement.id = some statement := hs
  have hedge : StatementEdge statement.state .streaming := by
    rw [hstate]
    decide
  apply stateOf_related
  rw [onLane, ensures_onRaise, Outage.executeStatementStream, ensures_rescue, ensures_bind,
    ensures_requireStatement hs', ensures_bind, when_pos hstate, ensures_bind,
    ensures_transitionStatement hedge, Outage.saveStatement, ensures_bind,
    ensures_assignStatement, write_on hfails, ensures_throw, ensures_setLane, onLane,
    ensures_onRaise, ensures_setLane]
  constructor
  · rfl
  · apply hstore.setStatement_right ((hc'.mirrored _ _).mp hs).1
    rfl

/-- No statement is written when the rows of one arrive that has come to an end. -/
theorem executeStatementStream_ended {s : Text} {statement : ConsoleStatement}
    (h : c.Alike c') (hs : c'.runtime.statements.get? s = some statement)
    (hstate : statement.state ≠ .executing) :
  (stateOf ((onLane (fails.executeStatementStream s)).run c)).Alike
    (stateOf ((onLane (executeStatementStream s)).run c'))
  := by
  obtain ⟨hmemory, hstore⟩ := h
  generalize c'.store = store' at hmemory hstore
  subst hmemory
  have hs' : c.runtime.statements.get? s = some statement := hs
  apply stateOf_related
  rw [onLane, ensures_onRaise, Outage.executeStatementStream, ensures_rescue, ensures_bind,
    ensures_requireStatement hs', ensures_bind, when_neg hstate, ensures_pure, ensures_setLane,
    onLane, ensures_onRaise, executeStatementStream, ensures_bind, ensures_requireStatement hs,
    ensures_bind, when_neg hstate, ensures_pure, ensures_setLane]
  constructor
  · rfl
  · apply hstore

/-- What is caught does not matter if nothing is raised. -/
theorem rescue_alike {m handler : SessionM Unit} (hm : Uniform Focus.Alike m) (h : c.Alike c')
    (hok : Ensures m c' (fun _ _ => True) (fun _ _ => False)) :
  (stateOf ((onLane (rescue m handler)).run c)).Alike (stateOf ((onLane m).run c'))
  := by
  have hmatched := hm c c' h
  rw [Ensures] at hok
  show (stateOf (onLane (rescue m handler) c)).Alike (stateOf (onLane m c'))
  rw [onLane, onLane, onRaise, onRaise, rescue]
  rw [EStateM.run, EStateM.run] at hmatched
  rw [EStateM.run] at hok
  revert hmatched hok
  generalize m c = x
  generalize m c' = y
  intro hok hmatched
  cases hmatched with
  | ok a h => apply h
  | error e h => exact hok.elim

/-- The session after a step of its lane. -/
theorem stateOf_laneStep {b : SessionBroker} {k : Text} {runtime : SessionRuntime}
    (hk : b.sessions.get? k = some runtime) (input : LaneInput) (m : SessionM Unit) :
  stateOf ((do
      noteExecuted runtime input
      onRuntime k (onLane m) : BrokerM Unit).run b)
    = (b.noting (b.history.hand (runtime.handed input))).unfocus k
        (stateOf ((onLane m).run (b.focus runtime)))
  := by
  have hget : (b.noting (b.history.hand (runtime.handed input))).sessions.get? k
      = some runtime := hk
  apply Ensures.stateOf (P := fun t => t = _)
  rw [ensures_bind, ensures_noteExecuted, ensures_onRuntime hget]
  apply (ensures_stateOf _ _).mono
  · rintro _ c rfl
    rfl
  · rintro e c rfl
    rfl

/-- A step of the lane of a session in a broker whose store does not fail. -/
theorem step_lane {b : SessionBroker} {k : Text} {runtime : SessionRuntime} {input : LaneInput}
    {m : SessionM Unit} (hk : b.sessions.get? k = some runtime)
    (hm : laneNext config runtime input now = some m) :
  (brokerSystem config).step b (.lane k input now)
    ((b.noting (b.history.hand (runtime.handed input))).unfocus k
      (stateOf ((onLane m).run (b.focus runtime))))
  := by
  refine ⟨trivial, _, ?_, (stateOf_laneStep hk input m).symm⟩
  show laneStep config b k input now = _
  rw [laneStep, hk, Option.bind_some, hm]
  rfl

theorem noting_hand_nil (b : SessionBroker) :
  b.noting (b.history.hand []) = b
  := by
  rw [History.hand, List.append_nil]
  rfl

/-- A lane that does not hand a statement over leaves the history alone. -/
theorem noting_handed {b : SessionBroker} {runtime : SessionRuntime} {input : LaneInput}
    (hlane : ∀ s, runtime.lane ≠ .preparing s) :
  b.noting (b.history.hand (runtime.handed input)) = b
  := by
  have hnone : runtime.handed input = [] := by
    unfold SessionRuntime.handed
    split
    · rename_i s hpreparing
      exact (hlane s hpreparing).elim
    · rfl
  rw [hnone, noting_hand_nil]

/-- A step of a lane in which only writes without harm raise leaves the memory that a step of the
lane leaves when no write raises; if a statement cannot be written when its rows begin to arrive,
it takes two. -/
theorem laneStep_alike {b b' : SessionBroker} {k : Text} {runtime : SessionRuntime}
    {input : LaneInput} {m : BrokerM Unit} (h : b.Alike b') (hb' : b'.Sound config)
    (hfails : fails.IsHarmless) (hk : b.sessions.get? k = some runtime)
    (hm : fails.laneStep config b k input now = some m) :
  ∃ b'', (stateOf (m.run b)).Alike b'' ∧ ((∃ input', (brokerSystem config).step b'
      (.lane k input' now) b'')
    ∨ ∃ s b₁ runtime', runtime.lane = .executing s
      ∧ (brokerSystem config).step b' (.lane k .returned now) b₁
      ∧ (brokerSystem config).step b₁ (.lane k (.raised none) now) b''
      ∧ b''.sessions.get? k = some runtime' ∧ runtime'.lane = .handling s none)
  := by
  rw [Outage.laneStep, hk, Option.bind_some] at hm
  obtain ⟨next, hnext, rfl⟩ := Option.map_eq_some_iff.mp hm
  have hk' : b'.sessions.get? k = some runtime := by
    rw [h.memory]
    apply hk
  have hwf := hb'.wellformed k runtime hk'
  have hv := hb'.view k runtime hk'
  have hfocus : (b.focus runtime).Alike (b'.focus runtime) := h.focus runtime
  have hnoting : (b.noting (b.history.hand (runtime.handed input))).Alike
      (b'.noting (b'.history.hand (runtime.handed input))) := by
    have hhistory : b'.history = b.history := by rw [h.memory]
    rw [hhistory]
    exact ⟨by rw [h.memory]; rfl, h.store⟩
  rw [stateOf_laneStep hk]
  -- one step of the lane does it if the sessions are left alike
  have hone : ∀ m', laneNext config runtime input now = some m' →
      (stateOf ((onLane next).run (b.focus runtime))).Alike
        (stateOf ((onLane m').run (b'.focus runtime))) →
      ∃ b'', ((b.noting (b.history.hand (runtime.handed input))).unfocus k
          (stateOf ((onLane next).run (b.focus runtime)))).Alike b''
        ∧ ((∃ input', (brokerSystem config).step b' (.lane k input' now) b'')
          ∨ ∃ s b₁ runtime', runtime.lane = .executing s
            ∧ (brokerSystem config).step b' (.lane k .returned now) b₁
            ∧ (brokerSystem config).step b₁ (.lane k (.raised none) now) b''
            ∧ b''.sessions.get? k = some runtime' ∧ runtime'.lane = .handling s none) := by
    intro m' hm' halike
    exact ⟨_, hnoting.unfocus halike k, .inl ⟨input, step_lane hk' hm'⟩⟩
  obtain hsame | ⟨code, hlane, rfl, rfl⟩ | ⟨s, hlane, rfl, rfl⟩ | ⟨s, hlane, rfl, rfl⟩
      | ⟨r, hlane, rfl, rfl⟩ := laneNext_cases hfails hnext
  · apply hone next hsame
    apply Matched.stateOf
    apply matched_onRaise (laneNext_uniform hsame _ _ hfocus)
    intro c c' h
    apply exit_alike h
  · apply hone (laneOpenFailed code now)
    · unfold laneNext
      rw [hlane]
    · apply laneOpenFailed_alike hfocus hwf
      exact hv.connecting.mpr (.inr hlane)
  · have hnext' : laneNext config runtime .returned now = some (executeStatementStream s) := by
      unfold laneNext
      rw [hlane]
    obtain ⟨statement, hs⟩ := exists_running hv (s := s)
      (by rw [show (b'.focus runtime).runtime.lane = _ from hlane]; rfl)
    by_cases hstate : statement.state = .executing
    · cases hraises : fails .streamStatement with
      | false =>
          apply hone _ hnext'
          rw [Outage.executeStatementStream]
          simp only [saveStatement_off hraises]
          apply rescue_alike (executeStatementStream_uniform s) hfocus
          apply (executeStatementStream_advances hwf hv hlane).mono
          · intro _ c _
            trivial
          · intro e c hfalse
            apply hfalse
      | true =>
          obtain rfl := hwf.keyed s statement hs
          have hquiet : ∀ s, runtime.lane ≠ .preparing s := by
            simp [hlane]
          have hstep := step_lane hk' hnext'
          have halike := executeStatementStream_alike hfocus hwf hs hstate hraises
          rw [stateOf_executeStatementStream hwf hs hstate] at hstep halike
          have hraise : laneNext config ((b'.focus runtime).streaming statement).runtime
              (.raised none) now = some (setLane (.handling statement.id none)) := rfl
          rw [noting_handed hquiet] at hstep ⊢
          have hsecond := step_lane (unfocus_get?_self (b := b') (k := k)) hraise
          rw [noting_handed (by simp [Focus.streaming])] at hsecond
          refine ⟨_, ?_, .inr ⟨statement.id, _, _, hlane, hstep, hsecond, unfocus_get?_self, rfl⟩⟩
          have hset : ∀ c₁ c₂ : Focus, (b'.unfocus k c₁).unfocus k c₂ = b'.unfocus k c₂ := by
            intro c₁ c₂
            simp only [SessionBroker.unfocus, Dict.set_set]
          rw [hset]
          apply h.unfocus halike
    · apply hone _ hnext'
      apply executeStatementStream_ended hfocus hs hstate
  · cases hraises : fails .publish with
    | false =>
        apply hone (setLane (.finishing s { state := .succeeded }))
        · unfold laneNext
          rw [hlane]
        · rw [Outage.executeStatementDrained, write_off hraises]
          apply rescue_alike (setLane_uniform _) hfocus trivial
    | true =>
        have hquiet : ∀ s, runtime.lane ≠ .preparing s := by
          simp [hlane]
        have hraise : laneNext config runtime (.raised none) now
            = some (setLane (.handling s none)) := by
          unfold laneNext
          rw [hlane]
        have hstep := step_lane hk' hraise
        rw [noting_handed hquiet] at hstep ⊢
        refine ⟨_, h.unfocus ?_ k, .inl ⟨_, hstep⟩⟩
        apply Matched.stateOf
        rw [Outage.executeStatementDrained, write_on hraises]
        apply matched_onRaise (setLane_uniform (.handling s none) _ _ hfocus)
        intro c c' h
        apply exit_alike h
  · apply hone (closeOnLaneEnd r now)
    · unfold laneNext
      rw [hlane]
    · apply closeOnLaneEnd_alike hfocus hwf
      exact hv.closing.mpr ⟨r, hlane⟩

end Lane

/-! ### Submitting -/

section Submit

variable {fails : Outage} {config : BrokerConfig} {now : ℤ}

/-- A statement without a result set fails in memory, whether or not the store fails. -/
theorem enqueueStatement_refused {c c' : Focus} {statement : ConsoleStatement} (h : c.Alike c')
    (hs : c'.store.statements.get? statement.id = some statement)
    (hstate : statement.state = .accepted) :
  (stateOf ((fails.enqueueStatement config statement none now).run c)).Alike
    (stateOf ((enqueueStatement config statement none now).run c'))
  := by
  obtain ⟨hmemory, hstore⟩ := h
  generalize c'.store = store' at hmemory hstore hs
  subst hmemory
  have hedge : StatementEdge statement.state .failed := by
    rw [hstate]
    decide
  have hcontains : store'.statements.contains statement.id = true := by
    rw [Dict.contains, hs]
    rfl
  -- the statement as it is in memory afterwards
  let failed := { statement with
    state := .failed
    cancelRequested := (none : Option Bool).getD statement.cancelRequested
    errorCode := some "resultstore_error".toList
    errorSummary := some "statement result set could not be created".toList
    finishedAt := if ConsoleStatementState.failed.IsTerminal then some now
      else statement.finishedAt }
  let after (events : List ConsoleStatementEvent) : Focus := { c with
    runtime := { c.runtime with
      statements := c.runtime.statements.set statement.id failed }
    store := { store' with
      statements := store'.statements.set statement.id failed
      events := events } }
  have hright : ∃ events, stateOf ((enqueueStatement config statement none now).run
      { c with store := store' }) = after events := by
    apply Ensures.stateOf (P := fun t => ∃ events, t = after events)
    simp only [enqueueStatement, setStatementState, ensures_bind,
      ensures_transitionStatement hedge, saveStatement, ensures_assignStatement, ensures_pure]
    apply ensures_updateStatement hcontains
    apply ensures_recordEvent
    intro events
    rw [ensures_throw]
    exact ⟨events, rfl⟩
  obtain ⟨events, hright⟩ := hright
  rw [hright]
  apply Ensures.stateOf (P := fun t : Focus => t.Alike (after events))
  simp only [Outage.enqueueStatement, Outage.setStatementState, ensures_bind,
    ensures_transitionStatement hedge, Outage.saveStatement, ensures_assignStatement, ensures_pure]
  cases hfirst : fails .failStatement with
  | true =>
      rw [write_on hfirst, ensures_throw]
      constructor
      · rfl
      · have hwritten : c.store.Alike { store' with
            statements := store'.statements.set statement.id failed } :=
          hstore.setStatement_right hs rfl
        exact hwritten.setEvents c.store.events events
  | false =>
      rw [write_off hfirst]
      apply ensures_updateStatement
      · rw [← hstore.containsStatement]
        apply hcontains
      · cases hsecond : fails .failEvent with
        | true =>
            rw [Outage.recordEvent, write_on hsecond, ensures_throw]
            constructor
            · rfl
            · apply (hstore.setStatement _ _).setEvents
        | false =>
            rw [recordEvent_off hsecond]
            apply ensures_recordEvent
            intro events'
            rw [ensures_throw]
            constructor
            · rfl
            · apply (hstore.setStatement _ _).setEvents

/-- A statement that has been recorded is put in the mailbox, or fails, whether or not a write
without harm raises. -/
theorem enqueueStatement_alike {c c' : Focus} {statement : ConsoleStatement}
    {resultSetId : Option Text} (h : c.Alike c') (hfails : fails.IsHarmless)
    (hs : c'.store.statements.get? statement.id = some statement)
    (hstate : statement.state = .accepted) :
  (stateOf ((fails.enqueueStatement config statement resultSetId now).run c)).Alike
    (stateOf ((enqueueStatement config statement resultSetId now).run c'))
  := by
  cases resultSetId with
  | none => apply enqueueStatement_refused h hs hstate
  | some resultSet =>
      simp only [Outage.enqueueStatement, enqueueStatement,
        saveStatement_off (hfails.off .acceptStatement id)]
      apply (saveStatement_uniform _ _ _ h).stateOf_bind (fun _ _ h => h)
      intro _ c c' h
      have hruntime : c'.runtime = c.runtime := by rw [h.memory]
      show Focus.Alike (stateOf (EStateM.run (if c.runtime.mailbox.length < _ then _ else _) c))
        (stateOf (EStateM.run (if c'.runtime.mailbox.length < _ then _ else _) c'))
      rw [hruntime]
      split
      · apply (modifyRuntime_uniform _ _ _ h).stateOf_bind (fun _ _ h => h)
        intro _ c c' h
        cases hevent : fails .submitEvent with
        | true =>
            rw [Outage.recordEvent, write_on hevent]
            constructor
            · rw [h.memory]
              rfl
            · apply h.store.setEvents
        | false =>
            rw [recordEvent_off hevent]
            apply (recordEvent_uniform _ _ _ _ _ h).stateOf_bind (fun _ _ h => h)
            intro _ c c' h
            apply h
      · apply h

/-- A statement is recorded in a session that does not know the request. -/
theorem recordStatement_run {c : Focus} {request : SubmitRequest} (statementId : Text) (now : ℤ)
    (hnone : c.store.findRequest c.runtime.session.id request.clientRequestId = none) :
  (recordStatement request statementId now).run c
    = .ok (MemoryBrokerStore.newStatement c.runtime.session statementId
        (c.store.nextSeq c.runtime.session.id) request.clientRequestId request.sql
        request.timeoutSeconds now false, false)
      (c.record (MemoryBrokerStore.newStatement c.runtime.session statementId
        (c.store.nextSeq c.runtime.session.id) request.clientRequestId request.sql
        request.timeoutSeconds now false))
  := by
  apply Ensures.run
  simp only [recordStatement, onStore, MemoryBrokerStore.createStatement, ensures_bind, ensures_get,
    ensures_onPart, hnone, ensures_modify, ensures_pure, ensures_modifyRuntime]
  exact ⟨trivial, rfl⟩

theorem onRuntime_run {b : SessionBroker} {k : Text} {runtime : SessionRuntime} {α : Type}
    {m : SessionM α} {a : α} {c : Focus} (hk : b.sessions.get? k = some runtime)
    (hm : m.run (b.focus runtime) = .ok a c) :
  (onRuntime k m).run b = .ok a (b.unfocus k c)
  := by
  apply Ensures.run
  rw [ensures_onRuntime hk, Ensures, hm]
  exact ⟨rfl, rfl⟩

theorem stateOf_onRuntime {b : SessionBroker} {k : Text} {runtime : SessionRuntime} {α : Type}
    (hk : b.sessions.get? k = some runtime) (m : SessionM α) :
  stateOf ((onRuntime k m).run b) = b.unfocus k (stateOf (m.run (b.focus runtime)))
  := by
  apply Ensures.stateOf (P := fun d => d = _)
  rw [ensures_onRuntime hk]
  apply (ensures_stateOf _ _).mono
  · rintro _ c rfl
    rfl
  · rintro e c rfl
    rfl

/-- If the statement cannot be recorded, nothing is changed. -/
theorem acceptStatement_unmade {b : SessionBroker} {request : SubmitRequest} {statementId : Text}
    {resultSetId : Option Text} {runtime : SessionRuntime}
    (hk : b.sessions.get? request.sessionId = some runtime)
    (hfails : fails .createStatement = true) :
  stateOf ((fails.acceptStatement config request statementId resultSetId now).run b) = b
  := by
  have hsame : b.unfocus request.sessionId (b.focus runtime) = b := by
    simp only [SessionBroker.unfocus, SessionBroker.focus, Dict.set_of_get? hk]
  apply Ensures.stateOf (P := fun d => d = b)
  rw [Outage.acceptStatement, ensures_bind, ensures_onRuntime hk, Outage.recordStatement,
    ensures_bind, ensures_get, ensures_bind, write_on hfails, ensures_throw]
  apply hsame

/-- A statement that is recorded is put in the mailbox, or fails, whether or not a write without
harm raises. -/
theorem acceptStatement_alike {b b' : SessionBroker} {request : SubmitRequest} {statementId : Text}
    {resultSetId : Option Text} {runtime : SessionRuntime} (h : b.Alike b')
    (hb' : b'.Sound config) (hfails : fails.IsHarmless) (hcreate : fails .createStatement = false)
    (hk : b.sessions.get? request.sessionId = some runtime)
    (hrequest : runtime.requests.get? request.clientRequestId = none) :
  (stateOf ((fails.acceptStatement config request statementId resultSetId now).run b)).Alike
    (stateOf ((acceptStatement config request statementId resultSetId now).run b'))
  := by
  have hk' : b'.sessions.get? request.sessionId = some runtime := by
    rw [h.memory]
    apply hk
  have hnone' : b'.store.findRequest runtime.session.id request.clientRequestId = none :=
    findRequest_eq_none (hb'.wellformed _ _ hk') (hb'.requested _ _ hk') hrequest
  have hnone : b.store.findRequest runtime.session.id request.clientRequestId = none := by
    have hsame := h.store.findRequest runtime.session.id request.clientRequestId
    rw [hnone'] at hsame
    simpa using hsame.symm
  have hrecord : fails.recordStatement request statementId now
      = recordStatement request statementId now := by
    simp only [Outage.recordStatement, write_off hcreate]
    rfl
  have hseq := h.store.nextSeq runtime.session.id
  have hleft := onRuntime_run hk (recordStatement_run (c := b.focus runtime) statementId now hnone)
  have hright := onRuntime_run hk'
    (recordStatement_run (c := b'.focus runtime) statementId now hnone')
  have hst : MemoryBrokerStore.newStatement (b'.focus runtime).runtime.session statementId
      ((b'.focus runtime).store.nextSeq (b'.focus runtime).runtime.session.id)
        request.clientRequestId request.sql request.timeoutSeconds now false
      = MemoryBrokerStore.newStatement (b.focus runtime).runtime.session statementId
      ((b.focus runtime).store.nextSeq (b.focus runtime).runtime.session.id)
        request.clientRequestId request.sql request.timeoutSeconds now false := by
    show MemoryBrokerStore.newStatement runtime.session statementId
      (b'.store.nextSeq runtime.session.id) _ _ _ _ _ = _
    rw [hseq]
    rfl
  rw [hst] at hright
  generalize hnew : MemoryBrokerStore.newStatement (b.focus runtime).runtime.session statementId
    ((b.focus runtime).store.nextSeq (b.focus runtime).runtime.session.id)
      request.clientRequestId request.sql request.timeoutSeconds now false = st at hleft hright
  rw [Outage.acceptStatement, acceptStatement, EStateM.run_bind, EStateM.run_bind, hrecord, hleft,
    hright]
  dsimp only
  have hrecorded : ((b.focus runtime).record st).Alike ((b'.focus runtime).record st) := by
    constructor
    · rw [h.memory]
      rfl
    · apply h.store.setStatement
  have hentered := (h.unfocus hrecorded request.sessionId).change
    (f := fun d => d.enter st.id request.sessionId) (fun _ _ => rfl)
  show (stateOf (EStateM.run (onRuntime request.sessionId
      (fails.enqueueStatement config st resultSetId now) >>= fun statement => pure _)
        ((b.unfocus request.sessionId ((b.focus runtime).record st)).enter st.id
          request.sessionId))).Alike
    (stateOf (EStateM.run (onRuntime request.sessionId
      (enqueueStatement config st resultSetId now) >>= fun statement => pure _)
        ((b'.unfocus request.sessionId ((b'.focus runtime).record st)).enter st.id
          request.sessionId)))
  have hget : ∀ (d : SessionBroker) (c : Focus),
      ((d.unfocus request.sessionId c).enter st.id request.sessionId).sessions.get?
        request.sessionId = some c.runtime := fun d c => unfocus_get?_self
  rw [stateOf_bind_pure, stateOf_bind_pure, stateOf_onRuntime (hget _ _),
    stateOf_onRuntime (hget _ _)]
  apply hentered.unfocus
  apply enqueueStatement_alike hrecorded hfails
  · apply Dict.get?_set_self
  · rw [← hnew]
    rfl

/-- To submit leaves the memory that it leaves when no write raises, or none has been changed. -/
theorem submit_alike {b b' : SessionBroker} {request : SubmitRequest} {statementId : Text}
    {resultSetId : Option Text} (h : b.Alike b') (hb' : b'.Sound config)
    (hfails : fails.IsHarmless) :
  (stateOf ((fails.submit config request statementId resultSetId now).run b)).Alike b'
    ∨ (stateOf ((fails.submit config request statementId resultSetId now).run b)).Alike
      (stateOf ((submit config request statementId resultSetId now).run b'))
  := by
  -- the programs refuse at the same places, and there nothing has been changed
  let R (d d' : SessionBroker) : Prop := d.Alike b' ∨ d.Alike d'
  show R _ _
  have hrefused : ∀ d d', d = b ∧ d' = b' → R d d' := by
    rintro _ _ ⟨rfl, rfl⟩
    exact .inl h
  have hwhen : ∀ {p : Prop} [Decidable p] (e : BrokerExn),
      Uniform (fun d d' => d = b ∧ d' = b') (Program.when p (throw e) : BrokerM Unit) :=
    fun e => uniform_when (uniform_throw e)
  have hvalidate : Uniform (fun d d' => d = b ∧ d' = b') (validateSubmit request) := by
    apply (hwhen _).bind
    intro _
    apply (hwhen _).bind
    intro _
    apply hwhen
  have hsessions : b'.sessions = b.sessions := by rw [h.memory]
  have hrun : ∀ d : SessionBroker, (requireRuntime request.sessionId).run d
      = (Program.demand (.brokerError "session_lost".toList none)
        (d.sessions.get? request.sessionId)).run d := fun d => rfl
  apply (hvalidate b b' ⟨rfl, rfl⟩).stateOf_bind hrefused
  rintro _ d d' ⟨hd, hd'⟩
  rw [hd, hd', EStateM.run_bind, EStateM.run_bind, hrun, hrun, hsessions]
  cases hk : b.sessions.get? request.sessionId with
  | none => exact .inl h
  | some runtime =>
      rw [demand_some]
      apply (hwhen _ b b' ⟨rfl, rfl⟩).stateOf_bind hrefused
      rintro _ d d' ⟨hd, hd'⟩
      rw [hd, hd']
      cases hrequest : runtime.requests.get? request.clientRequestId with
      | some replayId =>
          dsimp only
          left
          cases runtime.statements.get? replayId with
          | none => exact h
          | some statement => exact h
      | none =>
          dsimp only
          split
          · exact .inl h
          · split
            · exact .inl h
            · cases hcreate : fails .createStatement with
              | true =>
                  left
                  rw [acceptStatement_unmade hk hcreate]
                  exact h
              | false =>
                  right
                  apply acceptStatement_alike h hb' hfails hcreate hk hrequest

end Submit

/-! ### Runs -/

section Runs

variable {config : BrokerConfig} {b b' c : SessionBroker} {attempt : Attempt}

/-- Whatever happens while only writes without harm raise leaves the memory that is left when no
write raises. -/
theorem attempt_alike (h : b.Alike b') (hb' : b'.Sound config)
    (hfails : attempt.fails.IsHarmless) (hstep : b.attempt config attempt = some c) :
  ∃ c', (brokerSystem config).Later b' c' ∧ c.Alike c'
  := by
  obtain ⟨action, fails⟩ := attempt
  rw [SessionBroker.attempt] at hstep
  split at hstep
  · rename_i hfresh
    obtain ⟨m, hm, rfl⟩ := Option.map_eq_some_iff.mp hstep
    have hfresh' := fresh_alike h hfresh
    have hother : ¬ action.IsSubmit → (∀ k input now, action ≠ .lane k input now) →
        ∃ c', (brokerSystem config).Later b' c' ∧ (stateOf (m.run b)).Alike c' := by
      intro hsubmit hlane
      have hsame : perform config b action = some m := by
        rw [← hm]
        cases action with
        | submit request statementId resultSetId now => exact (hsubmit trivial).elim
        | lane k input now => exact (hlane k input now rfl).elim
        | _ => rfl
      obtain ⟨m', hm', halike⟩ := perform_alike h hb' hsubmit hsame
      exact ⟨_, .single ⟨action, hfresh', m', hm', rfl⟩, halike⟩
    cases action with
    | submit request statementId resultSetId now =>
        obtain rfl := Option.some.inj hm
        have hdiscard : ∀ (n : BrokerM SubmitReceipt) (d : SessionBroker),
            stateOf ((discard n).run d) = stateOf (n.run d) := fun n d => stateOf_bind_pure n _ d
        rw [hdiscard]
        obtain halike | halike := submit_alike h hb' hfails
        · exact ⟨b', .refl, halike⟩
        · refine ⟨_, .single ⟨.submit request statementId resultSetId now, hfresh', _, rfl, rfl⟩,
            ?_⟩
          rw [hdiscard]
          apply halike
    | lane k input now =>
        obtain ⟨runtime, hk, -⟩ := Option.bind_eq_some_iff.mp hm
        obtain ⟨c', halike, ⟨input', hstep'⟩ | ⟨s, b₁, runtime', -, hfirst, hsecond, -⟩⟩ :=
          laneStep_alike h hb' hfails hk hm
        · exact ⟨c', .single ⟨_, hstep'⟩, halike⟩
        · exact ⟨c', .tail (.single ⟨_, hfirst⟩) ⟨_, hsecond⟩, halike⟩
    | _ => exact hother id nofun
  · cases hstep

/-- No write raises in a step but those that may. -/
def Attempt.IsHarmless (attempt : Attempt) : Prop := attempt.fails.IsHarmless

/-- A broker in which only writes without harm raise has the memory of one whose store does not
fail. -/
theorem exists_alike
    (h : ((failingSystem config).restrict (fun _ attempt => attempt.IsHarmless)).Reachable b) :
  ∃ b', (brokerSystem config).Reachable b' ∧ b.Alike b'
  := by
  induction h with
  | initial h =>
      obtain ⟨bootId, rfl⟩ := h
      exact ⟨_, .initial ⟨bootId, rfl⟩, rfl, .refl _⟩
  | step _ h ih =>
      obtain ⟨b', hb', halike⟩ := ih
      obtain ⟨hstep, hfails⟩ := h
      obtain ⟨c', hlater, halike⟩ := attempt_alike halike (reachable_sound hb') hfails hstep
      exact ⟨c', hb'.later hlater, halike⟩

end Runs

end Broker

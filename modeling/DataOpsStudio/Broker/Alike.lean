import DataOpsStudio.Broker.System

/-!
# Stores that a broker does not tell apart

A broker keeps the sessions and statements it works on in memory, and of the store it reads
little: the epochs, which sessions and statements there are, and what is said of a session that
is active.  Two stores that agree about this are alike, and a program on a session does the
same whichever of them it works on.
-/

namespace Broker

open Text Program

/-! ### Stores -/

/-- What the store is asked about a statement when another is created. -/
def ConsoleStatement.identity (statement : ConsoleStatement) : Text × Text × ℕ :=
  (statement.sessionId, statement.clientRequestId, statement.seq)

/-- Two stores agree about what a broker reads.  The second is the one that is up to date. -/
structure MemoryBrokerStore.Alike (store store' : MemoryBrokerStore) : Prop where
  sessions : store'.sessions.mapValues ConsoleSession.brokerBootId
    = store.sessions.mapValues ConsoleSession.brokerBootId
  active : ∀ k row, store'.sessions.get? k = some row → row.state.IsActive →
    store.sessions.get? k = some row
  statements : store'.statements.mapValues ConsoleStatement.identity
    = store.statements.mapValues ConsoleStatement.identity
  epochs : store'.epochs = store.epochs

namespace MemoryBrokerStore.Alike

variable {store store' : MemoryBrokerStore}

theorem refl (store : MemoryBrokerStore) :
  store.Alike store
  := by
  constructor
  · rfl
  · intro k row hk _
    apply hk
  · rfl
  · rfl

theorem containsSession (h : store.Alike store') (k : Text) :
  store'.sessions.contains k = store.sessions.contains k
  := by
  rw [← Dict.contains_mapValues ConsoleSession.brokerBootId, h.sessions, Dict.contains_mapValues]

theorem containsStatement (h : store.Alike store') (k : Text) :
  store'.statements.contains k = store.statements.contains k
  := by
  rw [← Dict.contains_mapValues ConsoleStatement.identity, h.statements, Dict.contains_mapValues]

/-- A session may be written to both stores. -/
theorem setSession (h : store.Alike store') (k : Text) (session : ConsoleSession) :
  ({ store with sessions := store.sessions.set k session } : MemoryBrokerStore).Alike
    { store' with sessions := store'.sessions.set k session }
  := by
  constructor
  · rw [Dict.mapValues_set, Dict.mapValues_set, h.sessions]
  · intro k' row hk' hactive
    rw [Dict.get?_set] at hk' ⊢
    split at hk'
    · rename_i hk
      rw [if_pos hk]
      apply hk'
    · rename_i hk
      rw [if_neg hk]
      apply h.active k' row hk' hactive
  · apply h.statements
  · apply h.epochs

/-- A statement may be written to both stores. -/
theorem setStatement (h : store.Alike store') (k : Text) (statement : ConsoleStatement) :
  ({ store with statements := store.statements.set k statement } : MemoryBrokerStore).Alike
    { store' with statements := store'.statements.set k statement }
  := by
  constructor
  · apply h.sessions
  · apply h.active
  · rw [Dict.mapValues_set, Dict.mapValues_set, h.statements]
  · apply h.epochs

/-- What is recorded of events does not matter. -/
theorem setEvents (h : store.Alike store') (events events' : List ConsoleStatementEvent) :
  ({ store with events := events } : MemoryBrokerStore).Alike { store' with events := events' }
  := ⟨h.sessions, h.active, h.statements, h.epochs⟩

/-- A session that is no longer active may be written to the second store only. -/
theorem setSession_right (h : store.Alike store') {k : Text} {old session : ConsoleSession}
    (hold : store'.sessions.get? k = some old) (hboot : session.brokerBootId = old.brokerBootId)
    (hactive : ¬ session.state.IsActive) :
  store.Alike { store' with sessions := store'.sessions.set k session }
  := by
  constructor
  · rw [Dict.mapValues_set, hboot, Dict.set_of_get?, h.sessions]
    rw [Dict.get?_mapValues, hold]
    rfl
  · intro k' row hk' hrow
    rw [Dict.get?_set] at hk'
    split at hk'
    · rw [Option.some.inj hk'] at hactive
      exact (hactive hrow).elim
    · apply h.active k' row hk' hrow
  · apply h.statements
  · apply h.epochs

/-- A statement may be written to the second store only, if it stays the same statement. -/
theorem setStatement_right (h : store.Alike store') {k : Text} {old statement : ConsoleStatement}
    (hold : store'.statements.get? k = some old)
    (hidentity : statement.identity = old.identity) :
  store.Alike { store' with statements := store'.statements.set k statement }
  := by
  constructor
  · apply h.sessions
  · apply h.active
  · rw [Dict.mapValues_set, hidentity, Dict.set_of_get?, h.statements]
    rw [Dict.get?_mapValues, hold]
    rfl
  · apply h.epochs

/-- The statement of a client request is found in both stores or in none. -/
theorem findRequest (h : store.Alike store') (sessionId clientRequestId : Text) :
  (store'.findRequest sessionId clientRequestId).isSome
    = (store.findRequest sessionId clientRequestId).isSome
  := by
  have hvalues : ∀ s : MemoryBrokerStore, (s.findRequest sessionId clientRequestId).isSome
      = (s.statements.mapValues ConsoleStatement.identity).values.any (fun identity =>
        identity.1 = sessionId ∧ identity.2.1 = clientRequestId) := by
    intro s
    rw [Dict.values_mapValues, List.any_map, MemoryBrokerStore.findRequest, List.isSome_find?]
    rfl
  rw [hvalues, hvalues, h.statements]

theorem nextSeq (h : store.Alike store') (sessionId : Text) :
  store'.nextSeq sessionId = store.nextSeq sessionId
  := by
  have hvalues : ∀ s : MemoryBrokerStore, s.nextSeq sessionId
      = 1 + (((s.statements.mapValues ConsoleStatement.identity).values.filter (fun identity =>
        identity.1 = sessionId)).map (fun identity => identity.2.2)).foldl max 0 := by
    intro s
    rw [Dict.values_mapValues, List.filter_map, List.map_map]
    rfl
  rw [hvalues, hvalues, h.statements]

theorem nextEpoch (h : store.Alike store') (consoleId : Text) :
  store'.nextEpoch consoleId = store.nextEpoch consoleId
  := by
  rw [MemoryBrokerStore.nextEpoch, h.epochs, MemoryBrokerStore.nextEpoch]

/-- Stores stay alike when they are swept. -/
theorem startupSweep (h : store.Alike store') (bootId : Text) (now : ℤ) :
  (MemoryBrokerStore.startupSweep bootId now store).2.Alike
    (MemoryBrokerStore.startupSweep bootId now store').2
  := by
  have hboot : ConsoleSession.brokerBootId ∘ sweepSession bootId now
      = ConsoleSession.brokerBootId := by
    funext session
    rw [Function.comp_apply, sweepSession]
    split
    · rfl
    · rfl
  have hidentity : ∀ s, ConsoleStatement.identity ∘ sweepStatement s bootId now
      = ConsoleStatement.identity := by
    intro s
    funext statement
    rw [Function.comp_apply, sweepStatement]
    split
    · rfl
    · rfl
  constructor
  · simp only [MemoryBrokerStore.startupSweep, Dict.mapValues_mapValues, hboot, h.sessions]
  · intro k row hk hactive
    rw [MemoryBrokerStore.startupSweep, Dict.get?_mapValues] at hk ⊢
    obtain ⟨session, hsession, rfl⟩ := Option.map_eq_some_iff.mp hk
    rw [h.active k session hsession]
    · rfl
    · rw [sweepSession] at hactive
      split at hactive
      · exact absurd hactive (by simp [ConsoleSessionState.isActive_iff])
      · apply hactive
  · simp only [MemoryBrokerStore.startupSweep, Dict.mapValues_mapValues, hidentity, h.statements]
  · apply h.epochs

end MemoryBrokerStore.Alike

section Store

theorem updateSession_uniform (session : ConsoleSession) :
  Uniform MemoryBrokerStore.Alike (MemoryBrokerStore.updateSession session)
  := by
  intro store store' h
  rw [MemoryBrokerStore.updateSession]
  show Matched _ (EStateM.run (if store.sessions.contains session.id then _ else _) store)
    (EStateM.run (if store'.sessions.contains session.id then _ else _) store')
  rw [h.containsSession]
  split
  · exact .ok () (h.setSession _ _)
  · exact .error _ h

theorem updateStatement_uniform (statement : ConsoleStatement) :
  Uniform MemoryBrokerStore.Alike (MemoryBrokerStore.updateStatement statement)
  := by
  intro store store' h
  rw [MemoryBrokerStore.updateStatement]
  show Matched _ (EStateM.run (if store.statements.contains statement.id then _ else _) store)
    (EStateM.run (if store'.statements.contains statement.id then _ else _) store')
  rw [h.containsStatement]
  split
  · exact .ok () (h.setStatement _ _)
  · exact .error _ h

theorem addEvent_uniform (statementId eventType : Text) (now : ℤ) :
  Uniform MemoryBrokerStore.Alike (MemoryBrokerStore.addEvent statementId eventType now)
  := by
  apply uniform_modify
  intro store store' h
  apply h.setEvents

end Store

/-! ### Programs on a session -/

/-- What is seen of two brokers from one session differs only in the stores, which are alike. -/
structure Focus.Alike (c c' : Focus) : Prop where
  memory : c' = { c with store := c'.store }
  store : c.store.Alike c'.store

section Session

theorem uniform_read {β : Type} {f : Focus → SessionM β}
    (hread : ∀ c store, f { c with store := store } = f c)
    (hf : ∀ c, Uniform Focus.Alike (f c)) :
  Uniform Focus.Alike (get >>= f)
  := by
  apply uniform_get _ hf
  intro c c' h
  rw [h.memory, hread]

theorem onStore_uniform {β : Type} {m : StoreM β} (hm : Uniform MemoryBrokerStore.Alike m) :
  Uniform Focus.Alike (onStore m)
  := by
  intro c c' h
  apply matched_onPart (hm _ _ h.store)
  intro store store' hstore
  constructor
  · rw [h.memory]
  · apply hstore

theorem modifyRuntime_uniform (f : SessionRuntime → SessionRuntime) :
  Uniform Focus.Alike (modifyRuntime f)
  := by
  apply uniform_modify
  intro c c' h
  constructor
  · rw [h.memory]
  · apply h.store

theorem setLane_uniform (point : LanePoint) :
  Uniform Focus.Alike (setLane point)
  := modifyRuntime_uniform _

theorem recordEvent_uniform (statementId eventType : Text) (now : ℤ) :
  Uniform Focus.Alike (recordEvent statementId eventType now)
  := onStore_uniform (addEvent_uniform statementId eventType now)

theorem submitControl_uniform (kind : ControlKind) (statementId : Text) :
  Uniform Focus.Alike (submitControl kind statementId)
  := by
  apply uniform_modify
  intro c c' h
  constructor
  · rw [h.memory]
  · apply h.store

theorem requireStatement_uniform (statementId : Text) :
  Uniform Focus.Alike (requireStatement statementId)
  := by
  apply uniform_read (fun _ _ => rfl)
  intro c
  apply uniform_demand

theorem saveStatement_uniform (statement : ConsoleStatement) :
  Uniform Focus.Alike (saveStatement statement)
  := by
  apply (modifyRuntime_uniform _).bind
  intro _
  apply onStore_uniform (updateStatement_uniform statement)

theorem moveSession_uniform (target : ConsoleSessionState)
    (change : ConsoleSession → ConsoleSession) :
  Uniform Focus.Alike (moveSession target change)
  := by
  apply uniform_read (fun _ _ => rfl)
  intro c
  apply (uniform_ofExcept _).bind
  intro state
  apply (modifyRuntime_uniform _).bind
  intro _
  apply onStore_uniform (updateSession_uniform _)

theorem setStatementState_uniform (statement : ConsoleStatement) (state : ConsoleStatementState)
    (now : ℤ) (cancelRequested : Option Bool) (errorCode errorSummary : Option Text) :
  Uniform Focus.Alike
    (setStatementState statement state now cancelRequested errorCode errorSummary)
  := by
  apply (uniform_ofExcept _).bind
  intro target
  apply (saveStatement_uniform _).bind
  intro _
  apply uniform_pure

theorem loseSessionLocked_uniform (reason : Text) (now : ℤ) :
  Uniform Focus.Alike (loseSessionLocked reason now)
  := by
  apply uniform_read (fun _ _ => rfl)
  intro c
  apply uniform_when
  apply (modifyRuntime_uniform _).bind
  intro _
  apply uniform_read (fun _ _ => rfl)
  intro c
  apply (uniform_ofExcept _).bind
  intro state
  apply (modifyRuntime_uniform _).bind
  intro _
  apply (modifyRuntime_uniform _).bind
  intro _
  apply onStore_uniform (updateSession_uniform _)

/-! ### The fence -/

theorem dispatchCancel_uniform (statementId : Text) (now : ℤ) :
  Uniform Focus.Alike (dispatchCancel statementId now)
  := by
  apply (recordEvent_uniform _ _ _).bind
  intro _
  apply uniform_read (fun _ _ => rfl)
  intro c
  apply uniform_ite
  · apply submitControl_uniform
  · apply uniform_throw

theorem beginCancelLocked_uniform (config : BrokerConfig) (now : ℤ)
    (statement : ConsoleStatement) (reason : CancelReason) :
  Uniform Focus.Alike (beginCancelLocked config now statement reason)
  := by
  apply uniform_read (fun _ _ => rfl)
  intro c
  apply uniform_when
  apply (modifyRuntime_uniform _).bind
  intro _
  apply (saveStatement_uniform _).bind
  intro _
  apply uniform_read (fun _ _ => rfl)
  intro c
  apply (uniform_when (moveSession_uniform _ _)).bind
  intro _
  apply dispatchCancel_uniform

theorem becomeIdle_uniform (config : BrokerConfig) (now : ℤ) :
  Uniform Focus.Alike (becomeIdle config now)
  := by
  apply uniform_read (fun _ _ => rfl)
  intro c
  apply (uniform_ofExcept _).bind
  intro state
  apply (modifyRuntime_uniform _).bind
  intro _
  apply (modifyRuntime_uniform _).bind
  intro _
  apply onStore_uniform (updateSession_uniform _)

theorem settleCancelFenceLocked_uniform (config : BrokerConfig) (statementId : Text) (now : ℤ) :
  Uniform Focus.Alike (settleCancelFenceLocked config statementId now)
  := by
  apply uniform_read (fun _ _ => rfl)
  intro c
  apply uniform_when
  apply (requireStatement_uniform _).bind
  intro statement
  apply (modifyRuntime_uniform _).bind
  intro _
  apply uniform_read (fun _ _ => rfl)
  intro c
  apply uniform_when
  apply (modifyRuntime_uniform _).bind
  intro _
  apply uniform_read (fun _ _ => rfl)
  intro c
  apply uniform_when (becomeIdle_uniform _ _)

theorem onControlCancelDone_uniform (config : BrokerConfig) (failed : Bool) (now : ℤ) :
  Uniform Focus.Alike (onControlCancelDone config failed now)
  := by
  apply uniform_read (fun _ _ => rfl)
  intro c
  split
  · apply uniform_pure
  · rename_i statementId _
    apply (requireStatement_uniform _).bind
    intro statement
    apply (modifyRuntime_uniform _).bind
    intro _
    apply (recordEvent_uniform _ _ _).bind
    intro _
    apply settleCancelFenceLocked_uniform

theorem onControlDestroyDone_uniform (failed : Bool) (now : ℤ) :
  Uniform Focus.Alike (onControlDestroyDone failed now)
  := by
  apply uniform_read (fun _ _ => rfl)
  intro c
  split
  · apply uniform_pure
  · rename_i statementId _
    apply (requireStatement_uniform _).bind
    intro statement
    apply (recordEvent_uniform _ _ _).bind
    intro _
    apply (requireStatement_uniform _).bind
    intro current
    refine (uniform_when ?_).bind ?_
    · apply (setStatementState_uniform _ _ _ _ _ _).bind
      intro _
      apply uniform_pure
    · intro _
      apply (loseSessionLocked_uniform _ _).bind
      intro _
      apply modifyRuntime_uniform

theorem onControlDone_uniform (config : BrokerConfig) (command : ControlCommand) (failed : Bool)
    (now : ℤ) :
  Uniform Focus.Alike (onControlDone config command failed now)
  := by
  rw [onControlDone]
  split
  · apply onControlCancelDone_uniform
  · apply onControlDestroyDone_uniform

/-! ### Closing -/

theorem cancelQueuedLocked_uniform (eventType : Text) (now : ℤ) :
  Uniform Focus.Alike (cancelQueuedLocked eventType now)
  := by
  apply uniform_read (fun _ _ => rfl)
  intro c
  apply uniform_forM
  intro statement
  apply (setStatementState_uniform _ _ _ _ _ _).bind
  intro updated
  apply recordEvent_uniform

theorem cancelCurrent_uniform (config : BrokerConfig) (now : ℤ) :
  Uniform Focus.Alike (cancelCurrent config now)
  := by
  apply uniform_read (fun _ _ => rfl)
  intro c
  split
  · apply uniform_pure
  · apply (requireStatement_uniform _).bind
    intro statement
    apply uniform_when (beginCancelLocked_uniform _ _ _ _)

theorem queueCloseLocked_uniform (config : BrokerConfig) (reason : Text) (cancels : Bool)
    (now : ℤ) :
  Uniform Focus.Alike (queueCloseLocked config reason cancels now)
  := by
  apply uniform_read (fun _ _ => rfl)
  intro c
  apply uniform_when
  apply (modifyRuntime_uniform _).bind
  intro _
  apply (uniform_when (cancelCurrent_uniform _ _)).bind
  intro _
  apply (uniform_when (cancelQueuedLocked_uniform _ _)).bind
  intro _
  apply modifyRuntime_uniform

/-! ### The program of a lane -/

theorem laneOpenFailed_uniform (errorCode : Text) (now : ℤ) :
  Uniform Focus.Alike (laneOpenFailed errorCode now)
  := by
  apply (modifyRuntime_uniform _).bind
  intro _
  apply (moveSession_uniform _ _).bind
  intro _
  apply setLane_uniform

theorem laneOpened_uniform (config : BrokerConfig) (marker : Text) (now : ℤ) :
  Uniform Focus.Alike (laneOpened config marker now)
  := by
  apply uniform_read (fun _ _ => rfl)
  intro c
  apply (uniform_ofExcept _).bind
  intro state
  apply (modifyRuntime_uniform _).bind
  intro _
  apply (modifyRuntime_uniform _).bind
  intro _
  apply (onStore_uniform (updateSession_uniform _)).bind
  intro _
  apply setLane_uniform

theorem executeStatementStart_uniform (statementId : Text) (now : ℤ) :
  Uniform Focus.Alike (executeStatementStart statementId now)
  := by
  apply (requireStatement_uniform _).bind
  intro statement
  apply uniform_read (fun _ _ => rfl)
  intro c
  apply uniform_ite (setLane_uniform _)
  apply uniform_ite (setLane_uniform _)
  apply (modifyRuntime_uniform _).bind
  intro _
  apply (uniform_ofExcept _).bind
  intro state
  apply (modifyRuntime_uniform _).bind
  intro _
  apply (uniform_ofExcept _).bind
  intro target
  apply (modifyRuntime_uniform _).bind
  intro _
  apply (onStore_uniform (updateSession_uniform _)).bind
  intro _
  apply (onStore_uniform (updateStatement_uniform _)).bind
  intro _
  apply (recordEvent_uniform _ _ _).bind
  intro _
  apply setLane_uniform

theorem executeStatementStream_uniform (statementId : Text) :
  Uniform Focus.Alike (executeStatementStream statementId)
  := by
  apply (requireStatement_uniform _).bind
  intro current
  refine (uniform_when ?_).bind ?_
  · apply (uniform_ofExcept _).bind
    intro target
    apply saveStatement_uniform
  · intro _
    apply setLane_uniform

theorem executeStatementHandle_uniform (statementId : Text)
    (error : Option InteractiveExecuteError) (alive : Bool) :
  Uniform Focus.Alike (executeStatementHandle statementId error alive)
  := by
  apply (requireStatement_uniform _).bind
  intro statement
  cases error with
  | none => apply setLane_uniform
  | some raised =>
      apply uniform_ite (setLane_uniform _)
      apply uniform_ite (setLane_uniform _)
      apply uniform_ite
      · apply uniform_read (fun _ _ => rfl)
        intro c
        apply (uniform_when (modifyRuntime_uniform _)).bind
        intro _
        apply setLane_uniform
      · apply uniform_ite (setLane_uniform _) (setLane_uniform _)

theorem executeStatementFinish_uniform (config : BrokerConfig) (statementId : Text)
    (outcome : StatementEnd) (now : ℤ) :
  Uniform Focus.Alike (executeStatementFinish config statementId outcome now)
  := by
  apply (requireStatement_uniform _).bind
  intro current
  refine (uniform_when ?_).bind ?_
  · apply (setStatementState_uniform _ _ _ _ _ _).bind
    intro _
    apply recordEvent_uniform
  intro _
  apply uniform_read (fun _ _ => rfl)
  intro c
  apply (uniform_when (loseSessionLocked_uniform _ _)).bind
  intro _
  apply uniform_read (fun _ _ => rfl)
  intro c
  apply (uniform_when (modifyRuntime_uniform _)).bind
  intro _
  apply (settleCancelFenceLocked_uniform _ _ _).bind
  intro _
  apply uniform_read (fun _ _ => rfl)
  intro c
  apply (uniform_when (becomeIdle_uniform _ _)).bind
  intro _
  apply setLane_uniform

theorem closeIfPendingAndDrained_uniform : Uniform Focus.Alike closeIfPendingAndDrained
  := by
  apply uniform_read (fun _ _ => rfl)
  intro c
  dsimp only
  split
  · apply setLane_uniform
  · apply uniform_ite (modifyRuntime_uniform _) (setLane_uniform _)

theorem closeOnLaneBegin_uniform (reason : Text) (now : ℤ) :
  Uniform Focus.Alike (closeOnLaneBegin reason now)
  := by
  apply uniform_read (fun _ _ => rfl)
  intro c
  apply uniform_ite (setLane_uniform _)
  apply (uniform_when (moveSession_uniform _ _)).bind
  intro _
  apply setLane_uniform

theorem closeOnLaneEnd_uniform (reason : Text) (now : ℤ) :
  Uniform Focus.Alike (closeOnLaneEnd reason now)
  := by
  apply uniform_read (fun _ _ => rfl)
  intro c
  apply (uniform_ofExcept _).bind
  intro state
  apply (modifyRuntime_uniform _).bind
  intro _
  apply (modifyRuntime_uniform _).bind
  intro _
  apply (onStore_uniform (updateSession_uniform _)).bind
  intro _
  apply setLane_uniform

theorem laneNext_uniform {config : BrokerConfig} {runtime : SessionRuntime} {input : LaneInput}
    {now : ℤ} {m : SessionM Unit} (h : laneNext config runtime input now = some m) :
  Uniform Focus.Alike m
  := by
  unfold laneNext at h
  split at h
  case h_3 =>
    rw [laneGet] at h
    split at h
    · cases h
    · cases h
      apply modifyRuntime_uniform
    · cases h
      apply modifyRuntime_uniform
  case h_5 =>
    split at h
    · cases h
    · cases h
      apply executeStatementStart_uniform
  case h_15 =>
    split at h
    · cases h
    · cases h
      apply closeOnLaneBegin_uniform
  case h_17 => cases h
  all_goals cases h
  · apply laneOpened_uniform
  · apply laneOpenFailed_uniform
  · apply modifyRuntime_uniform
  · apply setLane_uniform
  · apply setLane_uniform
  · apply executeStatementStream_uniform
  · apply setLane_uniform
  · apply setLane_uniform
  · apply setLane_uniform
  · apply executeStatementHandle_uniform
  · apply executeStatementFinish_uniform
  · apply closeIfPendingAndDrained_uniform
  · apply closeOnLaneEnd_uniform

/-! ### Clients and the timer -/

theorem enqueueStatement_uniform (config : BrokerConfig) (statement : ConsoleStatement)
    (resultSetId : Option Text) (now : ℤ) :
  Uniform Focus.Alike (enqueueStatement config statement resultSetId now)
  := by
  cases resultSetId with
  | none =>
      apply (setStatementState_uniform _ _ _ _ _ _).bind
      intro failed
      apply (recordEvent_uniform _ _ _).bind
      intro _
      apply uniform_throw
  | some resultSet =>
      apply (saveStatement_uniform _).bind
      intro _
      apply uniform_read (fun _ _ => rfl)
      intro c
      apply uniform_ite
      · apply (modifyRuntime_uniform _).bind
        intro _
        apply (recordEvent_uniform _ _ _).bind
        intro _
        apply uniform_pure
      · apply uniform_throw

theorem startLane_uniform (support : ServerCancelState) (storeRaises : Bool) :
  Uniform Focus.Alike (startLane support storeRaises)
  := by
  apply uniform_read (fun _ _ => rfl)
  intro c
  refine (uniform_when ?_).bind ?_
  · apply (modifyRuntime_uniform _).bind
    intro _
    apply (uniform_when (uniform_throw _)).bind
    intro _
    apply onStore_uniform (updateSession_uniform _)
  · intro _
    apply (setLane_uniform _).bind
    intro _
    apply uniform_read (fun _ _ => rfl)
    intro c
    apply uniform_pure

theorem cancelStatement_uniform (config : BrokerConfig) (statementId : Text) (now : ℤ) :
  Uniform Focus.Alike (cancelStatement config statementId now)
  := by
  apply (requireStatement_uniform _).bind
  intro statement
  apply uniform_read (fun _ _ => rfl)
  intro c
  apply uniform_ite
  · apply (setStatementState_uniform _ _ _ _ _ _).bind
    intro updated
    apply (recordEvent_uniform _ _ _).bind
    intro _
    apply uniform_pure
  apply uniform_ite
  · apply (beginCancelLocked_uniform _ _ _ _).bind
    intro _
    apply (requireStatement_uniform _).bind
    intro current
    apply uniform_pure
  apply uniform_ite (uniform_pure _) (uniform_throw _)

theorem timeOut_uniform (config : BrokerConfig) (now : ℤ) :
  Uniform Focus.Alike (timeOut config now)
  := by
  apply uniform_read (fun _ _ => rfl)
  intro c
  dsimp only
  split
  · apply uniform_pure
  · apply uniform_when
    apply (requireStatement_uniform _).bind
    intro statement
    apply beginCancelLocked_uniform

theorem escalate_uniform (now : ℤ) :
  Uniform Focus.Alike (escalate now)
  := by
  apply uniform_read (fun _ _ => rfl)
  intro c
  apply uniform_when
  apply (modifyRuntime_uniform _).bind
  intro _
  apply submitControl_uniform

theorem runTimers_uniform (config : BrokerConfig) (now : ℤ) :
  Uniform Focus.Alike (runTimers config now)
  := by
  apply (timeOut_uniform _ _).bind
  intro _
  apply (escalate_uniform _).bind
  intro _
  apply uniform_read (fun _ _ => rfl)
  intro c
  apply uniform_when (queueCloseLocked_uniform _ _ _ _)

theorem shutdownSession_uniform (config : BrokerConfig) (now : ℤ) :
  Uniform Focus.Alike (shutdownSession config now)
  := by
  apply uniform_read (fun _ _ => rfl)
  intro c
  apply uniform_when (queueCloseLocked_uniform _ _ _ _)

end Session

end Broker

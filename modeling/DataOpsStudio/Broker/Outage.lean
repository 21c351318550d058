import DataOpsStudio.Broker.Uniform

/-!
# A broker whose store fails

The programs of a lane and of a client that submits, as they run when the store raises.  A lane
and a client write to the store at many places, and each of them is a write of its own here: a
set of writes says which of them raise.  Nothing catches an exception at most of these places,
so it ends the thread of the lane, or the call of the client; a few of them are guarded.  If no
write raises, the programs are those of the broker whose store does not fail.
-/

namespace Broker

open Text Program

/-- The writes to the store, and to the results of a statement, of a lane and of a client that
submits. -/
inductive Write where
  /-- The session whose connection is open. -/
  | openedSession
  /-- The session whose connection could not be opened. -/
  | openFailedSession
  /-- The session, the statement and the event when a statement is started. -/
  | startSession
  | startStatement
  | startEvent
  /-- The statement whose rows begin to arrive. -/
  | streamStatement
  /-- The rows of a statement and what the catalog says of them. -/
  | publish
  /-- The result of a statement once it has come to an end. -/
  | finalize
  /-- The statement and the event when it has come to an end. -/
  | endStatement
  | endEvent
  /-- The session when its connection is lost. -/
  | loseSession
  /-- The session when its fence is released. -/
  | settleSession
  /-- The session when its statement has come to an end. -/
  | idleSession
  /-- The session that is being closed. -/
  | closingSession
  /-- The session that is closed. -/
  | closedSession
  /-- The statement that a client submits. -/
  | createStatement
  /-- The statement that has no result set, and its event. -/
  | failStatement
  | failEvent
  /-- The statement with its result set. -/
  | acceptStatement
  /-- The event of a statement that has been put in the mailbox. -/
  | submitEvent
deriving DecidableEq

/-- Which writes raise if they are made. -/
abbrev Outage := Write → Bool

namespace Outage

/-- Makes a write, or raises. -/
def write {α : Type} (fails : Outage) (site : Write) (m : StoreM α) : SessionM α :=
  if fails site then throw (.storeError []) else onStore m

/-! ### The lane -/

/-- Replaces a statement and writes it to the store. -/
def saveStatement (fails : Outage) (site : Write) (statement : ConsoleStatement) :
    SessionM Unit := do
  assignStatement statement
  fails.write site (MemoryBrokerStore.updateStatement statement)

/-- Changes the session along a transition, together with other fields, and writes it to the
store. -/
def moveSession (fails : Outage) (site : Write) (target : ConsoleSessionState)
    (change : ConsoleSession → ConsoleSession) : SessionM Unit := do
  let session := (← get).runtime.session
  let state ← Program.ofExcept (transitionSession session.state target)
  let moved := change { session with state := state }
  assignSession moved
  fails.write site (MemoryBrokerStore.updateSession moved)

def recordEvent (fails : Outage) (site : Write) (statementId eventType : Text) (now : ℤ) :
    SessionM Unit :=
  fails.write site (MemoryBrokerStore.addEvent statementId eventType now)

/-- Changes a statement along a transition. -/
def setStatementState (fails : Outage) (site : Write) (statement : ConsoleStatement)
    (state : ConsoleStatementState) (now : ℤ) (errorCode errorSummary : Option Text) :
    SessionM ConsoleStatement := do
  let target ← Program.ofExcept (transitionStatement statement.state state)
  let updated := { statement with
    state := target
    errorCode := errorCode
    errorSummary := errorSummary
    finishedAt := if state.IsTerminal then some now else statement.finishedAt }
  fails.saveStatement site updated
  return updated

/-- Gives a session up. -/
def loseSessionLocked (fails : Outage) (reason : Text) (now : ℤ) : SessionM Unit := do
  Program.when ((← get).runtime.session.state ≠ .sessionLost) do
    modifyRuntime (fun runtime => { runtime with accepting := false, cancelInFlight := false })
    let session := (← get).runtime.session
    let state ← Program.ofExcept (transitionSession session.state .sessionLost)
    let lost := { session with
      state := state
      closedAt := some now
      closeReason := some reason
      errorCode := some reason
      lastActivityAt := now }
    assignSession lost
    modifyRuntime (fun runtime => { runtime with idleDeadline := none })
    fails.write .loseSession (MemoryBrokerStore.updateSession lost)

/-- The session becomes idle. -/
def becomeIdle (fails : Outage) (site : Write) (config : BrokerConfig) (now : ℤ) :
    SessionM Unit := do
  let session := (← get).runtime.session
  let state ← Program.ofExcept (transitionSession session.state .idle)
  let idle := { session with state := state, lastActivityAt := now }
  assignSession idle
  modifyRuntime (fun runtime =>
    { runtime with idleDeadline := some (idleDeadlineAfter config now) })
  fails.write site (MemoryBrokerStore.updateSession idle)

/-- Releases the fence around a statement, if its cancellation is confirmed or both the
control lane and the statement are done. -/
def settleCancelFenceLocked (fails : Outage) (config : BrokerConfig) (statementId : Text)
    (now : ℤ) : SessionM Unit := do
  let runtime := (← get).runtime
  Program.when (runtime.cancelInFlight ∧ runtime.cancelStatementId = some statementId) do
    let statement ← requireStatement statementId
    modifyRuntime (fun runtime =>
      { runtime with cancelStatementDone := statement.state.IsTerminal })
    let runtime := (← get).runtime
    Program.when (runtime.cancelConfirmed
        ∨ (runtime.cancelControlDone ∧ runtime.cancelStatementDone)) do
      modifyRuntime SessionRuntime.releaseFence
      Program.when ((← get).runtime.session.state = .cancelling)
        (fails.becomeIdle .settleSession config now)

/-- The connection could not be opened. -/
def laneOpenFailed (fails : Outage) (errorCode : Text) (now : ℤ) : SessionM Unit := do
  modifyRuntime (fun runtime => { runtime with accepting := false })
  fails.moveSession .openFailedSession .connectFailed (fun session =>
    { session with
      errorCode := some errorCode
      closedAt := some now
      closeReason := some "connect_failed".toList
      lastActivityAt := now })
  setLane .exited

/-- The connection is open. -/
def laneOpened (fails : Outage) (config : BrokerConfig) (marker : Text) (now : ℤ) :
    SessionM Unit := do
  let session := (← get).runtime.session
  let state ← Program.ofExcept (transitionSession session.state .idle)
  let idle := { session with
    state := state, dbSessionMarker := some marker, lastActivityAt := now }
  assignSession idle
  modifyRuntime (fun runtime =>
    { runtime with idleDeadline := some (idleDeadlineAfter config now) })
  fails.write .openedSession (MemoryBrokerStore.updateSession idle)
  setLane .waiting

/-- Starts a statement, unless it is no longer accepted or the session is being closed. -/
def executeStatementStart (fails : Outage) (statementId : Text) (now : ℤ) : SessionM Unit := do
  let statement ← requireStatement statementId
  let runtime := (← get).runtime
  if statement.state ≠ .accepted then setLane .checking
  else if runtime.accepting = false ∧ runtime.session.state ≠ .idle
      ∧ runtime.session.state ≠ .executing then setLane .checking
  else do
    modifyRuntime (fun runtime =>
      { runtime with
        softCancel := false
        currentStatementId := some statement.id
        statementDeadline := deadlineOf statement now })
    let state ← Program.ofExcept (transitionSession runtime.session.state .executing)
    let session := { runtime.session with state := state, lastActivityAt := now }
    assignSession session
    let target ← Program.ofExcept (transitionStatement statement.state .executing)
    let started := { statement with state := target, startedAt := some now }
    assignStatement started
    fails.write .startSession (MemoryBrokerStore.updateSession session)
    fails.write .startStatement (MemoryBrokerStore.updateStatement started)
    fails.recordEvent .startEvent statement.id "started".toList now
    setLane (.preparing statementId)

/-- The rows of a statement begin to arrive.  An exception of the store is caught like one of the
driver that is not classified. -/
def executeStatementStream (fails : Outage) (statementId : Text) : SessionM Unit :=
  Program.rescue (do
      let current ← requireStatement statementId
      Program.when (current.state = .executing) do
        let target ← Program.ofExcept (transitionStatement current.state .streaming)
        fails.saveStatement .streamStatement { current with state := target }
      setLane (.draining statementId))
    (setLane (.handling statementId none))

/-- The last rows have been read, and are written.  An exception is caught. -/
def executeStatementDrained (fails : Outage) (statementId : Text) : SessionM Unit :=
  Program.rescue (do
      fails.write .publish (pure ())
      setLane (.finishing statementId { state := .succeeded }))
    (setLane (.handling statementId none))

/-- Seals the result of a statement.  An exception is caught, and logged. -/
def finalizeResult (fails : Outage) : SessionM Unit :=
  Program.rescue (fails.write .finalize (pure ())) (pure ())

/-- Ends a statement. -/
def executeStatementFinish (fails : Outage) (config : BrokerConfig) (statementId : Text)
    (outcome : StatementEnd) (now : ℤ) : SessionM Unit := do
  fails.finalizeResult
  let current ← requireStatement statementId
  Program.when (¬ current.state.IsTerminal) do
    let _ ← fails.setStatementState .endStatement current outcome.state now outcome.errorCode
      outcome.errorSummary
    fails.recordEvent .endEvent statementId "terminal".toList now
  Program.when (outcome.connectionLost ∧ (← get).runtime.session.state ≠ .sessionLost)
    (fails.loseSessionLocked "connection_dead".toList now)
  Program.when ((← get).runtime.currentStatementId = some statementId) clearCurrent
  fails.settleCancelFenceLocked config statementId now
  let runtime := (← get).runtime
  Program.when (runtime.cancelInFlight = false
      ∧ (runtime.session.state = .executing ∨ runtime.session.state = .cancelling))
    (fails.becomeIdle .idleSession config now)
  setLane .checking

/-- Begins to close the session. -/
def closeOnLaneBegin (fails : Outage) (reason : Text) (now : ℤ) : SessionM Unit := do
  let state := (← get).runtime.session.state
  if state = .closed ∨ state = .sessionLost ∨ state = .connectFailed then setLane .exited
  else do
    Program.when (state ≠ .closing)
      (fails.moveSession .closingSession .closing (fun session =>
        { session with lastActivityAt := now }))
    setLane (.closing reason)

/-- The connection is closed. -/
def closeOnLaneEnd (fails : Outage) (reason : Text) (now : ℤ) : SessionM Unit := do
  let session := (← get).runtime.session
  let state ← Program.ofExcept (transitionSession session.state .closed)
  let closed := { session with
    state := state
    closedAt := some now
    closeReason := some reason
    lastActivityAt := now }
  assignSession closed
  modifyRuntime (fun runtime => { runtime with idleDeadline := none })
  fails.write .closedSession (MemoryBrokerStore.updateSession closed)
  setLane .exited

/-- What the lane does next, if it can go on with what it learns. -/
def laneNext (fails : Outage) (config : BrokerConfig) (runtime : SessionRuntime)
    (input : LaneInput) (now : ℤ) : Option (SessionM Unit) :=
  match runtime.lane, input with
  | .opening, .opened marker => some (fails.laneOpened config marker now)
  | .opening, .openFailed errorCode => some (fails.laneOpenFailed errorCode now)
  | .fenced statementId, .proceed =>
      if runtime.Fenced then none else some (fails.executeStatementStart statementId now)
  | .executing statementId, .returned => some (fails.executeStatementStream statementId)
  | .draining statementId, .returned => some (fails.executeStatementDrained statementId)
  | .finishing statementId outcome, .proceed =>
      some (fails.executeStatementFinish config statementId outcome now)
  | .closeFenced reason, .proceed =>
      if runtime.Fenced then none else some (fails.closeOnLaneBegin reason now)
  | .closing reason, .proceed => some (fails.closeOnLaneEnd reason now)
  | _, _ => Broker.laneNext config runtime input now

/-- The lane of a session goes on. -/
def laneStep (fails : Outage) (config : BrokerConfig) (b : SessionBroker) (sessionId : Text)
    (input : LaneInput) (now : ℤ) : Option (BrokerM Unit) :=
  (b.sessions.get? sessionId).bind (fun runtime =>
    (fails.laneNext config runtime input now).map (fun next => do
      noteExecuted runtime input
      onRuntime sessionId (onLane next)))

/-! ### Submitting -/

/-- Records a statement in the store and in the runtime. -/
def recordStatement (fails : Outage) (request : SubmitRequest) (statementId : Text) (now : ℤ) :
    SessionM (ConsoleStatement × Bool) := do
  let session := (← get).runtime.session
  let created ← fails.write .createStatement (MemoryBrokerStore.createStatement session
    statementId request.clientRequestId request.sql request.timeoutSeconds now false)
  modifyRuntime (fun runtime =>
    { runtime with
      statements := runtime.statements.set created.1.id created.1
      requests := runtime.requests.set request.clientRequestId created.1.id })
  return created

/-- Puts a statement in the mailbox; without a result set it fails. -/
def enqueueStatement (fails : Outage) (config : BrokerConfig) (statement : ConsoleStatement)
    (resultSetId : Option Text) (now : ℤ) : SessionM ConsoleStatement := do
  match resultSetId with
  | none =>
      let failed ← fails.setStatementState .failStatement statement .failed now
        (some "resultstore_error".toList)
        (some "statement result set could not be created".toList)
      fails.recordEvent .failEvent failed.id "terminal".toList now
      throw .resultsError
  | some resultSet =>
      let statement := { statement with resultSetId := some resultSet }
      fails.saveStatement .acceptStatement statement
      if (← get).runtime.mailbox.length < config.mailboxSize then
        modifyRuntime (fun runtime =>
          { runtime with
            mailbox := runtime.mailbox ++ [.execute statement.id]
            pendingCount := runtime.pendingCount + 1 })
        fails.recordEvent .submitEvent statement.id "submitted".toList now
        return statement
      else
        throw (.runtimeError "broker mailbox accounting diverged".toList)

/-- Accepts a statement of a session. -/
def acceptStatement (fails : Outage) (config : BrokerConfig) (request : SubmitRequest)
    (statementId : Text) (resultSetId : Option Text) (now : ℤ) : BrokerM SubmitReceipt := do
  let created ← onRuntime request.sessionId (fails.recordStatement request statementId now)
  modify (fun b =>
    { b with
      statementSessions := b.statementSessions.set created.1.id request.sessionId })
  if created.2 then return { statement := created.1, deduplicated := true }
  else do
    let statement ← onRuntime request.sessionId
      (fails.enqueueStatement config created.1 resultSetId now)
    return { statement := statement, deduplicated := false }

/-- Submits a statement.  A request that was made before returns the same statement. -/
def submit (fails : Outage) (config : BrokerConfig) (request : SubmitRequest)
    (statementId : Text) (resultSetId : Option Text) (now : ℤ) : BrokerM SubmitReceipt := do
  validateSubmit request
  let runtime ← requireRuntime request.sessionId
  requireEpoch runtime request.epoch
  match runtime.requests.get? request.clientRequestId with
  | some replayId =>
      let statement ← Program.demand (.keyError replayId) (runtime.statements.get? replayId)
      return { statement := statement, deduplicated := true }
  | none =>
      if runtime.accepting = false ∨ ¬ runtime.session.state.IsActive then
        throw (.brokerError "session_not_active".toList (some runtime.session.epoch))
      else if config.mailboxSize ≤ runtime.pendingCount then
        throw (.brokerError "session_mailbox_full".toList (some runtime.session.epoch))
      else
        fails.acceptStatement config request statementId resultSetId now

/-! ### Actions -/

/-- What an action does, if it can happen, when the writes of an outage raise in it. -/
def perform (fails : Outage) (config : BrokerConfig) (b : SessionBroker) :
    Action → Option (BrokerM Unit)
  | .submit request statementId resultSetId now =>
      some (discard (fails.submit config request statementId resultSetId now))
  | .lane sessionId input now => fails.laneStep config b sessionId input now
  | action => Broker.perform config b action

end Outage

/-- An action, and the writes that raise in it. -/
structure Attempt where
  action : Action
  fails : Outage := fun _ => false

/-- The broker after an action, if it can happen. -/
def SessionBroker.attempt (config : BrokerConfig) (b : SessionBroker) (attempt : Attempt) :
    Option SessionBroker :=
  if attempt.action.Fresh b then
    (attempt.fails.perform config b attempt.action).map (fun m => Program.stateOf (m.run b))
  else none

/-- The runs of a broker whose store fails. -/
def failingSystem (config : BrokerConfig) : TransitionSystem SessionBroker Attempt where
  initial := fun b => ∃ bootId, b = { bootId := bootId }
  step := fun b attempt b' => b.attempt config attempt = some b'

end Broker

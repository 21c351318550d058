import DataOpsStudio.Broker.Session
import DataOpsStudio.Library.TransitionSystem

/-!
# The broker

The broker is a registry of sessions.  Clients attach to consoles, submit and cancel
statements and close sessions; lanes, control lanes and a timer work on the sessions; and the
broker may be shut down, or come to an end and be started again over the store it leaves
behind.  An action is what one thread does between two points where another may come in
between.
-/

namespace Broker

open Text

/-! ### The registry -/

/-- Where an attachment stands; there is at most one at a time. -/
inductive AttachPoint where
  /-- Has found the broker running. -/
  | entered (request : AttachRequest)
  /-- Has made a session. -/
  | created (request : AttachRequest) (sessionId : Text)
  /-- Waits for the control lane. -/
  | awaiting (request : AttachRequest) (sessionId : Text)
deriving DecidableEq

/-- What has been observed of a broker: the statements handed to `connection.execute`, the
consoles and epochs of the attachments that have returned, and the sessions of the commands to
destroy that have been executed and reported. -/
structure History where
  executed : List Text := []
  attached : List (Text × ℤ) := []
  destroyed : List Text := []
deriving DecidableEq

/-- A broker, with the store it works on. -/
structure SessionBroker where
  bootId : Text
  isShutdown : Bool := false
  sessions : Dict Text SessionRuntime := Dict.empty
  consoleSessions : Dict Text Text := Dict.empty
  statementSessions : Dict Text Text := Dict.empty
  controls : Dict Text ControlLane := Dict.empty
  attaching : Option AttachPoint := none
  store : MemoryBrokerStore := {}
  history : History := {}
deriving DecidableEq

/-- Programs on a broker. -/
abbrev BrokerM := EStateM BrokerExn SessionBroker

namespace SessionBroker

/-- The sessions that hold their place in the registry. -/
def activeSessions (b : SessionBroker) : List ConsoleSession :=
  (b.sessions.values.map SessionRuntime.session).filter (fun session => session.state.IsActive)

/-- What a program on the session of a runtime sees. -/
def focus (b : SessionBroker) (runtime : SessionRuntime) : Focus where
  runtime := runtime
  store := b.store
  controls := b.controls

/-- The broker with what a program on a session has left. -/
def unfocus (b : SessionBroker) (sessionId : Text) (c : Focus) : SessionBroker :=
  { b with
    sessions := b.sessions.set sessionId c.runtime
    store := c.store
    controls := c.controls }

end SessionBroker

/-- Runs a program on a session of the registry. -/
def onRuntime {α : Type} (sessionId : Text) (m : SessionM α) : BrokerM α := do
  let b ← get
  match b.sessions.get? sessionId with
  | none => throw (.keyError sessionId)
  | some runtime => Program.onPart (fun b => b.focus runtime) (fun c b => b.unfocus sessionId c) m

def onBrokerStore {α : Type} (m : StoreM α) : BrokerM α :=
  Program.onPart SessionBroker.store (fun store b => { b with store := store }) m

def requireRuntime (sessionId : Text) : BrokerM SessionRuntime := do
  Program.demand (.brokerError "session_lost".toList none) ((← get).sessions.get? sessionId)

def requireEpoch (runtime : SessionRuntime) (epoch : ℤ) : BrokerM Unit :=
  Program.when (epoch ≠ runtime.session.epoch)
    (throw (.brokerError "stale_session_epoch".toList (some runtime.session.epoch)))

/-! ### Attaching -/

/-- A new session must not exceed the limits. -/
def enforceSessionLimits (config : BrokerConfig) (request : AttachRequest) : BrokerM Unit := do
  let active := (← get).activeSessions
  Program.when (config.limits.globalTotal ≤ active.length
      ∨ config.limits.perUser
        ≤ active.countP (fun session => session.ownerUserId = request.ownerUserId)
      ∨ config.limits.perDatasource
        ≤ active.countP (fun session => session.datasourceId = request.datasourceId))
    (throw (.brokerError "session_limit_reached".toList none))

/-- The attachment is over. -/
def endAttach : BrokerM Unit :=
  modify (fun b => { b with attaching := none })

/-- The attachment returns a session. -/
def returnAttached (session : ConsoleSession) : BrokerM Unit :=
  modify (fun b =>
    { b with
      attaching := none
      history := { b.history with
        attached := b.history.attached ++ [(session.consoleId, session.epoch)] } })

/-- An exception ends the attachment. -/
def onAttach (m : BrokerM Unit) : BrokerM Unit :=
  Program.onRaise (fun b => { b with attaching := none }) m

/-- The session a console is attached to, if it still holds its place. -/
def SessionBroker.liveSession (b : SessionBroker) (consoleId : Text) : Option SessionRuntime :=
  match (b.consoleSessions.get? consoleId).bind b.sessions.get? with
  | none => none
  | some runtime => if runtime.session.state.IsActive then some runtime else none

/-- Attaches to the live session of a console. -/
def attachReuse (config : BrokerConfig) (request : AttachRequest) (runtime : SessionRuntime)
    (now : ℤ) : BrokerM Unit := do
  let b ← get
  let attached ← onBrokerStore (MemoryBrokerStore.attachSession request runtime.session.id
    b.bootId now (some runtime.session.id))
  modify (fun b =>
    { b with
      sessions := b.sessions.set runtime.session.id
        { runtime with
          session := attached
          idleDeadline := some (idleDeadlineAfter config attached.lastActivityAt) } })
  returnAttached attached

/-- Makes a session for a console.  The connection is made by a function that may raise. -/
def attachCreate (config : BrokerConfig) (request : AttachRequest) (sessionId : Text)
    (connectionRaises : Bool) (now : ℤ) : BrokerM Unit := do
  enforceSessionLimits config request
  let b ← get
  let session ← onBrokerStore (MemoryBrokerStore.attachSession request sessionId b.bootId now none)
  Program.when connectionRaises (throw .factoryError)
  modify (fun b =>
    { b with
      sessions := b.sessions.set session.id
        { session := session, idleDeadline := some (idleDeadlineAfter config now) }
      consoleSessions := b.consoleSessions.set session.consoleId session.id
      attaching := some (.created request session.id) })

/-- The first part of an attachment. -/
def attachSerial (config : BrokerConfig) (request : AttachRequest) (sessionId : Text)
    (connectionRaises : Bool) (now : ℤ) : BrokerM Unit := do
  match (← get).liveSession request.consoleId with
  | some runtime => attachReuse config request runtime now
  | none => attachCreate config request sessionId connectionRaises now

/-- Makes the control lane of a datasource, unless it exists.  The channel is made by a
function that may raise, and its thread may fail to start; such a lane never opens. -/
def ensureControlLane (request : AttachRequest) (sessionId : Text)
    (channelRaises startRaises : Bool) : BrokerM Unit := do
  Program.when ((← get).controls.contains request.datasourceId = false) do
    Program.when channelRaises (throw .factoryError)
    modify (fun b => { b with controls := b.controls.set request.datasourceId {} })
    Program.when startRaises (throw (.runtimeError "can't start new thread".toList))
  modify (fun b => { b with attaching := some (.awaiting request sessionId) })

/-- Starts the lane of a new session.  The store may raise. -/
def startLane (support : ServerCancelState) (storeRaises : Bool) : SessionM ConsoleSession := do
  let session := (← get).runtime.session
  Program.when (session.state = .connecting) do
    let probed := { session with serverCancel := support }
    assignSession probed
    Program.when storeRaises (throw (.storeError []))
    onStore (MemoryBrokerStore.updateSession probed)
  setLane .opening
  return (← get).runtime.session

/-- The last part of an attachment. -/
def attachFinish (sessionId : Text) (support : ServerCancelState) (storeRaises : Bool) :
    BrokerM Unit := do
  let session ← onRuntime sessionId (startLane support storeRaises)
  returnAttached session

/-- The control lane is ready. -/
def ControlLane.IsReady (control : ControlLane) : Prop :=
  control.point ≠ .opening

instance (control : ControlLane) : Decidable control.IsReady :=
  inferInstanceAs (Decidable (_ ≠ _))

/-! ### Submitting -/

/-- What a client submits. -/
structure SubmitRequest where
  sessionId : Text
  epoch : ℤ
  sql : Text
  clientRequestId : Text
  timeoutSeconds : ℤ := 600
  pageSize : ℤ := 100
  maxResultRows : ℤ := 1000
deriving DecidableEq

structure SubmitReceipt where
  statement : ConsoleStatement
  deduplicated : Bool
deriving DecidableEq

structure CancelReceipt where
  accepted : Bool
  statementState : ConsoleStatementState
deriving DecidableEq

def validateSubmit (request : SubmitRequest) : BrokerM Unit := do
  Program.when (request.clientRequestId = [] ∨ 64 < request.clientRequestId.length)
    (throw (.valueError "client_request_id must contain 1..64 characters".toList))
  Program.when (request.timeoutSeconds < 0)
    (throw (.valueError "timeout_seconds must not be negative".toList))
  Program.when (request.pageSize ≤ 0 ∨ request.maxResultRows ≤ 0)
    (throw (.valueError "page_size and max_result_rows must be positive".toList))

/-- Records a statement in the store and in the runtime. -/
def recordStatement (request : SubmitRequest) (statementId : Text) (now : ℤ) :
    SessionM (ConsoleStatement × Bool) := do
  let session := (← get).runtime.session
  let created ← onStore (MemoryBrokerStore.createStatement session statementId
    request.clientRequestId request.sql request.timeoutSeconds now false)
  modifyRuntime (fun runtime =>
    { runtime with
      statements := runtime.statements.set created.1.id created.1
      requests := runtime.requests.set request.clientRequestId created.1.id })
  return created

/-- Puts a statement in the mailbox; without a result set it fails. -/
def enqueueStatement (config : BrokerConfig) (statement : ConsoleStatement)
    (resultSetId : Option Text) (now : ℤ) : SessionM ConsoleStatement := do
  match resultSetId with
  | none =>
      let failed ← setStatementState statement .failed now none
        (some "resultstore_error".toList)
        (some "statement result set could not be created".toList)
      recordEvent failed.id "terminal".toList now
      throw .resultsError
  | some resultSet =>
      let statement := { statement with resultSetId := some resultSet }
      saveStatement statement
      if (← get).runtime.mailbox.length < config.mailboxSize then
        modifyRuntime (fun runtime =>
          { runtime with
            mailbox := runtime.mailbox ++ [.execute statement.id]
            pendingCount := runtime.pendingCount + 1 })
        recordEvent statement.id "submitted".toList now
        return statement
      else
        throw (.runtimeError "broker mailbox accounting diverged".toList)

/-- Accepts a statement of a session. -/
def acceptStatement (config : BrokerConfig) (request : SubmitRequest) (statementId : Text)
    (resultSetId : Option Text) (now : ℤ) : BrokerM SubmitReceipt := do
  let created ← onRuntime request.sessionId (recordStatement request statementId now)
  modify (fun b =>
    { b with
      statementSessions := b.statementSessions.set created.1.id request.sessionId })
  if created.2 then return { statement := created.1, deduplicated := true }
  else do
    let statement ← onRuntime request.sessionId
      (enqueueStatement config created.1 resultSetId now)
    return { statement := statement, deduplicated := false }

/-- Submits a statement.  A request that was made before returns the same statement. -/
def submit (config : BrokerConfig) (request : SubmitRequest) (statementId : Text)
    (resultSetId : Option Text) (now : ℤ) : BrokerM SubmitReceipt := do
  validateSubmit request
  let runtime ← requireRuntime request.sessionId
  requireEpoch runtime request.epoch
  match runtime.requests.get? request.clientRequestId with
  | some replayId =>
      let statement ← Program.demand (.keyError replayId) (runtime.statements.get? replayId)
      return { statement := statement, deduplicated := true }
  | none =>
      if runtime.accepting = false ∨ ¬ runtime.session.state.IsActive then
        throw (.brokerError "session_not_active".toList (some runtime.session.epoch))
      else if config.mailboxSize ≤ runtime.pendingCount then
        throw (.brokerError "session_mailbox_full".toList (some runtime.session.epoch))
      else
        acceptStatement config request statementId resultSetId now

/-! ### Cancelling and closing -/

/-- Cancels a statement of a session. -/
def cancelStatement (config : BrokerConfig) (statementId : Text) (now : ℤ) :
    SessionM CancelReceipt := do
  let statement ← requireStatement statementId
  let runtime := (← get).runtime
  if statement.state = .accepted then do
    let updated ← setStatementState statement .cancelled now (some true) none none
    recordEvent updated.id "cancel_requested".toList now
    return { accepted := true, statementState := updated.state }
  else if runtime.currentStatementId = some statementId ∧ statement.state.IsInFlight then do
    beginCancelLocked config now statement .user
    let current ← requireStatement statementId
    return { accepted := true, statementState := current.state }
  else if statement.state.IsTerminal then
    return { accepted := false, statementState := statement.state }
  else
    throw (.brokerError "statement_not_cancellable".toList (some runtime.session.epoch))

def runtimeForStatement (statementId : Text) : BrokerM Text := do
  let sessionId ← Program.demand (.brokerError "statement_not_cancellable".toList none)
    ((← get).statementSessions.get? statementId)
  return sessionId

def cancel (config : BrokerConfig) (statementId : Text) (epoch now : ℤ) :
    BrokerM CancelReceipt := do
  let sessionId ← runtimeForStatement statementId
  let runtime ← requireRuntime sessionId
  requireEpoch runtime epoch
  onRuntime sessionId (cancelStatement config statementId now)

def close (config : BrokerConfig) (sessionId : Text) (epoch : ℤ) (reason : Text) (now : ℤ) :
    BrokerM Unit := do
  let runtime ← requireRuntime sessionId
  requireEpoch runtime epoch
  onRuntime sessionId (queueCloseLocked config reason true now)

/-! ### The timer -/

/-- A deadline has passed. -/
def Passed (deadline : Option ℤ) (now : ℤ) : Prop := ∃ d ∈ deadline, d ≤ now

instance (deadline : Option ℤ) (now : ℤ) : Decidable (Passed deadline now) :=
  inferInstanceAs (Decidable (∃ d ∈ deadline, d ≤ now))

/-- Cancels a statement that has run out of time. -/
def timeOut (config : BrokerConfig) (now : ℤ) : SessionM Unit := do
  let runtime := (← get).runtime
  match runtime.currentStatementId with
  | none => return ()
  | some statementId =>
      Program.when (Passed runtime.statementDeadline now ∧ runtime.cancelInFlight = false) do
        let statement ← requireStatement statementId
        beginCancelLocked config now statement .timeout

/-- Sends a command to destroy if a cancellation is not over in time. -/
def escalate (now : ℤ) : SessionM Unit := do
  let runtime := (← get).runtime
  Program.when (runtime.cancelInFlight ∧ runtime.cancelDestroySent = false
      ∧ Passed runtime.cancelGraceDeadline now) do
    modifyRuntime (fun runtime => { runtime with cancelDestroySent := true })
    submitControl .destroy (runtime.cancelStatementId.getD [])

/-- Closes a session that has been idle for long. -/
def closeIdle (config : BrokerConfig) (now : ℤ) : SessionM Unit := do
  let runtime := (← get).runtime
  Program.when (runtime.accepting ∧ runtime.session.state = .idle
      ∧ Passed runtime.idleDeadline now)
    (queueCloseLocked config "idle_timeout".toList false now)

def runTimers (config : BrokerConfig) (now : ℤ) : SessionM Unit := do
  timeOut config now
  escalate now
  closeIdle config now

def runTimersOnce (config : BrokerConfig) (now : ℤ) : BrokerM Unit := do
  (← get).sessions.keys.forM (fun sessionId => onRuntime sessionId (runTimers config now))

/-! ### Shutting down -/

/-- Asks the lane of an active session to close it. -/
def shutdownSession (config : BrokerConfig) (now : ℤ) : SessionM Unit := do
  Program.when ((← get).runtime.session.state.IsActive)
    (queueCloseLocked config "shutdown".toList true now)

def shutdown (config : BrokerConfig) (now : ℤ) : BrokerM Unit := do
  Program.when ((← get).isShutdown = false) do
    modify (fun b => { b with isShutdown := true })
    (← get).sessions.keys.forM (fun sessionId => onRuntime sessionId (shutdownSession config now))

/-- Asks a control lane to stop. -/
def stopControl (datasourceId : Text) (control : ControlLane) : BrokerM Unit :=
  modify (fun b =>
    { b with
      controls := b.controls.set datasourceId
        { control with mailbox := control.mailbox ++ [none] } })

/-! ### Control lanes -/

/-- What a control lane learns from outside. -/
inductive ControlInput where
  /-- The thread goes on. -/
  | proceed
  /-- `channel.open()` returns, or raises. -/
  | opened (support : Option ServerCancelState)
  /-- `channel.cancel` or `channel.destroy` returns, or raises. -/
  | executed (raises : Bool)
deriving DecidableEq

def setControl (datasourceId : Text) (control : ControlLane) : BrokerM Unit :=
  modify (fun b => { b with controls := b.controls.set datasourceId control })

/-- A command fails if the channel raises, and also if it is not executed: because the channel
cannot cancel, or because the session has no marker. -/
def controlFailed (control : ControlLane) (command : ControlCommand) (marker : Option Text)
    (raises : Bool) : Bool :=
  (command.kind = .cancel ∧ control.support ≠ .available) ∨ marker = none ∨ raises

/-- Sets where the thread of a control lane stands. -/
def setControlPoint (datasourceId : Text) (point : ControlPoint) (b : SessionBroker) :
    SessionBroker :=
  match b.controls.get? datasourceId with
  | none => b
  | some control =>
      { b with controls := b.controls.set datasourceId { control with point := point } }

/-- What is done when a command has been executed. -/
def onControlDone (config : BrokerConfig) (command : ControlCommand) (failed : Bool) (now : ℤ) :
    SessionM Unit :=
  match command.kind with
  | .cancel => onControlCancelDone config failed now
  | .destroy => onControlDestroyDone failed now

/-- Notes a command to destroy that has been executed and reported. -/
def SessionBroker.noteReported (command : ControlCommand) (b : SessionBroker) : SessionBroker :=
  match command.kind with
  | .cancel => b
  | .destroy =>
      { b with history := { b.history with
          destroyed := b.history.destroyed ++ [command.sessionId] } }

/-- Reports a command.  An exception that nothing catches ends the thread. -/
def reportControl (config : BrokerConfig) (datasourceId : Text) (command : ControlCommand)
    (failed : Bool) (now : ℤ) : BrokerM Unit := do
  Program.onRaise (setControlPoint datasourceId .stopped)
    (onRuntime command.sessionId (onControlDone config command failed now))
  modify (fun b => (setControlPoint datasourceId .waiting b).noteReported command)

/-- What a control lane does next, if it can go on with what it learns. -/
def controlNext (config : BrokerConfig) (b : SessionBroker) (datasourceId : Text)
    (control : ControlLane) (input : ControlInput) (now : ℤ) : Option (BrokerM Unit) :=
  match control.point, input with
  | .opening, .opened support =>
      some (setControl datasourceId
        { control with point := .waiting, support := support.getD .degraded })
  | .waiting, .proceed =>
      match control.mailbox with
      | [] => none
      | none :: rest =>
          some (setControl datasourceId { control with mailbox := rest, point := .stopped })
      | some command :: rest =>
          some (setControl datasourceId
            { control with mailbox := rest, point := .running command })
  | .running command, .executed raises =>
      (b.sessions.get? command.sessionId).map (fun runtime =>
        let failed := controlFailed control command runtime.session.dbSessionMarker raises
        setControl datasourceId { control with point := .reporting command failed })
  | .reporting command failed, .proceed =>
      some (reportControl config datasourceId command failed now)
  | _, _ => none

/-! ### Actions -/

/-- What can happen to a broker.  An action carries what comes from outside: the time, the
identifiers that are made, and the answers of the database. -/
inductive Action where
  | attachEnter (request : AttachRequest)
  | attachSerial (sessionId : Text) (connectionRaises : Bool) (now : ℤ)
  | attachControl (channelRaises startRaises : Bool)
  | attachReady (storeRaises : Bool)
  | attachTimeout
  | submit (request : SubmitRequest) (statementId : Text) (resultSetId : Option Text) (now : ℤ)
  | cancel (statementId : Text) (epoch now : ℤ)
  | close (sessionId : Text) (epoch : ℤ) (reason : Text) (now : ℤ)
  | timer (now : ℤ)
  | lane (sessionId : Text) (input : LaneInput) (now : ℤ)
  | control (datasourceId : Text) (input : ControlInput) (now : ℤ)
  | shutdown (now : ℤ)
  | stopControl (datasourceId : Text)
  | restart (bootId : Text) (now : ℤ)
deriving DecidableEq

/-- Notes that a statement is handed to `connection.execute`. -/
def noteExecuted (runtime : SessionRuntime) (input : LaneInput) : BrokerM Unit :=
  match runtime.lane, input with
  | .preparing statementId, .proceed =>
      modify (fun b =>
        { b with history := { b.history with
            executed := b.history.executed ++ [statementId] } })
  | _, _ => pure ()

/-- The lane of a session goes on. -/
def laneStep (config : BrokerConfig) (b : SessionBroker) (sessionId : Text) (input : LaneInput)
    (now : ℤ) : Option (BrokerM Unit) :=
  (b.sessions.get? sessionId).bind (fun runtime =>
    (laneNext config runtime input now).map (fun next => do
      noteExecuted runtime input
      onRuntime sessionId (onLane next)))

/-- An attachment goes on. -/
def attachStep (config : BrokerConfig) (b : SessionBroker) : Action → Option (BrokerM Unit)
  | .attachEnter request =>
      if b.attaching = none then
        some (onAttach (if b.isShutdown then throw (.runtimeError "broker is not running".toList)
          else modify (fun b => { b with attaching := some (.entered request) })))
      else none
  | .attachSerial sessionId connectionRaises now =>
      match b.attaching with
      | some (.entered request) =>
          some (onAttach (attachSerial config request sessionId connectionRaises now))
      | _ => none
  | .attachControl channelRaises startRaises =>
      match b.attaching with
      | some (.created request sessionId) =>
          some (onAttach (ensureControlLane request sessionId channelRaises startRaises))
      | _ => none
  | .attachReady storeRaises =>
      match b.attaching with
      | some (.awaiting request sessionId) =>
          (b.controls.get? request.datasourceId).bind (fun control =>
            if control.IsReady then
              some (onAttach (attachFinish sessionId control.support storeRaises))
            else none)
      | _ => none
  | .attachTimeout =>
      match b.attaching with
      | some (.awaiting request _) =>
          (b.controls.get? request.datasourceId).bind (fun control =>
            if control.IsReady then none
            else some (onAttach (throw (.runtimeError "control lane did not start".toList))))
      | _ => none
  | _ => none

/-- The broker that is started over the store an earlier one has left. -/
def SessionBroker.restarted (b : SessionBroker) (bootId : Text) (now : ℤ) : SessionBroker where
  bootId := bootId
  store := (MemoryBrokerStore.startupSweep bootId now b.store).2
  history := b.history

/-- What an action does, if it can happen. -/
def perform (config : BrokerConfig) (b : SessionBroker) : Action → Option (BrokerM Unit)
  | .submit request statementId resultSetId now =>
      some (discard (submit config request statementId resultSetId now))
  | .cancel statementId epoch now => some (discard (cancel config statementId epoch now))
  | .close sessionId epoch reason now => some (close config sessionId epoch reason now)
  | .timer now => some (runTimersOnce config now)
  | .lane sessionId input now => laneStep config b sessionId input now
  | .control datasourceId input now =>
      (b.controls.get? datasourceId).bind (fun control =>
        controlNext config b datasourceId control input now)
  | .shutdown now => some (shutdown config now)
  | .stopControl datasourceId =>
      if b.isShutdown then (b.controls.get? datasourceId).map (stopControl datasourceId)
      else none
  | .restart bootId now => some (set (b.restarted bootId now))
  | action => attachStep config b action

/-- The identifiers that are made are new, and the store does not fail. -/
def Action.Fresh (b : SessionBroker) : Action → Prop
  | .attachSerial sessionId _ _ => b.store.sessions.get? sessionId = none
  | .attachReady storeRaises => storeRaises = false
  | .submit _ statementId _ _ => b.store.statements.get? statementId = none
  | .restart bootId _ => ∀ id session, b.store.sessions.get? id = some session →
      session.brokerBootId ≠ bootId
  | _ => True

instance (b : SessionBroker) : (action : Action) → Decidable (action.Fresh b)
  | .attachSerial sessionId _ _ =>
      inferInstanceAs (Decidable (b.store.sessions.get? sessionId = none))
  | .attachReady storeRaises => inferInstanceAs (Decidable (storeRaises = false))
  | .submit _ statementId _ _ =>
      inferInstanceAs (Decidable (b.store.statements.get? statementId = none))
  | .restart bootId _ =>
      decidable_of_iff (∀ session ∈ b.store.sessions.values, session.brokerBootId ≠ bootId) (by
        constructor
        · intro h id session hid
          apply h session (Dict.mem_values_iff.mpr ⟨id, hid⟩)
        · intro h session hsession
          obtain ⟨id, hid⟩ := Dict.mem_values_iff.mp hsession
          apply h id session hid)
  | .attachEnter _ => inferInstanceAs (Decidable True)
  | .attachControl _ _ => inferInstanceAs (Decidable True)
  | .attachTimeout => inferInstanceAs (Decidable True)
  | .cancel _ _ _ => inferInstanceAs (Decidable True)
  | .close _ _ _ _ => inferInstanceAs (Decidable True)
  | .timer _ => inferInstanceAs (Decidable True)
  | .lane _ _ _ => inferInstanceAs (Decidable True)
  | .control _ _ _ => inferInstanceAs (Decidable True)
  | .shutdown _ => inferInstanceAs (Decidable True)
  | .stopControl _ => inferInstanceAs (Decidable True)

/-- The broker after an action, if it can happen. -/
def SessionBroker.next (config : BrokerConfig) (b : SessionBroker) (action : Action) :
    Option SessionBroker :=
  if action.Fresh b then (perform config b action).map (fun m => Program.stateOf (m.run b))
  else none

/-- The runs of a broker. -/
def brokerSystem (config : BrokerConfig) : TransitionSystem SessionBroker Action where
  initial := fun b => ∃ bootId, b = { bootId := bootId }
  step := fun b action b' => action.Fresh b
    ∧ ∃ m, perform config b action = some m ∧ b' = Program.stateOf (m.run b)

theorem step_of_next {config : BrokerConfig} {b b' : SessionBroker} {action : Action}
    (h : b.next config action = some b') :
  (brokerSystem config).step b action b'
  := by
  rw [SessionBroker.next] at h
  split at h
  · rename_i hfresh
    obtain ⟨m, hm, rfl⟩ := Option.map_eq_some_iff.mp h
    exact ⟨hfresh, m, hm, rfl⟩
  · cases h

/-- A run of a broker from the beginning. -/
def runOf (config : BrokerConfig) (bootId : Text) (actions : List Action) : Option SessionBroker :=
  actions.foldlM (SessionBroker.next config) { bootId := bootId }

theorem reachable_of_runOf {config : BrokerConfig} {bootId : Text} {actions : List Action}
    {b : SessionBroker} (h : runOf config bootId actions = some b) :
  (brokerSystem config).Reachable b
  := by
  have hinitial : (brokerSystem config).Reachable { bootId := bootId } :=
    .initial ⟨bootId, rfl⟩
  apply hinitial.later
  apply TransitionSystem.later_of_foldlM (fun _ _ _ => step_of_next) h

/-- A run of a broker from the beginning whose actions are all fine. -/
def runWith (config : BrokerConfig) (fine : SessionBroker → Action → Prop)
    [∀ b action, Decidable (fine b action)] (bootId : Text) (actions : List Action) :
    Option SessionBroker :=
  actions.foldlM (fun b action => if fine b action then b.next config action else none)
    { bootId := bootId }

theorem reachable_of_runWith {config : BrokerConfig} {fine : SessionBroker → Action → Prop}
    [∀ b action, Decidable (fine b action)] {bootId : Text} {actions : List Action}
    {b : SessionBroker} (h : runWith config fine bootId actions = some b) :
  ((brokerSystem config).restrict fine).Reachable b
  := by
  have hinitial : ((brokerSystem config).restrict fine).Reachable { bootId := bootId } :=
    .initial ⟨bootId, rfl⟩
  apply hinitial.later
  apply TransitionSystem.later_of_foldlM _ h
  intro b action b' hnext
  split at hnext
  · rename_i hfine
    exact ⟨step_of_next hnext, hfine⟩
  · cases hnext

end Broker

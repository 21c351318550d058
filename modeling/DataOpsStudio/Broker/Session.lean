import DataOpsStudio.Broker.Store

/-!
# The runtime of a session

A session is served by a lane, a thread of its own that takes commands from a mailbox, and by
the control lane of its datasource, which cancels and destroys.  Everything that happens to a
session happens while a lock is held: each program below is what is done between taking the
lock and releasing it.  Between them the lane stands at a point of its program, its
`LanePoint`.
-/

namespace Broker

open Text

/-! ### Limits and configuration -/

/-- How many sessions there may be. -/
structure SessionLimits where
  perUser : ℕ := 8
  perDatasource : ℕ := 4
  globalTotal : ℕ := 16
  positive : 0 < min perUser (min perDatasource globalTotal) := by decide

/-- The configuration of a broker.  The times are in microseconds. -/
structure BrokerConfig where
  limits : SessionLimits := {}
  mailboxSize : ℕ := 20
  idleTimeout : ℤ := 1800000000
  cancelGrace : ℤ := 5000000
  mailboxSize_pos : 0 < mailboxSize := by decide
  idleTimeout_pos : 0 < idleTimeout := by decide
  cancelGrace_nonneg : 0 ≤ cancelGrace := by decide

/-! ### Errors of the driver -/

/-- What an error of the driver means. -/
inductive ErrorCategory where
  | authFailed
  | hostUnreachable
  | loginTimeout
  | cancelled
  | timeout
  | statementError
  | connectionDead
  | unknown
deriving DecidableEq

def ErrorCategory.value : ErrorCategory → Text
  | authFailed => "auth_failed".toList
  | hostUnreachable => "host_unreachable".toList
  | loginTimeout => "login_timeout".toList
  | cancelled => "cancelled".toList
  | timeout => "timeout".toList
  | statementError => "statement_error".toList
  | connectionDead => "connection_dead".toList
  | unknown => "unknown".toList

/-- A classified error of the driver. -/
structure ClassifiedError where
  category : ErrorCategory
  driverCode : Option ℤ := none
  summary : Text := []
  serverConfirmed : Bool := false
deriving DecidableEq

namespace ClassifiedError

def connectionAborted (error : ClassifiedError) : Bool :=
  error.category = .connectionDead

def errorCode (error : ClassifiedError) : Text :=
  match error.driverCode with
  | none => error.category.value
  | some code => error.category.value ++ ':' :: intText code

end ClassifiedError

/-- An exception that `connection.execute` or the reading of rows raises. -/
structure InteractiveExecuteError where
  message : Text
  classified : ClassifiedError
deriving DecidableEq

/-- How the execution of a statement has ended. -/
structure StatementEnd where
  state : ConsoleStatementState
  errorCode : Option Text := none
  errorSummary : Option Text := none
  connectionLost : Bool := false
deriving DecidableEq

/-! ### Lanes -/

/-- A command for a lane. -/
inductive LaneCommand where
  | execute (statementId : Text)
  | close (reason : Text)
deriving DecidableEq

/-- Where the thread of a lane stands. -/
inductive LanePoint where
  /-- The thread has not been started. -/
  | unstarted
  /-- In `connection.open()`. -/
  | opening
  /-- In `mailbox.get()`. -/
  | waiting
  /-- Has a command to execute a statement, not counted off yet. -/
  | dequeued (statementId : Text)
  /-- Waits for the fence before it executes a statement. -/
  | fenced (statementId : Text)
  /-- Prepares the call of `connection.execute`. -/
  | preparing (statementId : Text)
  /-- In `connection.execute`. -/
  | executing (statementId : Text)
  /-- Reads rows. -/
  | draining (statementId : Text)
  /-- Has caught an exception; `none` stands for one that is not classified. -/
  | handling (statementId : Text) (error : Option InteractiveExecuteError)
  /-- Knows how the statement has ended. -/
  | finishing (statementId : Text) (outcome : StatementEnd)
  /-- Looks for a close that found the mailbox full. -/
  | checking
  /-- Waits for the fence before it closes the session. -/
  | closeFenced (reason : Text)
  /-- In `connection.close()`. -/
  | closing (reason : Text)
  | exited
deriving DecidableEq

/-- Why a statement is cancelled. -/
inductive CancelReason where
  | user
  | timeout
  | close
deriving DecidableEq

/-! ### Control lanes -/

inductive ControlKind where
  | cancel
  | destroy
deriving DecidableEq

/-- A command for a control lane.  It names a session; that it was made for a statement is
kept for the record, and no program reads it. -/
structure ControlCommand where
  kind : ControlKind
  sessionId : Text
  statementId : Text
deriving DecidableEq

/-- Where the thread of a control lane stands. -/
inductive ControlPoint where
  /-- In `channel.open()`. -/
  | opening
  /-- In `mailbox.get()`. -/
  | waiting
  /-- Executes a command. -/
  | running (command : ControlCommand)
  /-- Has executed a command and reports it; the flag says whether it failed. -/
  | reporting (command : ControlCommand) (failed : Bool)
  | stopped
deriving DecidableEq

/-- The control lane of a datasource. -/
structure ControlLane where
  mailbox : List (Option ControlCommand) := []
  point : ControlPoint := .opening
  support : ServerCancelState := .unknown
deriving DecidableEq

/-! ### Runtimes -/

/-- What the broker keeps of a session. -/
structure SessionRuntime where
  session : ConsoleSession
  mailbox : List LaneCommand := []
  statements : Dict Text ConsoleStatement := Dict.empty
  requests : Dict Text Text := Dict.empty
  accepting : Bool := true
  pendingCount : ℤ := 0
  currentStatementId : Option Text := none
  statementDeadline : Option ℤ := none
  idleDeadline : Option ℤ := none
  lane : LanePoint := .unstarted
  cancelInFlight : Bool := false
  cancelStatementId : Option Text := none
  cancelReason : Option CancelReason := none
  cancelControlDone : Bool := false
  cancelStatementDone : Bool := false
  cancelConfirmed : Bool := false
  cancelGraceDeadline : Option ℤ := none
  cancelDestroySent : Bool := false
  closeReasonPending : Option Text := none
  /-- The flag of the connection that asks for a cancellation. -/
  softCancel : Bool := false
deriving DecidableEq

/-- What a program on a session sees: its runtime, the store and the control lanes. -/
structure Focus where
  runtime : SessionRuntime
  store : MemoryBrokerStore
  controls : Dict Text ControlLane

/-- Programs on a session. -/
abbrev SessionM := EStateM BrokerExn Focus

/-- Runs a program on the store. -/
def onStore {α : Type} (m : StoreM α) : SessionM α :=
  Program.onPart Focus.store (fun store c => { c with store := store }) m

def modifyRuntime (f : SessionRuntime → SessionRuntime) : SessionM Unit :=
  modify (fun c => { c with runtime := f c.runtime })

def setLane (point : LanePoint) : SessionM Unit :=
  modifyRuntime (fun runtime => { runtime with lane := point })

/-- The statement of the runtime under an identifier. -/
def requireStatement (statementId : Text) : SessionM ConsoleStatement := do
  Program.demand (.keyError statementId) ((← get).runtime.statements.get? statementId)

/-- Replaces the session. -/
def assignSession (session : ConsoleSession) : SessionM Unit :=
  modifyRuntime (fun runtime => { runtime with session := session })

/-- Replaces a statement. -/
def assignStatement (statement : ConsoleStatement) : SessionM Unit :=
  modifyRuntime (fun runtime =>
    { runtime with statements := runtime.statements.set statement.id statement })

/-- Replaces a statement and writes it to the store. -/
def saveStatement (statement : ConsoleStatement) : SessionM Unit := do
  assignStatement statement
  onStore (MemoryBrokerStore.updateStatement statement)

/-- Changes the session along a transition, together with other fields, and writes it to the
store. -/
def moveSession (target : ConsoleSessionState) (change : ConsoleSession → ConsoleSession) :
    SessionM Unit := do
  let session := (← get).runtime.session
  let state ← Program.ofExcept (transitionSession session.state target)
  let moved := change { session with state := state }
  assignSession moved
  onStore (MemoryBrokerStore.updateSession moved)

def recordEvent (statementId eventType : Text) (now : ℤ) : SessionM Unit :=
  onStore (MemoryBrokerStore.addEvent statementId eventType now)

def idleDeadlineAfter (config : BrokerConfig) (lastActivityAt : ℤ) : ℤ :=
  lastActivityAt + config.idleTimeout

/-- Puts a command in the mailbox of the control lane of a datasource, if there is one. -/
def postControl (command : ControlCommand) (datasourceId : Text)
    (controls : Dict Text ControlLane) : Dict Text ControlLane :=
  match controls.get? datasourceId with
  | none => controls
  | some control =>
      controls.set datasourceId
        { control with mailbox := control.mailbox ++ [some command] }

def submitControl (kind : ControlKind) (statementId : Text) : SessionM Unit :=
  modify (fun c =>
    { c with
      controls := postControl
        { kind := kind, sessionId := c.runtime.session.id, statementId := statementId }
        c.runtime.session.datasourceId c.controls })

/-! ### Statements and the loss of a session -/

/-- Changes a statement along a transition. -/
def setStatementState (statement : ConsoleStatement) (state : ConsoleStatementState) (now : ℤ)
    (cancelRequested : Option Bool) (errorCode errorSummary : Option Text) :
    SessionM ConsoleStatement := do
  let target ← Program.ofExcept (transitionStatement statement.state state)
  let updated := { statement with
    state := target
    cancelRequested := cancelRequested.getD statement.cancelRequested
    errorCode := errorCode
    errorSummary := errorSummary
    finishedAt := if state.IsTerminal then some now else statement.finishedAt }
  saveStatement updated
  return updated

/-- No statement is being executed any more. -/
def clearCurrent : SessionM Unit :=
  modifyRuntime (fun runtime =>
    { runtime with currentStatementId := none, statementDeadline := none })

/-- Gives a session up. -/
def loseSessionLocked (reason : Text) (now : ℤ) : SessionM Unit := do
  Program.when ((← get).runtime.session.state ≠ .sessionLost) do
    modifyRuntime (fun runtime => { runtime with accepting := false, cancelInFlight := false })
    let session := (← get).runtime.session
    let state ← Program.ofExcept (transitionSession session.state .sessionLost)
    let lost := { session with
      state := state
      closedAt := some now
      closeReason := some reason
      errorCode := some reason
      lastActivityAt := now }
    assignSession lost
    modifyRuntime (fun runtime => { runtime with idleDeadline := none })
    onStore (MemoryBrokerStore.updateSession lost)

/-! ### The cancel fence -/

/-- The runtime with a fence around a statement. -/
def SessionRuntime.raiseFence (config : BrokerConfig) (now : ℤ) (statementId : Text)
    (reason : CancelReason) (runtime : SessionRuntime) : SessionRuntime :=
  { runtime with
    cancelInFlight := true
    cancelStatementId := some statementId
    cancelReason := some reason
    cancelControlDone := false
    cancelStatementDone := false
    cancelConfirmed := false
    cancelDestroySent := false
    cancelGraceDeadline := some (now + config.cancelGrace)
    softCancel := true }

/-- The runtime without a fence. -/
def SessionRuntime.releaseFence (runtime : SessionRuntime) : SessionRuntime :=
  { runtime with
    cancelInFlight := false
    cancelStatementId := none
    cancelReason := none
    cancelGraceDeadline := none
    cancelDestroySent := false
    softCancel := false }

/-- Hands the cancellation of a statement to the control lane. -/
def dispatchCancel (statementId : Text) (now : ℤ) : SessionM Unit := do
  recordEvent statementId "cancel_requested".toList now
  let c ← get
  if c.controls.contains c.runtime.session.datasourceId then
    submitControl .cancel statementId
  else
    throw (.runtimeError "control lane is missing for an active session".toList)

/-- Begins to cancel a statement, unless a cancellation is under way. -/
def beginCancelLocked (config : BrokerConfig) (now : ℤ) (statement : ConsoleStatement)
    (reason : CancelReason) : SessionM Unit := do
  Program.when ((← get).runtime.cancelInFlight = false) do
    modifyRuntime (SessionRuntime.raiseFence config now statement.id reason)
    saveStatement { statement with cancelRequested := true }
    Program.when ((← get).runtime.session.state = .executing)
      (moveSession .cancelling (fun session => { session with lastActivityAt := now }))
    dispatchCancel statement.id now

/-- The session becomes idle. -/
def becomeIdle (config : BrokerConfig) (now : ℤ) : SessionM Unit := do
  let session := (← get).runtime.session
  let state ← Program.ofExcept (transitionSession session.state .idle)
  let idle := { session with state := state, lastActivityAt := now }
  assignSession idle
  modifyRuntime (fun runtime =>
    { runtime with idleDeadline := some (idleDeadlineAfter config now) })
  onStore (MemoryBrokerStore.updateSession idle)

/-- Releases the fence around a statement, if its cancellation is confirmed or both the
control lane and the statement are done. -/
def settleCancelFenceLocked (config : BrokerConfig) (statementId : Text) (now : ℤ) :
    SessionM Unit := do
  let runtime := (← get).runtime
  Program.when (runtime.cancelInFlight ∧ runtime.cancelStatementId = some statementId) do
    let statement ← requireStatement statementId
    modifyRuntime (fun runtime =>
      { runtime with cancelStatementDone := statement.state.IsTerminal })
    let runtime := (← get).runtime
    Program.when (runtime.cancelConfirmed
        ∨ (runtime.cancelControlDone ∧ runtime.cancelStatementDone)) do
      modifyRuntime SessionRuntime.releaseFence
      Program.when ((← get).runtime.session.state = .cancelling) (becomeIdle config now)

/-- The control lane has executed a command to cancel. -/
def onControlCancelDone (config : BrokerConfig) (failed : Bool) (now : ℤ) : SessionM Unit := do
  match (← get).runtime.cancelStatementId with
  | none => return ()
  | some statementId =>
      let statement ← requireStatement statementId
      modifyRuntime (fun runtime => { runtime with cancelControlDone := true })
      recordEvent statement.id
        (if failed then "cancel_failed".toList else "cancel_dispatched".toList) now
      settleCancelFenceLocked config statementId now

/-- The control lane has executed a command to destroy. -/
def onControlDestroyDone (failed : Bool) (now : ℤ) : SessionM Unit := do
  match (← get).runtime.cancelStatementId with
  | none => return ()
  | some statementId =>
      let statement ← requireStatement statementId
      recordEvent statement.id
        (if failed then "destroy_failed".toList else "cancel_escalated".toList) now
      let current ← requireStatement statementId
      Program.when (¬ current.state.IsTerminal) do
        let _ ← setStatementState current (MemoryBrokerStore.unobserved current) now none
          (some "connection_aborted".toList)
          (some "cancel escalation destroyed the session".toList)
      loseSessionLocked "cancel_escalated".toList now
      clearCurrent

/-! ### Closing -/

/-- Cancels a statement that has not been started. -/
def cancelQueuedStatement (eventType : Text) (now : ℤ) (statement : ConsoleStatement) :
    SessionM Unit := do
  let updated ← setStatementState statement .cancelled now (some true) none none
  recordEvent updated.id eventType now

/-- Cancels the statements that have not been started. -/
def cancelQueuedLocked (eventType : Text) (now : ℤ) : SessionM Unit := do
  let accepted := (← get).runtime.statements.values.filter (fun statement =>
    statement.state = .accepted)
  accepted.forM (cancelQueuedStatement eventType now)

/-- Puts the command to close in the mailbox, or notes it if the mailbox is full. -/
def putClose (config : BrokerConfig) (reason : Text) (runtime : SessionRuntime) :
    SessionRuntime :=
  if runtime.mailbox.length < config.mailboxSize then
    { runtime with mailbox := runtime.mailbox ++ [.close reason] }
  else
    { runtime with closeReasonPending := some reason }

/-- Begins to cancel the statement that is being executed, if there is one. -/
def cancelCurrent (config : BrokerConfig) (now : ℤ) : SessionM Unit := do
  match (← get).runtime.currentStatementId with
  | none => return ()
  | some statementId =>
      let statement ← requireStatement statementId
      Program.when statement.state.IsInFlight (beginCancelLocked config now statement .close)

/-- Asks the lane to close the session. -/
def queueCloseLocked (config : BrokerConfig) (reason : Text) (cancels : Bool) (now : ℤ) :
    SessionM Unit := do
  Program.when (← get).runtime.accepting do
    modifyRuntime (fun runtime => { runtime with accepting := false })
    Program.when cancels (cancelCurrent config now)
    Program.when (reason = "shutdown".toList)
      (cancelQueuedLocked "cancelled_for_shutdown".toList now)
    modifyRuntime (putClose config reason)

/-! ### The program of a lane -/

/-- What the lane learns from outside at a point of its program. -/
inductive LaneInput where
  /-- The thread goes on. -/
  | proceed
  /-- `connection.open()` returns a marker. -/
  | opened (marker : Text)
  /-- `connection.open()` raises. -/
  | openFailed (errorCode : Text)
  /-- `connection.execute` or the reading of rows returns. -/
  | returned
  /-- An exception is raised; `none` stands for one that is not classified. -/
  | raised (error : Option InteractiveExecuteError)
  /-- The answer of `connection.ping()`. -/
  | pinged (alive : Bool)
deriving DecidableEq

/-- The connection could not be opened. -/
def laneOpenFailed (errorCode : Text) (now : ℤ) : SessionM Unit := do
  modifyRuntime (fun runtime => { runtime with accepting := false })
  moveSession .connectFailed (fun session =>
    { session with
      errorCode := some errorCode
      closedAt := some now
      closeReason := some "connect_failed".toList
      lastActivityAt := now })
  setLane .exited

/-- The connection is open. -/
def laneOpened (config : BrokerConfig) (marker : Text) (now : ℤ) : SessionM Unit := do
  let session := (← get).runtime.session
  let state ← Program.ofExcept (transitionSession session.state .idle)
  let idle := { session with
    state := state, dbSessionMarker := some marker, lastActivityAt := now }
  assignSession idle
  modifyRuntime (fun runtime =>
    { runtime with idleDeadline := some (idleDeadlineAfter config now) })
  onStore (MemoryBrokerStore.updateSession idle)
  setLane .waiting

/-- Takes the first command from the mailbox. -/
def laneGet (runtime : SessionRuntime) : Option (SessionM Unit) :=
  match runtime.mailbox with
  | [] => none
  | .execute statementId :: rest =>
      some (modifyRuntime (fun runtime =>
        { runtime with mailbox := rest, lane := .dequeued statementId }))
  | .close reason :: rest =>
      some (modifyRuntime (fun runtime =>
        { runtime with
          mailbox := rest
          lane := .closeFenced (if reason = [] then "user".toList else reason) }))

/-- The lane waits as long as a cancellation is under way in an active session. -/
def SessionRuntime.Fenced (runtime : SessionRuntime) : Prop :=
  runtime.cancelInFlight ∧ runtime.session.state.IsActive

instance (runtime : SessionRuntime) : Decidable runtime.Fenced :=
  inferInstanceAs (Decidable (_ ∧ _))

/-- The deadline of a statement; none if it has no time limit. -/
def deadlineOf (statement : ConsoleStatement) (now : ℤ) : Option ℤ :=
  if 0 < statement.timeoutSeconds then some (now + statement.timeoutSeconds * 1000000) else none

/-- Starts a statement, unless it is no longer accepted or the session is being closed. -/
def executeStatementStart (statementId : Text) (now : ℤ) : SessionM Unit := do
  let statement ← requireStatement statementId
  let runtime := (← get).runtime
  if statement.state ≠ .accepted then setLane .checking
  else if runtime.accepting = false ∧ runtime.session.state ≠ .idle
      ∧ runtime.session.state ≠ .executing then setLane .checking
  else do
    modifyRuntime (fun runtime =>
      { runtime with
        softCancel := false
        currentStatementId := some statement.id
        statementDeadline := deadlineOf statement now })
    let state ← Program.ofExcept (transitionSession runtime.session.state .executing)
    let session := { runtime.session with state := state, lastActivityAt := now }
    assignSession session
    let target ← Program.ofExcept (transitionStatement statement.state .executing)
    let started := { statement with state := target, startedAt := some now }
    assignStatement started
    onStore (MemoryBrokerStore.updateSession session)
    onStore (MemoryBrokerStore.updateStatement started)
    recordEvent statement.id "started".toList now
    setLane (.preparing statementId)

/-- The rows of a statement begin to arrive. -/
def executeStatementStream (statementId : Text) : SessionM Unit := do
  let current ← requireStatement statementId
  Program.when (current.state = .executing) do
    let target ← Program.ofExcept (transitionStatement current.state .streaming)
    saveStatement { current with state := target }
  setLane (.draining statementId)

/-- How a statement ends if its connection is lost. -/
def lostEnd (statement : ConsoleStatement) (error : ClassifiedError) (summary : Text) :
    StatementEnd where
  state := MemoryBrokerStore.unobserved statement
  errorCode := some error.errorCode
  errorSummary := some summary
  connectionLost := true

/-- What the lane makes of an exception.  `alive` is the answer of a ping, which is made only
for an error nothing is known about. -/
def executeStatementHandle (statementId : Text) (error : Option InteractiveExecuteError)
    (alive : Bool) : SessionM Unit := do
  let statement ← requireStatement statementId
  match error with
  | none =>
      setLane (.finishing statementId
        { state := .failed
          errorCode := some "broker_execution_error".toList
          errorSummary := some "statement execution failed".toList })
  | some raised =>
      let classified := raised.classified
      let summary := if classified.summary = [] then raised.message else classified.summary
      let ended (state : ConsoleStatementState) : StatementEnd :=
        { state := state
          errorCode := some classified.errorCode
          errorSummary := some summary }
      if classified.connectionAborted then
        setLane (.finishing statementId (lostEnd statement classified summary))
      else if classified.category = .timeout then
        setLane (.finishing statementId (ended .timeout))
      else if classified.category = .cancelled then do
        let reason := (← get).runtime.cancelReason
        Program.when classified.serverConfirmed
          (modifyRuntime (fun runtime => { runtime with cancelConfirmed := true }))
        setLane (.finishing statementId
          (ended (if reason = some .timeout then .timeout else .cancelled)))
      else if classified.category = .unknown ∧ alive = false then
        setLane (.finishing statementId (lostEnd statement classified summary))
      else
        setLane (.finishing statementId (ended .failed))

/-- Ends a statement. -/
def executeStatementFinish (config : BrokerConfig) (statementId : Text) (outcome : StatementEnd)
    (now : ℤ) : SessionM Unit := do
  let current ← requireStatement statementId
  Program.when (¬ current.state.IsTerminal) do
    let _ ← setStatementState current outcome.state now none outcome.errorCode
      outcome.errorSummary
    recordEvent statementId "terminal".toList now
  Program.when (outcome.connectionLost ∧ (← get).runtime.session.state ≠ .sessionLost)
    (loseSessionLocked "connection_dead".toList now)
  Program.when ((← get).runtime.currentStatementId = some statementId) clearCurrent
  settleCancelFenceLocked config statementId now
  let runtime := (← get).runtime
  Program.when (runtime.cancelInFlight = false
      ∧ (runtime.session.state = .executing ∨ runtime.session.state = .cancelling))
    (becomeIdle config now)
  setLane .checking

/-- Looks for a close that found the mailbox full; it is made once the mailbox is empty. -/
def closeIfPendingAndDrained : SessionM Unit := do
  let runtime := (← get).runtime
  match runtime.closeReasonPending with
  | none => setLane .waiting
  | some reason =>
      if runtime.mailbox = [] then
        modifyRuntime (fun runtime =>
          { runtime with closeReasonPending := none, lane := .closeFenced reason })
      else setLane .waiting

/-- Begins to close the session. -/
def closeOnLaneBegin (reason : Text) (now : ℤ) : SessionM Unit := do
  let state := (← get).runtime.session.state
  if state = .closed ∨ state = .sessionLost ∨ state = .connectFailed then setLane .exited
  else do
    Program.when (state ≠ .closing)
      (moveSession .closing (fun session => { session with lastActivityAt := now }))
    setLane (.closing reason)

/-- The connection is closed. -/
def closeOnLaneEnd (reason : Text) (now : ℤ) : SessionM Unit := do
  let session := (← get).runtime.session
  let state ← Program.ofExcept (transitionSession session.state .closed)
  let closed := { session with
    state := state
    closedAt := some now
    closeReason := some reason
    lastActivityAt := now }
  assignSession closed
  modifyRuntime (fun runtime => { runtime with idleDeadline := none })
  onStore (MemoryBrokerStore.updateSession closed)
  setLane .exited

/-- What the lane does next, if it can go on with what it learns. -/
def laneNext (config : BrokerConfig) (runtime : SessionRuntime) (input : LaneInput) (now : ℤ) :
    Option (SessionM Unit) :=
  match runtime.lane, input with
  | .opening, .opened marker => some (laneOpened config marker now)
  | .opening, .openFailed errorCode => some (laneOpenFailed errorCode now)
  | .waiting, .proceed => laneGet runtime
  | .dequeued statementId, .proceed =>
      some (modifyRuntime (fun runtime =>
        { runtime with
          pendingCount := runtime.pendingCount - 1
          lane := .fenced statementId }))
  | .fenced statementId, .proceed =>
      if runtime.Fenced then none else some (executeStatementStart statementId now)
  | .preparing statementId, .proceed => some (setLane (.executing statementId))
  | .preparing statementId, .raised none => some (setLane (.handling statementId none))
  | .executing statementId, .returned => some (executeStatementStream statementId)
  | .executing statementId, .raised error => some (setLane (.handling statementId error))
  | .draining statementId, .returned =>
      some (setLane (.finishing statementId { state := .succeeded }))
  | .draining statementId, .raised error => some (setLane (.handling statementId error))
  | .handling statementId error, .pinged alive =>
      some (executeStatementHandle statementId error alive)
  | .finishing statementId outcome, .proceed =>
      some (executeStatementFinish config statementId outcome now)
  | .checking, .proceed => some closeIfPendingAndDrained
  | .closeFenced reason, .proceed =>
      if runtime.Fenced then none else some (closeOnLaneBegin reason now)
  | .closing reason, .proceed => some (closeOnLaneEnd reason now)
  | _, _ => none

/-- An exception that nothing catches ends the thread. -/
def onLane (m : SessionM Unit) : SessionM Unit :=
  Program.onRaise (fun c => { c with runtime := { c.runtime with lane := .exited } }) m

end Broker

import DataOpsStudio.Broker.State
import DataOpsStudio.Library.Dict
import DataOpsStudio.Library.Program

/-!
# The store

The store keeps the last known state of every session and statement, the events of
statements, and for every console the epoch of its last attachment.  It outlives the broker:
a broker that starts sweeps the sessions an earlier one has left behind.
-/

namespace Broker

open Text

/-- Who attaches to what. -/
structure AttachRequest where
  consoleId : Text
  datasourceId : Text
  ownerUserId : Text
deriving DecidableEq

/-- What a sweep has changed. -/
structure SweepReport where
  sessionsLost : ℕ := 0
  readFailed : ℕ := 0
  writeOutcomeUnknown : ℕ := 0
deriving DecidableEq

/-- The store. -/
structure MemoryBrokerStore where
  sessions : Dict Text ConsoleSession := Dict.empty
  statements : Dict Text ConsoleStatement := Dict.empty
  events : List ConsoleStatementEvent := []
  epochs : Dict Text ℤ := Dict.empty
deriving DecidableEq

/-- Programs on the store. -/
abbrev StoreM := EStateM BrokerExn MemoryBrokerStore

namespace MemoryBrokerStore

/-- The epoch of the next attachment to a console. -/
def nextEpoch (store : MemoryBrokerStore) (consoleId : Text) : ℤ :=
  (store.epochs.get? consoleId).getD 0 + 1

/-- Counts an attachment, and records the session that is attached to: a new one, or one that
is reused. -/
def attachSession (request : AttachRequest) (sessionId brokerBootId : Text) (now : ℤ)
    (reuseSessionId : Option Text) : StoreM ConsoleSession := do
  let epoch := (← get).nextEpoch request.consoleId
  modify (fun store => { store with epochs := store.epochs.set request.consoleId epoch })
  let attached ← match reuseSessionId with
    | some reused =>
        match (← get).sessions.get? reused with
        | none => throw (.storeError "live session is missing from persistence".toList)
        | some existing => pure { existing with epoch := epoch, lastActivityAt := now }
    | none =>
        pure {
          id := sessionId
          consoleId := request.consoleId
          datasourceId := request.datasourceId
          ownerUserId := request.ownerUserId
          epoch := epoch
          state := .connecting
          brokerBootId := brokerBootId
          createdAt := now
          lastActivityAt := now }
  modify (fun store => { store with sessions := store.sessions.set attached.id attached })
  return attached

def updateSession (session : ConsoleSession) : StoreM Unit := do
  if (← get).sessions.contains session.id then
    modify (fun store => { store with sessions := store.sessions.set session.id session })
  else
    throw (.storeError "session does not exist".toList)

/-- The statement of a session under a client request. -/
def findRequest (store : MemoryBrokerStore) (sessionId clientRequestId : Text) :
    Option ConsoleStatement :=
  store.statements.values.find? (fun existing =>
    existing.sessionId = sessionId ∧ existing.clientRequestId = clientRequestId)

/-- The number of the next statement of a session. -/
def nextSeq (store : MemoryBrokerStore) (sessionId : Text) : ℕ :=
  1 + ((store.statements.values.filter (fun statement =>
    statement.sessionId = sessionId)).map ConsoleStatement.seq).foldl max 0

/-- The statement as it is accepted. -/
def newStatement (session : ConsoleSession) (statementId : Text) (seq : ℕ)
    (clientRequestId sql : Text) (timeoutSeconds now : ℤ) (isWrite : Bool) : ConsoleStatement where
  id := statementId
  sessionId := session.id
  consoleId := session.consoleId
  datasourceId := session.datasourceId
  ownerUserId := session.ownerUserId
  epoch := session.epoch
  seq := seq
  clientRequestId := clientRequestId
  sqlText := sql
  isWrite := isWrite
  timeoutSeconds := timeoutSeconds
  submittedAt := now

/-- Records a statement unless the session has one for the same client request, and says
whether it had. -/
def createStatement (session : ConsoleSession) (statementId clientRequestId sql : Text)
    (timeoutSeconds now : ℤ) (isWrite : Bool) : StoreM (ConsoleStatement × Bool) := do
  let store ← get
  match store.findRequest session.id clientRequestId with
  | some existing => return (existing, true)
  | none =>
      let statement := newStatement session statementId (store.nextSeq session.id)
        clientRequestId sql timeoutSeconds now isWrite
      modify (fun store =>
        { store with statements := store.statements.set statement.id statement })
      return (statement, false)

def updateStatement (statement : ConsoleStatement) : StoreM Unit := do
  if (← get).statements.contains statement.id then
    modify (fun store =>
      { store with statements := store.statements.set statement.id statement })
  else
    throw (.storeError "statement does not exist".toList)

def addEvent (statementId eventType : Text) (now : ℤ) : StoreM Unit :=
  modify (fun store =>
    { store with
      events := store.events ++
        [{ id := store.events.length + 1
           statementId := statementId
           ts := now
           eventType := eventType }] })

/-! ### The sweep -/

/-- A session that an earlier broker has left behind. -/
def IsStale (currentBootId : Text) (session : ConsoleSession) : Prop :=
  session.brokerBootId ≠ currentBootId ∧ session.state.IsActive

instance (currentBootId : Text) (session : ConsoleSession) :
    Decidable (IsStale currentBootId session) :=
  inferInstanceAs (Decidable (_ ∧ _))

def sweepSession (currentBootId : Text) (now : ℤ) (session : ConsoleSession) : ConsoleSession :=
  if IsStale currentBootId session then
    { session with
      state := .sessionLost
      closedAt := some now
      closeReason := some "broker_restart".toList
      errorCode := some "broker_restart".toList }
  else session

/-- A statement that was being executed in a session that is swept. -/
def IsAbandoned (store : MemoryBrokerStore) (currentBootId : Text)
    (statement : ConsoleStatement) : Prop :=
  (∃ session ∈ store.sessions.get? statement.sessionId, IsStale currentBootId session)
    ∧ statement.state.IsInFlight

instance (store : MemoryBrokerStore) (currentBootId : Text) (statement : ConsoleStatement) :
    Decidable (IsAbandoned store currentBootId statement) :=
  inferInstanceAs (Decidable (_ ∧ _))

/-- The state of a statement whose outcome was not observed. -/
def unobserved (statement : ConsoleStatement) : ConsoleStatementState :=
  if statement.isWrite then .outcomeUnknown else .failed

theorem unobserved_eq (statement : ConsoleStatement) :
  unobserved statement = .failed ∨ unobserved statement = .outcomeUnknown
  := by
  rw [unobserved]
  split
  · exact .inr rfl
  · exact .inl rfl

/-- A statement that is being executed may come to an end that is not observed. -/
theorem unobserved_edge {statement : ConsoleStatement} (h : statement.state.IsInFlight) :
  StatementEdge statement.state (unobserved statement)
  := by
  obtain hstate | hstate := ConsoleStatementState.isInFlight_iff.mp h
  all_goals
    obtain hend | hend := unobserved_eq statement
    all_goals
      rw [hstate, hend]
      decide

def sweepStatement (store : MemoryBrokerStore) (currentBootId : Text) (now : ℤ)
    (statement : ConsoleStatement) : ConsoleStatement :=
  if IsAbandoned store currentBootId statement then
    { statement with
      state := unobserved statement
      errorCode := some "broker_restart".toList
      errorSummary := some "broker restarted before statement outcome was observed".toList
      finishedAt := some now }
  else statement

/-- A broker that starts gives up the sessions of earlier brokers and the statements that
were being executed in them. -/
def startupSweep (currentBootId : Text) (now : ℤ) (store : MemoryBrokerStore) :
    SweepReport × MemoryBrokerStore :=
  let abandoned := store.statements.values.filter (fun statement =>
    IsAbandoned store currentBootId statement)
  ({ sessionsLost := (store.sessions.values.filter (fun session =>
       IsStale currentBootId session)).length
     readFailed := (abandoned.filter (fun statement => statement.isWrite = false)).length
     writeOutcomeUnknown := (abandoned.filter (fun statement => statement.isWrite)).length },
   { store with
     sessions := store.sessions.mapValues (sweepSession currentBootId now)
     statements := store.statements.mapValues (sweepStatement store currentBootId now) })

end MemoryBrokerStore

end Broker

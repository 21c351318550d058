import DataOpsStudio.Library.Text

/-!
# States of sessions and statements

The states a console session and a statement pass through, the table of the transitions
between them, and the records the broker keeps of both.  A transition outside the table
raises.  Times are counted in microseconds.
-/

namespace Broker

open Text

/-! ### What the broker raises -/

/-- An exception of the broker. -/
inductive BrokerExn where
  | brokerError (code : Text) (currentEpoch : Option ℤ)
  | valueError (message : Text)
  | runtimeError (message : Text)
  | invalidStateTransition (message : Text)
  | keyError (key : Text)
  | storeError (message : Text)
  | resultsError
  | factoryError
deriving DecidableEq

/-! ### States -/

/-- The state of a session. -/
inductive ConsoleSessionState where
  | connecting
  | idle
  | executing
  | cancelling
  | closing
  | closed
  | sessionLost
  | connectFailed
deriving DecidableEq

/-- The state of a statement. -/
inductive ConsoleStatementState where
  | accepted
  | executing
  | streaming
  | succeeded
  | failed
  | cancelled
  | timeout
  | outcomeUnknown
  | skipped
deriving DecidableEq

/-- Whether the server can cancel the operation of a session. -/
inductive ServerCancelState where
  | available
  | degraded
  | unknown
deriving DecidableEq

namespace ConsoleSessionState

def value : ConsoleSessionState → Text
  | connecting => "connecting".toList
  | idle => "idle".toList
  | executing => "executing".toList
  | cancelling => "cancelling".toList
  | closing => "closing".toList
  | closed => "closed".toList
  | sessionLost => "session_lost".toList
  | connectFailed => "connect_failed".toList

end ConsoleSessionState

namespace ConsoleStatementState

def value : ConsoleStatementState → Text
  | accepted => "accepted".toList
  | executing => "executing".toList
  | streaming => "streaming".toList
  | succeeded => "succeeded".toList
  | failed => "failed".toList
  | cancelled => "cancelled".toList
  | timeout => "timeout".toList
  | outcomeUnknown => "outcome_unknown".toList
  | skipped => "skipped".toList

end ConsoleStatementState

/-- The states in which a session holds its place in the registry. -/
def activeConsoleSessionStates : List ConsoleSessionState :=
  [.connecting, .idle, .executing, .cancelling, .closing]

/-- The states a statement does not leave. -/
def terminalStatementStates : List ConsoleStatementState :=
  [.succeeded, .failed, .cancelled, .timeout, .outcomeUnknown, .skipped]

/-- The states of a statement that is being executed. -/
def inFlightStatementStates : List ConsoleStatementState :=
  [.executing, .streaming]

def ConsoleSessionState.IsActive (state : ConsoleSessionState) : Prop :=
  state ∈ activeConsoleSessionStates

def ConsoleStatementState.IsTerminal (state : ConsoleStatementState) : Prop :=
  state ∈ terminalStatementStates

def ConsoleStatementState.IsInFlight (state : ConsoleStatementState) : Prop :=
  state ∈ inFlightStatementStates

instance (state : ConsoleSessionState) : Decidable state.IsActive :=
  inferInstanceAs (Decidable (state ∈ activeConsoleSessionStates))

instance (state : ConsoleStatementState) : Decidable state.IsTerminal :=
  inferInstanceAs (Decidable (state ∈ terminalStatementStates))

instance (state : ConsoleStatementState) : Decidable state.IsInFlight :=
  inferInstanceAs (Decidable (state ∈ inFlightStatementStates))

@[grind =]
theorem ConsoleSessionState.isActive_iff {state : ConsoleSessionState} :
  state.IsActive ↔ state ≠ .closed ∧ state ≠ .sessionLost ∧ state ≠ .connectFailed
  := by
  cases state <;> decide

@[grind =]
theorem ConsoleStatementState.isInFlight_iff {state : ConsoleStatementState} :
  state.IsInFlight ↔ state = .executing ∨ state = .streaming
  := by
  cases state <;> decide

/-- A statement waits, is being executed, or has come to an end. -/
@[grind =]
theorem ConsoleStatementState.isTerminal_iff {state : ConsoleStatementState} :
  state.IsTerminal ↔ state ≠ .accepted ∧ state ≠ .executing ∧ state ≠ .streaming
  := by
  cases state <;> decide

/-! ### Transitions -/

/-- The transitions of a session. -/
def sessionTransitions : List (ConsoleSessionState × ConsoleSessionState) :=
  [(.connecting, .idle),
   (.connecting, .connectFailed),
   (.connecting, .closing),
   (.idle, .executing),
   (.idle, .closing),
   (.idle, .closed),
   (.idle, .sessionLost),
   (.executing, .idle),
   (.executing, .cancelling),
   (.executing, .closing),
   (.executing, .sessionLost),
   (.cancelling, .idle),
   (.cancelling, .closing),
   (.cancelling, .sessionLost),
   (.closing, .closed),
   (.closing, .sessionLost)]

/-- The transitions of a statement. -/
def statementTransitions : List (ConsoleStatementState × ConsoleStatementState) :=
  [(.accepted, .executing),
   (.accepted, .cancelled),
   (.accepted, .skipped),
   (.accepted, .failed),
   (.executing, .streaming),
   (.executing, .succeeded),
   (.executing, .failed),
   (.executing, .cancelled),
   (.executing, .timeout),
   (.executing, .outcomeUnknown),
   (.streaming, .succeeded),
   (.streaming, .failed),
   (.streaming, .cancelled),
   (.streaming, .timeout),
   (.streaming, .outcomeUnknown)]

/-- The target of a transition of a session, if it is one. -/
def transitionSession (source target : ConsoleSessionState) :
    Except BrokerExn ConsoleSessionState :=
  if source = target then .ok target
  else if (source, target) ∈ sessionTransitions then .ok target
  else .error (.invalidStateTransition ("illegal session transition: ".toList ++ source.value
    ++ " -> ".toList ++ target.value))

/-- The target of a transition of a statement, if it is one. -/
def transitionStatement (source target : ConsoleStatementState) :
    Except BrokerExn ConsoleStatementState :=
  if source = target then .ok target
  else if (source, target) ∈ statementTransitions then .ok target
  else .error (.invalidStateTransition ("illegal statement transition: ".toList ++ source.value
    ++ " -> ".toList ++ target.value))

/-- A session may go from one state to the other. -/
def SessionEdge (source target : ConsoleSessionState) : Prop :=
  source = target ∨ (source, target) ∈ sessionTransitions

/-- A statement may go from one state to the other. -/
def StatementEdge (source target : ConsoleStatementState) : Prop :=
  source = target ∨ (source, target) ∈ statementTransitions

instance (source target : ConsoleSessionState) : Decidable (SessionEdge source target) :=
  inferInstanceAs (Decidable (_ ∨ _))

instance (source target : ConsoleStatementState) : Decidable (StatementEdge source target) :=
  inferInstanceAs (Decidable (_ ∨ _))

theorem transitionSession_of_edge {source target : ConsoleSessionState}
    (h : SessionEdge source target) :
  transitionSession source target = .ok target
  := by
  rw [transitionSession]
  obtain rfl | h := h
  · rw [if_pos rfl]
  · rw [if_pos h, ite_self]

theorem transitionStatement_of_edge {source target : ConsoleStatementState}
    (h : StatementEdge source target) :
  transitionStatement source target = .ok target
  := by
  rw [transitionStatement]
  obtain rfl | h := h
  · rw [if_pos rfl]
  · rw [if_pos h, ite_self]

theorem edge_of_transitionSession {source target result : ConsoleSessionState}
    (h : transitionSession source target = .ok result) :
  result = target ∧ SessionEdge source target
  := by
  rw [transitionSession] at h
  split at h
  · rename_i heq
    exact ⟨(Except.ok.inj h).symm, .inl heq⟩
  · split at h
    · rename_i hmem
      exact ⟨(Except.ok.inj h).symm, .inr hmem⟩
    · cases h

theorem edge_of_transitionStatement {source target result : ConsoleStatementState}
    (h : transitionStatement source target = .ok result) :
  result = target ∧ StatementEdge source target
  := by
  rw [transitionStatement] at h
  split at h
  · rename_i heq
    exact ⟨(Except.ok.inj h).symm, .inl heq⟩
  · split at h
    · rename_i hmem
      exact ⟨(Except.ok.inj h).symm, .inr hmem⟩
    · cases h

/-- No transition leads back to an active state. -/
theorem SessionEdge.isActive {source target : ConsoleSessionState}
    (h : SessionEdge source target) (htarget : target.IsActive) :
  source.IsActive
  := by
  revert h htarget
  cases source <;> cases target <;> decide

/-- A statement that has come to an end stays as it is. -/
theorem StatementEdge.eq_of_isTerminal {source target : ConsoleStatementState}
    (h : StatementEdge source target) (hsource : source.IsTerminal) :
  target = source
  := by
  revert h hsource
  cases source <;> cases target <;> decide

/-- A statement that is being executed may come to the same ends whether or not its rows have
begun to arrive. -/
theorem StatementEdge.streaming {target : ConsoleStatementState}
    (h : StatementEdge .executing target) (htarget : target.IsTerminal) :
  StatementEdge .streaming target
  := by
  revert h htarget
  cases target <;> decide

/-- No transition leads back to a statement that has not been started. -/
theorem StatementEdge.eq_of_accepted {source : ConsoleStatementState}
    (h : StatementEdge source .accepted) :
  source = .accepted
  := by
  revert h
  cases source <;> decide

/-- A statement that has not been started may be cancelled. -/
theorem StatementEdge.cancelled {source : ConsoleStatementState}
    (h : StatementEdge source .accepted) :
  StatementEdge source .cancelled
  := by
  revert h
  cases source <;> decide

/-! ### Records -/

/-- A session. -/
structure ConsoleSession where
  id : Text
  consoleId : Text
  datasourceId : Text
  ownerUserId : Text
  epoch : ℤ
  state : ConsoleSessionState
  brokerBootId : Text
  dbSessionMarker : Option Text := none
  serverCancel : ServerCancelState := .unknown
  autocommit : Bool := true
  createdAt : ℤ
  lastActivityAt : ℤ
  closedAt : Option ℤ := none
  closeReason : Option Text := none
  errorCode : Option Text := none
deriving DecidableEq

/-- A statement. -/
structure ConsoleStatement where
  id : Text
  sessionId : Text
  consoleId : Text
  datasourceId : Text
  ownerUserId : Text
  epoch : ℤ
  seq : ℕ
  clientRequestId : Text
  sqlText : Text
  isWrite : Bool := false
  state : ConsoleStatementState := .accepted
  cancelRequested : Bool := false
  resultSetId : Option Text := none
  errorCode : Option Text := none
  errorSummary : Option Text := none
  timeoutSeconds : ℤ
  submittedAt : ℤ
  startedAt : Option ℤ := none
  finishedAt : Option ℤ := none
deriving DecidableEq

/-- An event of a statement. -/
structure ConsoleStatementEvent where
  id : ℕ
  statementId : Text
  ts : ℤ
  eventType : Text
deriving DecidableEq

end Broker

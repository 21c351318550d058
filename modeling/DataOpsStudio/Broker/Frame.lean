import DataOpsStudio.Broker.Machine

/-!
# What a program on a session leaves alone

The runtime of a session and the store agree about the session and its statements.  A program
on a session keeps it that way; it does not change who the session and its statements are, it
leaves the records of other sessions alone, and it posts control commands only for its own
session and datasource.
-/

namespace Broker

open Text

/-! ### The control commands of a session -/

/-- The command a control lane is at. -/
def ControlPoint.command : ControlPoint → Option ControlCommand
  | .running command => some command
  | .reporting command _ => some command
  | _ => none

/-- The commands a control lane has not reported. -/
def ControlLane.commands (control : ControlLane) : List ControlCommand :=
  control.point.command.toList ++ control.mailbox.filterMap id

/-- Whether a command is for a session. -/
def ControlCommand.isFor (sessionId : Text) (command : ControlCommand) : Bool :=
  command.sessionId = sessionId

/-- The commands for a session that a control lane has not reported. -/
def ControlLane.owedTo (sessionId : Text) (control : ControlLane) : List (ControlKind × Text) :=
  (control.commands.filter (ControlCommand.isFor sessionId)).map
    (fun command => (command.kind, command.statementId))

/-- The commands for a session that have not been reported. -/
def owedIn (controls : Dict Text ControlLane) (datasourceId sessionId : Text) :
    List (ControlKind × Text) :=
  ((controls.get? datasourceId).map (ControlLane.owedTo sessionId)).getD []

/-- The states of statements. -/
def statesOf (statements : Dict Text ConsoleStatement) (s : Text) :
    Option ConsoleStatementState :=
  (statements.get? s).map ConsoleStatement.state

/-- What matters of a runtime, with the commands owed to it. -/
def SessionRuntime.view (runtime : SessionRuntime) (owed : List (ControlKind × Text)) : View where
  state := runtime.session.state
  accepting := runtime.accepting
  current := runtime.currentStatementId
  inFlight := runtime.cancelInFlight
  fenced := runtime.cancelStatementId
  controlDone := runtime.cancelControlDone
  confirmed := runtime.cancelConfirmed
  destroySent := runtime.cancelDestroySent
  lane := runtime.lane
  mailbox := runtime.mailbox
  pending := runtime.pendingCount
  closePending := runtime.closeReasonPending
  statements := statesOf runtime.statements
  owed := owed

/-- The commands owed to the session in focus. -/
def Focus.owed (c : Focus) : List (ControlKind × Text) :=
  owedIn c.controls c.runtime.session.datasourceId c.runtime.session.id

/-- What matters of the session in focus. -/
def Focus.view (c : Focus) : View := c.runtime.view c.owed

theorem statesOf_set (statements : Dict Text ConsoleStatement) (k : Text)
    (statement : ConsoleStatement) :
  statesOf (statements.set k statement)
    = Function.update (statesOf statements) k (some statement.state)
  := by
  funext s
  rw [Function.update_apply, statesOf, Dict.get?_set]
  by_cases hs : s = k
  · rw [if_pos hs, if_pos (beq_iff_eq.mpr hs.symm)]
    rfl
  · rw [if_neg hs, if_neg (by simpa using Ne.symm hs)]
    rfl

/-- Rewriting a statement without changing its state changes no state. -/
theorem statesOf_set_same {statements : Dict Text ConsoleStatement} {k : Text}
    {old new : ConsoleStatement} (hold : statements.get? k = some old)
    (hstate : new.state = old.state) :
  statesOf (statements.set k new) = statesOf statements
  := by
  rw [statesOf_set, hstate, Function.update_eq_self_iff, statesOf, hold]
  rfl

/-- A posted command is owed to its session. -/
theorem owedIn_postControl {controls : Dict Text ControlLane} (command : ControlCommand)
    {datasourceId : Text} (h : controls.contains datasourceId = true) :
  owedIn (postControl command datasourceId controls) datasourceId command.sessionId
    = owedIn controls datasourceId command.sessionId ++ [(command.kind, command.statementId)]
  := by
  obtain ⟨control, hcontrol⟩ := Option.isSome_iff_exists.mp h
  rw [owedIn, owedIn, postControl, hcontrol]
  simp [ControlLane.owedTo, ControlLane.commands, ControlCommand.isFor, List.filterMap_append]

/-! ### Records that stay -/

/-- Two records of one session. -/
structure ConsoleSession.Same (old new : ConsoleSession) : Prop where
  id : new.id = old.id
  consoleId : new.consoleId = old.consoleId
  datasourceId : new.datasourceId = old.datasourceId
  ownerUserId : new.ownerUserId = old.ownerUserId
  epoch : new.epoch = old.epoch
  brokerBootId : new.brokerBootId = old.brokerBootId

/-- Two records of one session, which may belong to different attachments. -/
structure ConsoleSession.Kin (old new : ConsoleSession) : Prop where
  id : new.id = old.id
  consoleId : new.consoleId = old.consoleId
  datasourceId : new.datasourceId = old.datasourceId
  ownerUserId : new.ownerUserId = old.ownerUserId
  brokerBootId : new.brokerBootId = old.brokerBootId

/-- Two records of one statement. -/
structure ConsoleStatement.Same (old new : ConsoleStatement) : Prop where
  id : new.id = old.id
  sessionId : new.sessionId = old.sessionId
  clientRequestId : new.clientRequestId = old.clientRequestId

theorem ConsoleSession.Same.trans {a b c : ConsoleSession} (hab : a.Same b) (hbc : b.Same c) :
  a.Same c
  := ⟨hbc.id.trans hab.id, hbc.consoleId.trans hab.consoleId,
    hbc.datasourceId.trans hab.datasourceId, hbc.ownerUserId.trans hab.ownerUserId,
    hbc.epoch.trans hab.epoch, hbc.brokerBootId.trans hab.brokerBootId⟩

theorem ConsoleSession.Same.kin {a b : ConsoleSession} (h : a.Same b) :
  a.Kin b
  := ⟨h.id, h.consoleId, h.datasourceId, h.ownerUserId, h.brokerBootId⟩

theorem ConsoleSession.Kin.trans {a b c : ConsoleSession} (hab : a.Kin b) (hbc : b.Kin c) :
  a.Kin c
  := ⟨hbc.id.trans hab.id, hbc.consoleId.trans hab.consoleId,
    hbc.datasourceId.trans hab.datasourceId, hbc.ownerUserId.trans hab.ownerUserId,
    hbc.brokerBootId.trans hab.brokerBootId⟩

theorem ConsoleStatement.Same.trans {a b c : ConsoleStatement} (hab : a.Same b)
    (hbc : b.Same c) :
  a.Same c
  := ⟨hbc.id.trans hab.id, hbc.sessionId.trans hab.sessionId,
    hbc.clientRequestId.trans hab.clientRequestId⟩

/-- The runtime and the store agree about a session and its statements, and a session whose
lane has been started has a control lane. -/
structure Focus.Wellformed (c : Focus) : Prop where
  stored : c.store.sessions.get? c.runtime.session.id = some c.runtime.session
  keyed : ∀ k statement, c.runtime.statements.get? k = some statement → statement.id = k
  mirrored : ∀ k statement, c.runtime.statements.get? k = some statement
    ↔ c.store.statements.get? k = some statement
      ∧ statement.sessionId = c.runtime.session.id
  controlled : c.runtime.lane ≠ .unstarted →
    c.controls.contains c.runtime.session.datasourceId = true

/-- The control lanes after commands for a session have been posted to its datasource. -/
structure Posted (datasourceId sessionId : Text) (controls controls' : Dict Text ControlLane) :
    Prop where
  other : ∀ d, d ≠ datasourceId → controls'.get? d = controls.get? d
  absent : controls.get? datasourceId = none → controls'.get? datasourceId = none
  extended : ∀ control, controls.get? datasourceId = some control →
    ∃ posted : List ControlCommand, controls'.get? datasourceId
        = some { control with mailbox := control.mailbox ++ posted.map some }
      ∧ ∀ command ∈ posted, command.sessionId = sessionId

/-- What a program on a session has kept. -/
structure Kept (c c' : Focus) : Prop where
  wellformed : c'.Wellformed
  session : c.runtime.session.Same c'.runtime.session
  requests : c'.runtime.requests = c.runtime.requests
  known : ∀ k, c.runtime.statements.get? k = none → c'.runtime.statements.get? k = none
  same : ∀ k statement, c.runtime.statements.get? k = some statement →
    ∃ statement', c'.runtime.statements.get? k = some statement' ∧ statement.Same statement'
  sessions : ∀ k, k ≠ c.runtime.session.id → c'.store.sessions.get? k = c.store.sessions.get? k
  statements : ∀ k, c.runtime.statements.get? k = none →
    c'.store.statements.get? k = c.store.statements.get? k
  epochs : c'.store.epochs = c.store.epochs
  posted : Posted c.runtime.session.datasourceId c.runtime.session.id c.controls c'.controls

theorem Posted.refl (datasourceId sessionId : Text) (controls : Dict Text ControlLane) :
  Posted datasourceId sessionId controls controls
  := by
  constructor
  · intro d _
    rfl
  · intro h
    apply h
  · intro control h
    use []
    simp [h]

theorem Posted.trans {datasourceId sessionId : Text} {a b c : Dict Text ControlLane}
    (hab : Posted datasourceId sessionId a b) (hbc : Posted datasourceId sessionId b c) :
  Posted datasourceId sessionId a c
  := by
  constructor
  · intro d hd
    rw [hbc.other d hd, hab.other d hd]
  · intro h
    apply hbc.absent (hab.absent h)
  · intro control h
    obtain ⟨first, hfirst, hmem⟩ := hab.extended control h
    obtain ⟨second, hsecond, hmem'⟩ := hbc.extended _ hfirst
    use first ++ second
    constructor
    · rw [hsecond, List.map_append, List.append_assoc]
    · intro command hcommand
      obtain hcommand | hcommand := List.mem_append.mp hcommand
      · apply hmem command hcommand
      · apply hmem' command hcommand

theorem Posted.contains {datasourceId sessionId : Text} {a b : Dict Text ControlLane}
    (h : Posted datasourceId sessionId a b) (d : Text) :
  b.contains d = a.contains d
  := by
  rw [Dict.contains, Dict.contains]
  by_cases hd : d = datasourceId
  · subst hd
    cases ha : a.get? d with
    | none => rw [h.absent ha]
    | some control =>
        obtain ⟨posted, hb, -⟩ := h.extended control ha
        rw [hb]
        rfl
  · rw [h.other d hd]

/-- Commands for one session are not owed to another. -/
theorem Posted.owedIn {datasourceId sessionId : Text} {a b : Dict Text ControlLane}
    (h : Posted datasourceId sessionId a b) (d : Text) {other : Text} (hother : other ≠ sessionId) :
  owedIn b d other = owedIn a d other
  := by
  rw [Broker.owedIn, Broker.owedIn]
  by_cases hd : d = datasourceId
  · subst hd
    cases ha : a.get? d with
    | none => rw [h.absent ha]
    | some control =>
        obtain ⟨posted, hb, hmem⟩ := h.extended control ha
        have hposted : posted.filter (ControlCommand.isFor other) = [] := by
          apply List.filter_eq_nil_iff.mpr
          intro command hcommand
          simp [ControlCommand.isFor, hmem command hcommand, Ne.symm hother]
        rw [hb]
        simp [ControlLane.owedTo, ControlLane.commands, List.filterMap_append, List.filterMap_map,
          hposted]
  · rw [h.other d hd]

namespace Kept

theorem refl {c : Focus} (h : c.Wellformed) :
  Kept c c
  := by
  constructor
  · apply h
  · exact ⟨rfl, rfl, rfl, rfl, rfl, rfl⟩
  · rfl
  · intro k hk
    apply hk
  · intro k statement hk
    exact ⟨statement, hk, rfl, rfl, rfl⟩
  · intro k _
    rfl
  · intro k _
    rfl
  · rfl
  · apply Posted.refl

theorem trans {a b c : Focus} (hab : Kept a b) (hbc : Kept b c) :
  Kept a c
  := by
  constructor
  · apply hbc.wellformed
  · apply hab.session.trans hbc.session
  · rw [hbc.requests, hab.requests]
  · intro k hk
    apply hbc.known k (hab.known k hk)
  · intro k statement hk
    obtain ⟨statement', hk', hsame⟩ := hab.same k statement hk
    obtain ⟨statement'', hk'', hsame'⟩ := hbc.same k statement' hk'
    exact ⟨statement'', hk'', hsame.trans hsame'⟩
  · intro k hk
    rw [hbc.sessions k (by rw [hab.session.id]; exact hk), hab.sessions k hk]
  · intro k hk
    rw [hbc.statements k (hab.known k hk), hab.statements k hk]
  · rw [hbc.epochs, hab.epochs]
  · have h := hbc.posted
    rw [hab.session.datasourceId, hab.session.id] at h
    apply hab.posted.trans h

/-- Fields of the runtime that no record depends on may change. -/
theorem runtime {a c : Focus} (h : Kept a c) (runtime : SessionRuntime)
    (hsession : runtime.session = c.runtime.session)
    (hstatements : runtime.statements = c.runtime.statements)
    (hrequests : runtime.requests = c.runtime.requests)
    (hlane : runtime.lane ≠ .unstarted →
      c.controls.contains c.runtime.session.datasourceId = true) :
  Kept a { c with runtime := runtime }
  := by
  apply h.trans
  obtain ⟨hstored, hkeyed, hmirrored, hcontrolled⟩ := h.wellformed
  have hrefl := Kept.refl h.wellformed
  constructor
  · constructor
    · simpa only [hsession] using hstored
    · simpa only [hstatements] using hkeyed
    · simpa only [hstatements, hsession] using hmirrored
    · simpa only [hsession] using hlane
  · simpa only [hsession] using hrefl.session
  · apply hrequests
  · simpa only [hstatements] using hrefl.known
  · simpa only [hstatements] using hrefl.same
  · apply hrefl.sessions
  · apply hrefl.statements
  · rfl
  · apply hrefl.posted

/-- The session may change, in the runtime and in the store, but not who it is. -/
theorem session_set {a c : Focus} (h : Kept a c) {session : ConsoleSession}
    (hsame : c.runtime.session.Same session) :
  Kept a
    { c with
      runtime := { c.runtime with session := session }
      store := { c.store with sessions := c.store.sessions.set session.id session } }
  := by
  apply h.trans
  obtain ⟨hstored, hkeyed, hmirrored, hcontrolled⟩ := h.wellformed
  have hrefl := Kept.refl h.wellformed
  constructor
  · constructor
    · apply Dict.get?_set_self
    · apply hkeyed
    · simpa only [hsame.id] using hmirrored
    · simpa only [hsame.datasourceId] using hcontrolled
  · apply hsame
  · rfl
  · apply hrefl.known
  · apply hrefl.same
  · intro k hk
    apply Dict.get?_set_of_ne
    rw [hsame.id]
    exact hk.symm
  · apply hrefl.statements
  · rfl
  · apply hrefl.posted

/-- A statement may change, in the runtime and in the store, but not who it is. -/
theorem statement_set {a c : Focus} (h : Kept a c) {old new : ConsoleStatement}
    (hold : c.runtime.statements.get? new.id = some old) (hsame : old.Same new) :
  Kept a
    { c with
      runtime := { c.runtime with statements := c.runtime.statements.set new.id new }
      store := { c.store with statements := c.store.statements.set new.id new } }
  := by
  apply h.trans
  obtain ⟨hstored, hkeyed, hmirrored, hcontrolled⟩ := h.wellformed
  have hrefl := Kept.refl h.wellformed
  have hne : ∀ k, c.runtime.statements.get? k = none → new.id ≠ k := by
    rintro k hk rfl
    rw [hold] at hk
    cases hk
  constructor
  · constructor
    · apply hstored
    · intro k statement hk
      by_cases hid : new.id = k
      · subst hid
        rw [Dict.get?_set_self] at hk
        rw [← Option.some.inj hk]
      · rw [Dict.get?_set_of_ne _ _ hid] at hk
        apply hkeyed k statement hk
    · intro k statement
      by_cases hid : new.id = k
      · subst hid
        rw [Dict.get?_set_self, Dict.get?_set_self]
        constructor
        · intro hk
          obtain rfl := Option.some.inj hk
          exact ⟨rfl, hsame.sessionId.trans ((hmirrored _ _).mp hold).2⟩
        · rintro ⟨hk, -⟩
          apply hk
      · rw [Dict.get?_set_of_ne _ _ hid, Dict.get?_set_of_ne _ _ hid]
        apply hmirrored
    · apply hcontrolled
  · apply hrefl.session
  · rfl
  · intro k hk
    rw [Dict.get?_set_of_ne _ _ (hne k hk)]
    apply hk
  · intro k statement hk
    by_cases hid : new.id = k
    · subst hid
      rw [Dict.get?_set_self]
      obtain rfl := Option.some.inj (hold.symm.trans hk)
      exact ⟨new, rfl, hsame⟩
    · rw [Dict.get?_set_of_ne _ _ hid]
      apply hrefl.same k statement hk
  · apply hrefl.sessions
  · intro k hk
    rw [Dict.get?_set_of_ne _ _ (hne k hk)]
  · rfl
  · apply hrefl.posted

/-- Events may be recorded. -/
theorem events {a c : Focus} (h : Kept a c) (events : List ConsoleStatementEvent) :
  Kept a { c with store := { c.store with events := events } }
  := by
  apply h.trans
  obtain ⟨hstored, hkeyed, hmirrored, hcontrolled⟩ := h.wellformed
  have hrefl := Kept.refl h.wellformed
  exact ⟨⟨hstored, hkeyed, hmirrored, hcontrolled⟩, hrefl.session, rfl, hrefl.known, hrefl.same,
    hrefl.sessions, hrefl.statements, rfl, hrefl.posted⟩

/-- Commands for the session may be posted. -/
theorem post {a c : Focus} (h : Kept a c) {command : ControlCommand}
    (hcommand : command.sessionId = c.runtime.session.id) :
  Kept a
    { c with
      controls := postControl command c.runtime.session.datasourceId c.controls }
  := by
  apply h.trans
  obtain ⟨hstored, hkeyed, hmirrored, hcontrolled⟩ := h.wellformed
  have hrefl := Kept.refl h.wellformed
  have hposted : Posted c.runtime.session.datasourceId c.runtime.session.id c.controls
      (postControl command c.runtime.session.datasourceId c.controls) := by
    rw [postControl]
    cases hcontrol : c.controls.get? c.runtime.session.datasourceId with
    | none => apply Posted.refl
    | some control =>
        constructor
        · intro d hd
          apply Dict.get?_set_of_ne _ _ hd.symm
        · intro hnone
          cases hcontrol.symm.trans hnone
        · intro control' hcontrol'
          obtain rfl := Option.some.inj (hcontrol.symm.trans hcontrol')
          use [command]
          simp [hcommand]
  have hcontrolled' : c.runtime.lane ≠ .unstarted →
      (postControl command c.runtime.session.datasourceId c.controls).contains
        c.runtime.session.datasourceId = true := by
    rw [hposted.contains]
    apply hcontrolled
  exact ⟨⟨hstored, hkeyed, hmirrored, hcontrolled'⟩, hrefl.session, rfl, hrefl.known, hrefl.same,
    hrefl.sessions, hrefl.statements, rfl, hposted⟩

/-- The session keeps its control lane. -/
theorem contains {c c' : Focus} (h : Kept c c') :
  c'.controls.contains c'.runtime.session.datasourceId
    = c.controls.contains c.runtime.session.datasourceId
  := by
  rw [h.session.datasourceId, h.posted.contains]

end Kept

end Broker

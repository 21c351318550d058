import DataOpsStudio.Broker.Session
import DataOpsStudio.Library.TransitionSystem
import Mathlib.Logic.Function.Basic

/-!
# The machine of a session

What matters of a session for the order of events, without the records: its state, the fence,
the point at which its lane stands, its mailbox, the states of its statements and the control
commands that are owed to it, which are those the control lane has not reported yet.  A step
of the machine is the least change that can be observed; what a thread does while it holds
the lock is a sequence of steps.  Steps that release the fence and steps that give the session
up are labelled as such.
-/

namespace Broker

/-- What matters of a session. -/
structure View where
  state : ConsoleSessionState := .connecting
  accepting : Bool := true
  current : Option Text := none
  inFlight : Bool := false
  fenced : Option Text := none
  controlDone : Bool := false
  confirmed : Bool := false
  destroySent : Bool := false
  lane : LanePoint := .unstarted
  mailbox : List LaneCommand := []
  pending : ℤ := 0
  closePending : Option Text := none
  statements : Text → Option ConsoleStatementState := fun _ => none
  owed : List (ControlKind × Text) := []

/-- The statement a lane is executing. -/
def LanePoint.running : LanePoint → Option Text
  | .preparing s => some s
  | .executing s => some s
  | .draining s => some s
  | .handling s _ => some s
  | .finishing s _ => some s
  | _ => none

/-- The statement a lane is about to execute. -/
def LanePoint.taken : LanePoint → Option Text
  | .dequeued s => some s
  | .fenced s => some s
  | _ => none

/-- How many commands a lane has taken and not counted off. -/
def LanePoint.uncounted : LanePoint → ℤ
  | .dequeued _ => 1
  | _ => 0

def LaneCommand.isExecute : LaneCommand → Bool
  | .execute _ => true
  | .close _ => false

/-- The lane is about to close the session. -/
def LanePoint.IsClosing : LanePoint → Prop
  | .closeFenced _ => True
  | .closing _ => True
  | _ => False

namespace View

/-- The lane may not go on. -/
def Fenced (v : View) : Prop := v.inFlight = true ∧ v.state.IsActive

/-- A statement is being executed. -/
def InFlight (v : View) (s : Text) : Prop :=
  v.statements s = some .executing ∨ v.statements s = some .streaming

/-- A statement has come to an end. -/
def Ended (v : View) (s : Text) : Prop :=
  v.statements s ≠ none ∧ v.statements s ≠ some .accepted ∧ ¬ v.InFlight s

/-- The states of the statements with one of them changed. -/
def put (v : View) (s : Text) (x : ConsoleStatementState) : Text → Option ConsoleStatementState :=
  Function.update v.statements s (some x)

@[simp, grind =]
theorem put_apply (v : View) (s s' : Text) (x : ConsoleStatementState) :
  v.put s x s' = if s' = s then some x else v.statements s'
  := Function.update_apply v.statements s (some x) s'

/-- The states of the statements with the chosen ones cancelled, of those that have not been
started. -/
def cancelling (v : View) (chosen : Text → Bool) : Text → Option ConsoleStatementState :=
  fun s => if v.statements s = some .accepted ∧ chosen s = true then some .cancelled
    else v.statements s

@[grind =]
theorem cancelling_apply (v : View) (chosen : Text → Bool) (s : Text) :
  v.cancelling chosen s = if v.statements s = some .accepted ∧ chosen s = true
    then some .cancelled else v.statements s
  := rfl

end View

/-- How a step bears on the fence and on the loss of the session. -/
inductive Label where
  | plain
  /-- The lane releases the fence. -/
  | laneRelease
  /-- The control lane releases the fence. -/
  | controlRelease
  /-- The lane gives the session up. -/
  | laneLose
  /-- The control lane gives the session up. -/
  | controlLose
deriving DecidableEq

/-- The labels of the steps a lane may make. -/
def Label.IsLane : Label → Prop
  | .controlRelease => False
  | .controlLose => False
  | _ => True

/-- The labels of the steps a report may make. -/
def Label.IsControl : Label → Prop
  | .laneRelease => False
  | .laneLose => False
  | _ => True

/-- The steps of a session whose mailbox holds `size` commands. -/
inductive Step (size : ℕ) (v : View) : Label → View → Prop
  | startLane (h : v.lane = .unstarted) : Step size v .plain { v with lane := .opening }
  | opened (h : v.lane = .opening) :
      Step size v .plain { v with lane := .waiting, state := .idle }
  | openFailed (h : v.lane = .opening) :
      Step size v .laneLose { v with lane := .exited, accepting := false, state := .connectFailed }
  | takeExecute {s rest} (h : v.lane = .waiting) (hmail : v.mailbox = .execute s :: rest) :
      Step size v .plain { v with mailbox := rest, lane := .dequeued s }
  | takeClose {r rest} (r' : Text) (h : v.lane = .waiting) (hmail : v.mailbox = .close r :: rest) :
      Step size v .plain { v with mailbox := rest, lane := .closeFenced r' }
  | countOff {s} (h : v.lane = .dequeued s) :
      Step size v .plain { v with pending := v.pending - 1, lane := .fenced s }
  | skip {s} (h : v.lane = .fenced s) (hfence : ¬ v.Fenced)
      (hskip : v.statements s ≠ some .accepted ∨ v.state = .sessionLost) :
      Step size v .plain { v with lane := .checking }
  | start {s} (h : v.lane = .fenced s) (hstate : v.state = .idle) (hfence : v.inFlight = false)
      (hs : v.statements s = some .accepted) :
      Step size v .plain
        { v with
          current := some s
          state := .executing
          statements := v.put s .executing
          lane := .preparing s }
  | handOver {s} (h : v.lane = .preparing s) :
      Step size v .plain { v with lane := .executing s }
  | stream {s} (h : v.lane = .executing s) (hs : v.statements s = some .executing) :
      Step size v .plain { v with statements := v.put s .streaming, lane := .draining s }
  | streamEnded {s} (h : v.lane = .executing s) (hs : v.statements s ≠ some .executing) :
      Step size v .plain { v with lane := .draining s }
  | raise {s} (error : Option InteractiveExecuteError)
      (h : v.lane = .preparing s ∨ v.lane = .executing s ∨ v.lane = .draining s) :
      Step size v .plain { v with lane := .handling s error }
  | drained {s} (h : v.lane = .draining s) :
      Step size v .plain { v with lane := .finishing s { state := .succeeded } }
  | handle {s error} (outcome : StatementEnd) (h : v.lane = .handling s error)
      (houtcome : StatementEdge .executing outcome.state ∧ outcome.state.IsTerminal) :
      Step size v .plain { v with lane := .finishing s outcome }
  | confirm {s error} (outcome : StatementEnd) (h : v.lane = .handling s error)
      (houtcome : StatementEdge .executing outcome.state ∧ outcome.state.IsTerminal) :
      Step size v .plain { v with lane := .finishing s outcome, confirmed := true }
  | finishAfterLoss {s outcome} (h : v.lane = .finishing s outcome)
      (hstate : v.state = .sessionLost) :
      Step size v .plain { v with lane := .checking }
  | finishLosing {s outcome} (h : v.lane = .finishing s outcome) (hstate : v.state ≠ .sessionLost)
      (hlost : outcome.connectionLost = true) :
      Step size v .laneLose
        { v with
          statements := v.put s outcome.state
          accepting := false
          inFlight := false
          state := .sessionLost
          current := none
          lane := .checking }
  | finishIdle {s outcome} (h : v.lane = .finishing s outcome) (hstate : v.state ≠ .sessionLost)
      (hlost : outcome.connectionLost = false) (hfence : v.inFlight = false) :
      Step size v .plain
        { v with
          statements := v.put s outcome.state
          state := .idle
          current := none
          lane := .checking }
  | finishReleasing {s outcome} (h : v.lane = .finishing s outcome)
      (hstate : v.state ≠ .sessionLost) (hlost : outcome.connectionLost = false)
      (hfence : v.inFlight = true) (hdone : v.confirmed = true ∨ v.controlDone = true) :
      Step size v .laneRelease
        { v with
          statements := v.put s outcome.state
          inFlight := false
          fenced := none
          destroySent := false
          state := .idle
          current := none
          lane := .checking }
  | finishFenced {s outcome} (h : v.lane = .finishing s outcome) (hstate : v.state ≠ .sessionLost)
      (hlost : outcome.connectionLost = false) (hfence : v.inFlight = true) :
      Step size v .plain
        { v with statements := v.put s outcome.state, current := none, lane := .checking }
  | check (h : v.lane = .checking) (hpending : v.closePending = none ∨ v.mailbox ≠ []) :
      Step size v .plain { v with lane := .waiting }
  | checkClose {r} (h : v.lane = .checking) (hpending : v.closePending = some r)
      (hmail : v.mailbox = []) :
      Step size v .plain { v with closePending := none, lane := .closeFenced r }
  | exit {r} (h : v.lane = .closeFenced r) (hstate : ¬ v.state.IsActive) :
      Step size v .plain { v with lane := .exited }
  | beginClose {r} (h : v.lane = .closeFenced r) (hfence : ¬ v.Fenced) (hstate : v.state.IsActive) :
      Step size v .plain { v with state := .closing, lane := .closing r }
  | endClose {r} (h : v.lane = .closing r) :
      Step size v .plain { v with state := .closed, lane := .exited }
  | accept {s} (haccepting : v.accepting = true) (hactive : v.state.IsActive)
      (hpending : v.pending < size) (hs : v.statements s = none) :
      Step size v .plain
        { v with
          statements := v.put s .accepted
          mailbox := v.mailbox ++ [.execute s]
          pending := v.pending + 1 }
  | refuse {s} (haccepting : v.accepting = true) (hs : v.statements s = none) :
      Step size v .plain { v with statements := v.put s .failed }
  | cancelQueued (chosen : Text → Bool) :
      Step size v .plain { v with statements := v.cancelling chosen }
  | beginCancel {s} (hfence : v.inFlight = false) (hs : v.current = some s) :
      Step size v .plain
        { v with
          inFlight := true
          fenced := some s
          controlDone := false
          confirmed := false
          destroySent := false
          state := if v.state = .executing then .cancelling else v.state
          owed := v.owed ++ [(.cancel, s)] }
  | sendDestroy {s} (hfence : v.inFlight = true) (hsent : v.destroySent = false)
      (hs : v.fenced = some s) :
      Step size v .plain { v with destroySent := true, owed := v.owed ++ [(.destroy, s)] }
  | putClose (r : Text) (haccepting : v.accepting = true) (hroom : v.mailbox.length < size) :
      Step size v .plain { v with accepting := false, mailbox := v.mailbox ++ [.close r] }
  | noteClose (r : Text) (haccepting : v.accepting = true) (hroom : size ≤ v.mailbox.length) :
      Step size v .plain { v with accepting := false, closePending := some r }
  | reportIgnored {command rest} (howed : v.owed = command :: rest) (hfenced : v.fenced = none) :
      Step size v .plain { v with owed := rest }
  | reportCancel {s s' rest} (howed : v.owed = (.cancel, s') :: rest) (hfenced : v.fenced = some s)
      (hheld : v.inFlight = false ∨ (v.confirmed = false ∧ ¬ v.Ended s)) :
      Step size v .plain { v with owed := rest, controlDone := true }
  | reportReleasing {s s' rest} (howed : v.owed = (.cancel, s') :: rest)
      (hfenced : v.fenced = some s) (hfence : v.inFlight = true)
      (hdone : v.confirmed = true ∨ v.Ended s) :
      Step size v .controlRelease
        { v with
          owed := rest
          controlDone := true
          inFlight := false
          fenced := none
          destroySent := false
          state := if v.state = .cancelling then .idle else v.state }
  | reportAfterLoss {s s' rest} (howed : v.owed = (.destroy, s') :: rest)
      (hfenced : v.fenced = some s) (hstate : v.state = .sessionLost) :
      Step size v .plain { v with owed := rest }
  | reportLosing {s s' rest} (x : ConsoleStatementState) (howed : v.owed = (.destroy, s') :: rest)
      (hfenced : v.fenced = some s) (hstate : v.state ≠ .sessionLost)
      (hx : v.statements s = some x ∧ x.IsTerminal
        ∨ ¬ v.Ended s ∧ (x = .failed ∨ x = .outcomeUnknown)) :
      Step size v .controlLose
        { v with
          owed := rest
          statements := v.put s x
          accepting := false
          inFlight := false
          state := .sessionLost
          current := none }

/-! ### The invariant -/

attribute [grind] LanePoint.running LanePoint.taken LanePoint.uncounted LanePoint.IsClosing
  LaneCommand.isExecute View.Fenced View.InFlight View.Ended

/-- What the point of the lane says about the session and its statements. -/
structure View.LaneSound (v : View) : Prop where
  connecting : v.state = .connecting ↔ v.lane = .unstarted ∨ v.lane = .opening
  closing : v.state = .closing ↔ ∃ r, v.lane = .closing r
  exited : v.lane = .exited → ¬ v.state.IsActive
  closed : v.state = .closed ∨ v.state = .connectFailed → v.lane = .exited
  running : ∀ s, v.current = some s → v.lane.running = some s
  current : ∀ s, v.lane.running = some s →
    v.current = some s ∨ v.state = .sessionLost ∧ v.Ended s
  inFlight_iff : ∀ s, v.InFlight s ↔ v.current = some s
  outcome : ∀ s outcome, v.lane = .finishing s outcome →
    StatementEdge .executing outcome.state ∧ outcome.state.IsTerminal

/-- What the fence says about the session. -/
structure View.FenceSound (v : View) : Prop where
  executing : v.state = .executing → v.inFlight = false ∧ v.current ≠ none
  cancelling : v.state = .cancelling → v.inFlight = true
  fence : v.inFlight = true → (v.state = .idle ∨ v.state = .cancelling) ∧
    ∃ s, v.fenced = some s ∧ (v.current = none ∨ v.current = some s)
  fenced : ∀ s, v.fenced = some s → v.current = some s ∨ v.Ended s
  released : v.inFlight = false → v.state ≠ .sessionLost → v.fenced = none
  lost : v.state = .sessionLost →
    v.inFlight = false ∧ v.accepting = false ∧ v.current = none

/-- What the mailbox says about the session: every command is for a statement that is known,
the commands that have not been counted off are counted, and a session that accepts statements
has not been asked to close. -/
structure View.MailSound (size : ℕ) (v : View) : Prop where
  known : ∀ s, v.lane.taken = some s ∨ .execute s ∈ v.mailbox → v.statements s ≠ none
  accepting : v.accepting = true → v.closePending = none ∧ (∀ r, .close r ∉ v.mailbox)
    ∧ ¬ v.lane.IsClosing ∧ v.lane ≠ .exited
  counted : v.mailbox.countP LaneCommand.isExecute + v.lane.uncounted = v.pending
  bounded : v.pending ≤ size

/-- What holds of a session at any time. -/
structure View.Sound (size : ℕ) (v : View) : Prop extends
  v.LaneSound, v.FenceSound, v.MailSound size

section Sound

variable {size : ℕ} {v w : View} {label : Label}

namespace View.Sound

/-- A session that executes a statement is idle, executing or cancelling. -/
theorem state_of_current (h : v.Sound size) {s : Text} (hs : v.current = some s) :
  v.state = .idle ∨ v.state = .executing ∨ v.state = .cancelling
  := by
  have hrunning := h.running s hs
  obtain ⟨hconnecting, hclosing, -, hclosed, -⟩ := h.toLaneSound
  have hlost := h.lost
  cases hstate : v.state <;> grind

theorem state_of_running (h : v.Sound size) {s : Text} (hs : v.lane.running = some s)
    (hlost : v.state ≠ .sessionLost) :
  v.current = some s ∧ (v.state = .idle ∨ v.state = .executing ∨ v.state = .cancelling)
  := by
  obtain hcurrent | ⟨hstate, -⟩ := h.current s hs
  · exact ⟨hcurrent, h.state_of_current hcurrent⟩
  · exact (hlost hstate).elim

/-- A fence that has not been released is in flight. -/
theorem inFlight_of_fenced (h : v.Sound size) {s : Text} (hs : v.fenced = some s)
    (hlost : v.state ≠ .sessionLost) :
  v.inFlight = true
  := by
  by_contra hfence
  rw [h.released (Bool.not_eq_true _ ▸ hfence) hlost] at hs
  cases hs

/-- Between two statements an active session without a fence is idle. -/
theorem idle_of_not_fenced (h : v.Sound size) (hrunning : v.lane.running = none)
    (hopening : v.lane ≠ .unstarted ∧ v.lane ≠ .opening) (hclosing : ∀ r, v.lane ≠ .closing r)
    (hfence : ¬ v.Fenced) (hactive : v.state.IsActive) :
  v.state = .idle
  := by
  have hcurrent : v.current = none := by
    by_contra hne
    obtain ⟨s, hs⟩ := Option.ne_none_iff_exists'.mp hne
    rw [h.running s hs] at hrunning
    cases hrunning
  obtain ⟨hconnecting, hclosing', -⟩ := h.toLaneSound
  obtain ⟨hexecuting, hcancelling, -⟩ := h.toFenceSound
  cases hstate : v.state <;> grind

end View.Sound

/-- A new session is sound. -/
theorem View.sound_initial (size : ℕ) :
  ({} : View).Sound size
  := by
  constructor
  · constructor <;> grind
  · constructor <;> grind
  · constructor <;> grind

namespace Step

theorem laneConnecting (hv : v.Sound size) (h : Step size v label w) :
  w.state = .connecting ↔ w.lane = .unstarted ∨ w.lane = .opening
  := by
  have hsucceeded : StatementEdge .executing .succeeded
      ∧ ConsoleStatementState.succeeded.IsTerminal := by
    decide
  have hcurrent := fun s => hv.state_of_current (s := s)
  have hstarted : ∀ s, v.statements s = some .executing → v.current = some s :=
    fun s hs => (hv.inFlight_iff s).mp (.inl hs)
  have hstreaming : ∀ s, v.statements s = some .streaming → v.current = some s :=
    fun s hs => (hv.inFlight_iff s).mp (.inr hs)
  obtain ⟨⟨hconnecting, hclosing, hexited, hclosed, hrunning, hcurrent', hinFlight, houtcome⟩,
    ⟨hexecuting, hcancelling, hfence, hfenced, hreleased, hlost⟩, -⟩ := hv
  cases h <;> first | assumption | grind -ring -linarith -ac

theorem laneClosing (hv : v.Sound size) (h : Step size v label w) :
  w.state = .closing ↔ ∃ r, w.lane = .closing r
  := by
  have hsucceeded : StatementEdge .executing .succeeded
      ∧ ConsoleStatementState.succeeded.IsTerminal := by
    decide
  have hcurrent := fun s => hv.state_of_current (s := s)
  have hstarted : ∀ s, v.statements s = some .executing → v.current = some s :=
    fun s hs => (hv.inFlight_iff s).mp (.inl hs)
  have hstreaming : ∀ s, v.statements s = some .streaming → v.current = some s :=
    fun s hs => (hv.inFlight_iff s).mp (.inr hs)
  obtain ⟨⟨hconnecting, hclosing, hexited, hclosed, hrunning, hcurrent', hinFlight, houtcome⟩,
    ⟨hexecuting, hcancelling, hfence, hfenced, hreleased, hlost⟩, -⟩ := hv
  cases h <;> first | assumption | grind -ring -linarith -ac

theorem laneExited (hv : v.Sound size) (h : Step size v label w) :
  w.lane = .exited → ¬ w.state.IsActive
  := by
  have hsucceeded : StatementEdge .executing .succeeded
      ∧ ConsoleStatementState.succeeded.IsTerminal := by
    decide
  have hcurrent := fun s => hv.state_of_current (s := s)
  have hstarted : ∀ s, v.statements s = some .executing → v.current = some s :=
    fun s hs => (hv.inFlight_iff s).mp (.inl hs)
  have hstreaming : ∀ s, v.statements s = some .streaming → v.current = some s :=
    fun s hs => (hv.inFlight_iff s).mp (.inr hs)
  obtain ⟨⟨hconnecting, hclosing, hexited, hclosed, hrunning, hcurrent', hinFlight, houtcome⟩,
    ⟨hexecuting, hcancelling, hfence, hfenced, hreleased, hlost⟩, -⟩ := hv
  cases h <;> first | assumption | grind -ring -linarith -ac

theorem laneClosed (hv : v.Sound size) (h : Step size v label w) :
  w.state = .closed ∨ w.state = .connectFailed → w.lane = .exited
  := by
  have hsucceeded : StatementEdge .executing .succeeded
      ∧ ConsoleStatementState.succeeded.IsTerminal := by
    decide
  have hcurrent := fun s => hv.state_of_current (s := s)
  have hstarted : ∀ s, v.statements s = some .executing → v.current = some s :=
    fun s hs => (hv.inFlight_iff s).mp (.inl hs)
  have hstreaming : ∀ s, v.statements s = some .streaming → v.current = some s :=
    fun s hs => (hv.inFlight_iff s).mp (.inr hs)
  obtain ⟨⟨hconnecting, hclosing, hexited, hclosed, hrunning, hcurrent', hinFlight, houtcome⟩,
    ⟨hexecuting, hcancelling, hfence, hfenced, hreleased, hlost⟩, -⟩ := hv
  cases h <;> first | assumption | grind -ring -linarith -ac

theorem laneRunning (hv : v.Sound size) (h : Step size v label w) :
  ∀ s, w.current = some s → w.lane.running = some s
  := by
  have hsucceeded : StatementEdge .executing .succeeded
      ∧ ConsoleStatementState.succeeded.IsTerminal := by
    decide
  have hcurrent := fun s => hv.state_of_current (s := s)
  have hstarted : ∀ s, v.statements s = some .executing → v.current = some s :=
    fun s hs => (hv.inFlight_iff s).mp (.inl hs)
  have hstreaming : ∀ s, v.statements s = some .streaming → v.current = some s :=
    fun s hs => (hv.inFlight_iff s).mp (.inr hs)
  obtain ⟨⟨hconnecting, hclosing, hexited, hclosed, hrunning, hcurrent', hinFlight, houtcome⟩,
    ⟨hexecuting, hcancelling, hfence, hfenced, hreleased, hlost⟩, -⟩ := hv
  cases h <;> first | assumption | grind -ring -linarith -ac

theorem laneCurrent (hv : v.Sound size) (h : Step size v label w) :
  ∀ s, w.lane.running = some s →
    w.current = some s ∨ w.state = .sessionLost ∧ w.Ended s
  := by
  have hsucceeded : StatementEdge .executing .succeeded
      ∧ ConsoleStatementState.succeeded.IsTerminal := by
    decide
  have hcurrent := fun s => hv.state_of_current (s := s)
  have hstarted : ∀ s, v.statements s = some .executing → v.current = some s :=
    fun s hs => (hv.inFlight_iff s).mp (.inl hs)
  have hstreaming : ∀ s, v.statements s = some .streaming → v.current = some s :=
    fun s hs => (hv.inFlight_iff s).mp (.inr hs)
  obtain ⟨⟨hconnecting, hclosing, hexited, hclosed, hrunning, hcurrent', hinFlight, houtcome⟩,
    ⟨hexecuting, hcancelling, hfence, hfenced, hreleased, hlost⟩, -⟩ := hv
  cases h <;> first | assumption | grind -ring -linarith -ac

theorem laneInFlight_iff (hv : v.Sound size) (h : Step size v label w) :
  ∀ s, w.InFlight s ↔ w.current = some s
  := by
  have hsucceeded : StatementEdge .executing .succeeded
      ∧ ConsoleStatementState.succeeded.IsTerminal := by
    decide
  have hcurrent := fun s => hv.state_of_current (s := s)
  have hstarted : ∀ s, v.statements s = some .executing → v.current = some s :=
    fun s hs => (hv.inFlight_iff s).mp (.inl hs)
  have hstreaming : ∀ s, v.statements s = some .streaming → v.current = some s :=
    fun s hs => (hv.inFlight_iff s).mp (.inr hs)
  obtain ⟨⟨hconnecting, hclosing, hexited, hclosed, hrunning, hcurrent', hinFlight, houtcome⟩,
    ⟨hexecuting, hcancelling, hfence, hfenced, hreleased, hlost⟩, -⟩ := hv
  cases h <;> first | assumption | grind -ring -linarith -ac

theorem laneOutcome (hv : v.Sound size) (h : Step size v label w) :
  ∀ s outcome, w.lane = .finishing s outcome →
    StatementEdge .executing outcome.state ∧ outcome.state.IsTerminal
  := by
  have hsucceeded : StatementEdge .executing .succeeded
      ∧ ConsoleStatementState.succeeded.IsTerminal := by
    decide
  have hcurrent := fun s => hv.state_of_current (s := s)
  have hstarted : ∀ s, v.statements s = some .executing → v.current = some s :=
    fun s hs => (hv.inFlight_iff s).mp (.inl hs)
  have hstreaming : ∀ s, v.statements s = some .streaming → v.current = some s :=
    fun s hs => (hv.inFlight_iff s).mp (.inr hs)
  obtain ⟨⟨hconnecting, hclosing, hexited, hclosed, hrunning, hcurrent', hinFlight, houtcome⟩,
    ⟨hexecuting, hcancelling, hfence, hfenced, hreleased, hlost⟩, -⟩ := hv
  cases h <;> first | assumption | grind -ring -linarith -ac

theorem laneSound (hv : v.Sound size) (h : Step size v label w) :
  w.LaneSound
  where
  connecting := h.laneConnecting hv
  closing := h.laneClosing hv
  exited := h.laneExited hv
  closed := h.laneClosed hv
  running := h.laneRunning hv
  current := h.laneCurrent hv
  inFlight_iff := h.laneInFlight_iff hv
  outcome := h.laneOutcome hv

theorem fenceExecuting (hv : v.Sound size) (h : Step size v label w) :
  w.state = .executing → w.inFlight = false ∧ w.current ≠ none
  := by
  have hcurrent := fun s => hv.state_of_current (s := s)
  obtain ⟨⟨hconnecting, hclosing, hexited, hclosed, hrunning, hcurrent', hinFlight, houtcome⟩,
    ⟨hexecuting, hcancelling, hfence, hfenced, hreleased, hlost⟩, -⟩ := hv
  cases h <;> first | assumption | grind -ring -linarith -ac

theorem fenceCancelling (hv : v.Sound size) (h : Step size v label w) :
  w.state = .cancelling → w.inFlight = true
  := by
  have hcurrent := fun s => hv.state_of_current (s := s)
  obtain ⟨⟨hconnecting, hclosing, hexited, hclosed, hrunning, hcurrent', hinFlight, houtcome⟩,
    ⟨hexecuting, hcancelling, hfence, hfenced, hreleased, hlost⟩, -⟩ := hv
  cases h <;> first | assumption | grind -ring -linarith -ac

theorem fenceFence (hv : v.Sound size) (h : Step size v label w) :
  w.inFlight = true → (w.state = .idle ∨ w.state = .cancelling) ∧
    ∃ s, w.fenced = some s ∧ (w.current = none ∨ w.current = some s)
  := by
  have hcurrent := fun s => hv.state_of_current (s := s)
  obtain ⟨⟨hconnecting, hclosing, hexited, hclosed, hrunning, hcurrent', hinFlight, houtcome⟩,
    ⟨hexecuting, hcancelling, hfence, hfenced, hreleased, hlost⟩, -⟩ := hv
  cases h <;> first | assumption | grind -ring -linarith -ac

theorem fenceFenced (hv : v.Sound size) (h : Step size v label w) :
  ∀ s, w.fenced = some s → w.current = some s ∨ w.Ended s
  := by
  have hcurrent := fun s => hv.state_of_current (s := s)
  obtain ⟨⟨hconnecting, hclosing, hexited, hclosed, hrunning, hcurrent', hinFlight, houtcome⟩,
    ⟨hexecuting, hcancelling, hfence, hfenced, hreleased, hlost⟩, -⟩ := hv
  cases h <;> first | assumption | grind -ring -linarith -ac

theorem fenceReleased (hv : v.Sound size) (h : Step size v label w) :
  w.inFlight = false → w.state ≠ .sessionLost → w.fenced = none
  := by
  have hcurrent := fun s => hv.state_of_current (s := s)
  obtain ⟨⟨hconnecting, hclosing, hexited, hclosed, hrunning, hcurrent', hinFlight, houtcome⟩,
    ⟨hexecuting, hcancelling, hfence, hfenced, hreleased, hlost⟩, -⟩ := hv
  cases h <;> first | assumption | grind -ring -linarith -ac

theorem fenceLost (hv : v.Sound size) (h : Step size v label w) :
  w.state = .sessionLost →
    w.inFlight = false ∧ w.accepting = false ∧ w.current = none
  := by
  have hcurrent := fun s => hv.state_of_current (s := s)
  obtain ⟨⟨hconnecting, hclosing, hexited, hclosed, hrunning, hcurrent', hinFlight, houtcome⟩,
    ⟨hexecuting, hcancelling, hfence, hfenced, hreleased, hlost⟩, -⟩ := hv
  cases h <;> first | assumption | grind -ring -linarith -ac

theorem fenceSound (hv : v.Sound size) (h : Step size v label w) :
  w.FenceSound
  where
  executing := h.fenceExecuting hv
  cancelling := h.fenceCancelling hv
  fence := h.fenceFence hv
  fenced := h.fenceFenced hv
  released := h.fenceReleased hv
  lost := h.fenceLost hv

theorem mailKnown (hv : v.Sound size) (h : Step size v label w) :
  ∀ s, w.lane.taken = some s ∨ .execute s ∈ w.mailbox → w.statements s ≠ none
  := by
  obtain ⟨-, -, ⟨hknown, haccepting, hcounted, hbounded⟩⟩ := hv
  cases h <;> first | assumption | grind -ring -linarith -ac

theorem mailAccepting (hv : v.Sound size) (h : Step size v label w) :
  w.accepting = true → w.closePending = none ∧ (∀ r, .close r ∉ w.mailbox)
    ∧ ¬ w.lane.IsClosing ∧ w.lane ≠ .exited
  := by
  obtain ⟨-, -, ⟨hknown, haccepting, hcounted, hbounded⟩⟩ := hv
  cases h <;> first | assumption | grind -ring -linarith -ac

theorem mailCounted (hv : v.Sound size) (h : Step size v label w) :
  w.mailbox.countP LaneCommand.isExecute + w.lane.uncounted = w.pending
  := by
  obtain ⟨-, -, ⟨hknown, haccepting, hcounted, hbounded⟩⟩ := hv
  cases h <;> first | assumption | grind -ring -linarith -ac

theorem mailBounded (hv : v.Sound size) (h : Step size v label w) :
  w.pending ≤ size
  := by
  obtain ⟨-, -, ⟨hknown, haccepting, hcounted, hbounded⟩⟩ := hv
  cases h <;> first | assumption | grind -ring -linarith -ac

theorem mailSound (hv : v.Sound size) (h : Step size v label w) :
  w.MailSound size
  where
  known := h.mailKnown hv
  accepting := h.mailAccepting hv
  counted := h.mailCounted hv
  bounded := h.mailBounded hv

/-- Every step keeps a session sound. -/
theorem sound (hv : v.Sound size) (h : Step size v label w) :
  w.Sound size
  := ⟨h.laneSound hv, h.fenceSound hv, h.mailSound hv⟩

/-- A step of a sound session changes its state along a transition. -/
theorem sessionEdge (hv : v.Sound size) (h : Step size v label w) :
  SessionEdge v.state w.state
  := by
  cases h with
  | opened h =>
      simp only [hv.connecting.mpr (.inr h)]
      decide
  | openFailed h =>
      simp only [hv.connecting.mpr (.inr h)]
      decide
  | start h hstate =>
      simp only [hstate]
      decide
  | finishLosing h hstate =>
      obtain ⟨-, h | h | h⟩ := hv.state_of_running (by rw [h]; rfl) hstate
      all_goals
        simp only [h]
        decide
  | finishIdle h hstate =>
      obtain ⟨-, h | h | h⟩ := hv.state_of_running (by rw [h]; rfl) hstate
      all_goals
        simp only [h]
        decide
  | finishReleasing h hstate =>
      obtain ⟨-, h | h | h⟩ := hv.state_of_running (by rw [h]; rfl) hstate
      all_goals
        simp only [h]
        decide
  | beginClose h hfence hstate =>
      simp only [hv.idle_of_not_fenced (by rw [h]; rfl) (by simp [h]) (by simp [h]) hfence hstate]
      decide
  | endClose h =>
      simp only [hv.closing.mpr ⟨_, h⟩]
      decide
  | beginCancel hfence hs =>
      obtain h | h | h := hv.state_of_current hs
      all_goals
        simp only [h]
        decide
  | reportReleasing howed hfenced hfence =>
      obtain ⟨h | h, -⟩ := hv.fence hfence
      all_goals
        simp only [h]
        decide
  | reportLosing x howed hfenced hstate =>
      obtain ⟨h | h, -⟩ := hv.fence (hv.inFlight_of_fenced hfenced hstate)
      all_goals
        simp only [h]
        decide
  | _ => exact .inl rfl

/-- A step by which a command is no longer owed leaves the lane where it is. -/
theorem lane_of_reported {command : ControlKind × Text} (h : Step size v label w)
    (howed : v.owed = command :: w.owed) :
  w.lane = v.lane
  := by
  cases h with
  | reportIgnored => rfl
  | reportCancel => rfl
  | reportReleasing => rfl
  | reportAfterLoss => rfl
  | reportLosing => rfl
  | beginCancel => rfl
  | sendDestroy => rfl
  | _ =>
      have hlength := congrArg List.length howed
      simp at hlength

/-- A statement whose state is set changes along a transition if the one that is set does. -/
theorem edge_put {s : Text} {x : ConsoleStatementState}
    (h : ∀ y, v.statements s = some y → StatementEdge y x) {s' : Text}
    {y : ConsoleStatementState} (hy : v.statements s' = some y) :
  ∃ z, v.put s x s' = some z ∧ StatementEdge y z
  := by
  by_cases hs : s' = s
  · use x
    simp [hs, h y (hs ▸ hy)]
  · use y
    simp [hs, hy, StatementEdge]

/-- The statement a lane is executing may come to any end the lane has found. -/
theorem edge_finish (hv : v.Sound size) {s : Text} {outcome : StatementEnd}
    (h : v.lane = .finishing s outcome) (hlost : v.state ≠ .sessionLost)
    {y : ConsoleStatementState} (hy : v.statements s = some y) :
  StatementEdge y outcome.state
  := by
  have hinFlight := (hv.inFlight_iff s).mpr (hv.state_of_running (by rw [h]; rfl) hlost).1
  obtain ⟨hedge, hterminal⟩ := hv.outcome s outcome h
  rw [View.InFlight, hy, Option.some.injEq, Option.some.injEq] at hinFlight
  obtain rfl | rfl := hinFlight
  · apply hedge
  · apply hedge.streaming hterminal

/-- A step of a sound session changes its statements along transitions. -/
theorem statementEdge (hv : v.Sound size) (h : Step size v label w) {s : Text}
    {x : ConsoleStatementState} (hx : v.statements s = some x) :
  ∃ y, w.statements s = some y ∧ StatementEdge x y
  := by
  cases h with
  | start h hstate hfence hs =>
      apply edge_put _ hx
      intro y hy
      obtain rfl := Option.some.inj (hs.symm.trans hy)
      decide
  | stream h hs =>
      apply edge_put _ hx
      intro y hy
      obtain rfl := Option.some.inj (hs.symm.trans hy)
      decide
  | finishLosing h hstate =>
      apply edge_put _ hx
      intro y
      apply edge_finish hv h hstate
  | finishIdle h hstate =>
      apply edge_put _ hx
      intro y
      apply edge_finish hv h hstate
  | finishReleasing h hstate =>
      apply edge_put _ hx
      intro y
      apply edge_finish hv h hstate
  | finishFenced h hstate =>
      apply edge_put _ hx
      intro y
      apply edge_finish hv h hstate
  | accept haccepting hactive hpending hs =>
      apply edge_put _ hx
      intro y hy
      cases hs.symm.trans hy
  | refuse haccepting hs =>
      apply edge_put _ hx
      intro y hy
      cases hs.symm.trans hy
  | cancelQueued chosen =>
      by_cases hs : x = .accepted ∧ chosen s = true
      · use .cancelled
        simp [View.cancelling, hx, hs]
        decide
      · use x
        simp [View.cancelling, hx, hs, StatementEdge]
  | reportLosing y howed hfenced hstate hy =>
      apply edge_put _ hx
      intro z hz
      obtain ⟨hsame, -⟩ | ⟨hended, hy⟩ := hy
      · exact .inl (Option.some.inj (hz.symm.trans hsame))
      · have hinFlight := (hv.inFlight_iff _).mpr ((hv.fenced _ hfenced).resolve_right hended)
        rw [View.InFlight, hz, Option.some.injEq, Option.some.injEq] at hinFlight
        obtain rfl | rfl := hinFlight <;> obtain rfl | rfl := hy <;> decide
  | _ => exact ⟨x, hx, .inl rfl⟩

end Step

end Sound

/-! ### What is done while the lock is held -/

/-- A step that may follow another while the lock is held. -/
inductive Quiet (size : ℕ) (v : View) : View → Prop
  | cancelQueued (chosen : Text → Bool) :
      Quiet size v { v with statements := v.cancelling chosen }
  | sendDestroy {s} (hfence : v.inFlight = true) (hsent : v.destroySent = false)
      (hs : v.fenced = some s) :
      Quiet size v { v with destroySent := true, owed := v.owed ++ [(.destroy, s)] }
  | putClose (r : Text) (haccepting : v.accepting = true) (hroom : v.mailbox.length < size) :
      Quiet size v { v with accepting := false, mailbox := v.mailbox ++ [.close r] }
  | noteClose (r : Text) (haccepting : v.accepting = true) (hroom : size ≤ v.mailbox.length) :
      Quiet size v { v with accepting := false, closePending := some r }

/-- A plain step of others than the lane, or none, and quiet steps after it. -/
def Moves (size : ℕ) (v w : View) : Prop :=
  ∃ u, (u = v ∨ Step size v .plain u ∧ u.lane = v.lane) ∧ Relation.ReflTransGen (Quiet size) u w

section Moves

variable {size : ℕ} {u v w : View}

theorem Quiet.step (h : Quiet size v w) :
  Step size v .plain w
  := by
  cases h with
  | cancelQueued chosen => apply Step.cancelQueued
  | sendDestroy hfence hsent hs => apply Step.sendDestroy hfence hsent hs
  | putClose r haccepting hroom => apply Step.putClose r haccepting hroom
  | noteClose r haccepting hroom => apply Step.noteClose r haccepting hroom

theorem Quiet.state (h : Quiet size v w) :
  w.state = v.state
  := by
  cases h <;> rfl

theorem Quiet.lane (h : Quiet size v w) :
  w.lane = v.lane
  := by
  cases h <;> rfl

/-- A quiet step cancels a statement that has not been started, or leaves it as it is. -/
theorem Quiet.statements (h : Quiet size v w) (s : Text) :
  w.statements s = v.statements s
    ∨ v.statements s = some .accepted ∧ w.statements s = some .cancelled
  := by
  cases h with
  | cancelQueued chosen =>
      simp only [View.cancelling]
      split
      · rename_i hs
        exact .inr ⟨hs.1, rfl⟩
      · exact .inl rfl
  | sendDestroy => exact .inl rfl
  | putClose => exact .inl rfl
  | noteClose => exact .inl rfl

namespace Moves

theorem refl (v : View) :
  Moves size v v
  := ⟨v, .inl rfl, .refl⟩

theorem of_step (h : Step size v .plain w) (hlane : w.lane = v.lane) :
  Moves size v w
  := ⟨w, .inr ⟨h, hlane⟩, .refl⟩

theorem of_quiet (h : Quiet size v w) :
  Moves size v w
  := ⟨v, .inl rfl, .single h⟩

theorem quiet (h : Moves size u v) (hquiet : Quiet size v w) :
  Moves size u w
  := by
  obtain ⟨x, hx, hpath⟩ := h
  exact ⟨x, hx, hpath.tail hquiet⟩

/-- The lane stays where it is. -/
theorem lane (h : Moves size v w) :
  w.lane = v.lane
  := by
  obtain ⟨u, hu, hpath⟩ := h
  have hfirst : u.lane = v.lane := by
    obtain rfl | ⟨-, hlane⟩ := hu
    · rfl
    · apply hlane
  clear hu
  induction hpath with
  | refl => apply hfirst
  | tail _ hquiet ih => rw [hquiet.lane, ih]

/-- The steps one after the other. -/
theorem path (h : Moves size v w) :
  Relation.ReflTransGen (fun v w => Step size v .plain w) v w
  := by
  obtain ⟨u, hu, hpath⟩ := h
  have hrest : Relation.ReflTransGen (fun v w => Step size v .plain w) u w :=
    hpath.lift id (fun _ _ hquiet => Quiet.step hquiet)
  obtain rfl | ⟨hu, -⟩ := hu
  · apply hrest
  · apply hrest.head hu

theorem sound (hv : v.Sound size) (h : Moves size v w) :
  w.Sound size
  := by
  have hpath := h.path
  clear h
  induction hpath with
  | refl => apply hv
  | tail _ hstep ih => apply hstep.sound ih

theorem sessionEdge (hv : v.Sound size) (h : Moves size v w) :
  SessionEdge v.state w.state
  := by
  obtain ⟨u, hu, hpath⟩ := h
  have hstate : w.state = u.state := by
    clear hu
    induction hpath with
    | refl => rfl
    | tail _ hquiet ih => rw [hquiet.state, ih]
  rw [hstate]
  obtain rfl | ⟨hu, -⟩ := hu
  · exact .inl rfl
  · apply hu.sessionEdge hv

theorem statementEdge (hv : v.Sound size) (h : Moves size v w) {s : Text}
    {x : ConsoleStatementState} (hx : v.statements s = some x) :
  ∃ y, w.statements s = some y ∧ StatementEdge x y
  := by
  obtain ⟨u, hu, hpath⟩ := h
  have hfirst : ∃ y, u.statements s = some y ∧ StatementEdge x y := by
    obtain rfl | ⟨hu, -⟩ := hu
    · exact ⟨x, hx, .inl rfl⟩
    · apply hu.statementEdge hv hx
  clear hu
  induction hpath with
  | refl => apply hfirst
  | tail _ hquiet ih =>
      obtain ⟨y, hy, hedge⟩ := ih
      obtain hsame | ⟨haccepted, hcancelled⟩ := hquiet.statements s
      · exact ⟨y, hsame.trans hy, hedge⟩
      · obtain rfl := Option.some.inj (hy.symm.trans haccepted)
        exact ⟨.cancelled, hcancelled, hedge.cancelled⟩

end Moves

end Moves

end Broker

import DataOpsStudio.Broker.Evolution

/-!
# The broker simulates the machines of its sessions

Every step of the broker is, for each of its sessions, a move, a step of the lane of that
session or the report of a control command for it.
-/

namespace Broker

open Text Program

/-- The action is a step of the lane of a session, or the report of a command for it. -/
def SessionBroker.Concerns (b : SessionBroker) (action : Action) (k : Text) : Prop :=
  (∃ input now, action = .lane k input now)
    ∨ ∃ d now control command failed, action = .control d .proceed now
      ∧ b.controls.get? d = some control ∧ control.point = .reporting command failed
      ∧ command.sessionId = k

/-- How an action bears on a session. -/
inductive Bears (config : BrokerConfig) (b : SessionBroker) : Action → Text → View → View → Prop
  | moves {action k v w} (hidle : ¬ b.Concerns action k) (h : Moves config.mailboxSize v w) :
      Bears config b action k v w
  | lane {k input now label v w} (hlabel : label.IsLane)
      (hhand : ∀ s, v.lane = .preparing s → input = .proceed → w.lane = .executing s)
      (hopen : v.lane = .opening → (∃ code, input = .openFailed code) ∨ w.state = .idle)
      (h : Step config.mailboxSize v label w) : Bears config b (.lane k input now) k v w
  | control {d now control command failed label v w} (hd : b.controls.get? d = some control)
      (hpoint : control.point = .reporting command failed) (hlabel : label.IsControl)
      (howed : v.owed = (command.kind, command.statementId) :: w.owed)
      (h : Step config.mailboxSize v label w) :
      Bears config b (.control d .proceed now) command.sessionId v w
  | start {k v w} (hlane : v.lane = .unstarted) (h : Step config.mailboxSize v .plain w) :
      Bears config b (.attachReady false) k v w

namespace Bears

variable {config : BrokerConfig} {b : SessionBroker} {action : Action} {k : Text} {v w : View}

theorem sound (hv : v.Sound config.mailboxSize) (h : Bears config b action k v w) :
  w.Sound config.mailboxSize
  := by
  cases h with
  | moves _ h => apply h.sound hv
  | lane _ _ _ h => apply h.sound hv
  | control _ _ _ _ h => apply h.sound hv
  | start _ h => apply h.sound hv

theorem sessionEdge (hv : v.Sound config.mailboxSize) (h : Bears config b action k v w) :
  SessionEdge v.state w.state
  := by
  cases h with
  | moves _ h => apply h.sessionEdge hv
  | lane _ _ _ h => apply h.sessionEdge hv
  | control _ _ _ _ h => apply h.sessionEdge hv
  | start _ h => apply h.sessionEdge hv

theorem statementEdge (hv : v.Sound config.mailboxSize) (h : Bears config b action k v w)
    {s : Text} {x : ConsoleStatementState} (hx : v.statements s = some x) :
  ∃ y, w.statements s = some y ∧ StatementEdge x y
  := by
  cases h with
  | moves _ h => apply h.statementEdge hv hx
  | lane _ _ _ h => apply h.statementEdge hv hx
  | control _ _ _ _ h => apply h.statementEdge hv hx
  | start _ h => apply h.statementEdge hv hx

end Bears

/-! ### Lanes -/

/-- The broker with another history. -/
def SessionBroker.noting (b : SessionBroker) (history : History) : SessionBroker :=
  { b with history := history }

/-- The statements a lane hands to `connection.execute` when it goes on. -/
def SessionRuntime.handed (runtime : SessionRuntime) (input : LaneInput) : List Text :=
  match runtime.lane, input with
  | .preparing s, .proceed => [s]
  | _, _ => []

/-- The history with statements handed over. -/
def History.hand (history : History) (statements : List Text) : History :=
  { history with executed := history.executed ++ statements }

section Lane

variable {config : BrokerConfig} {b : SessionBroker} {now : ℤ}

theorem SessionBroker.Sound.noting (h : b.Sound config) (history : History) :
  (b.noting history).Sound config
  := ⟨h.store, h.id, h.wellformed, h.requested, h.view, h.commands, h.statements, h.consoles,
    h.active, h.attaching⟩

theorem Evolves.of_noting {R : Text → View → View → Prop} {history : History} {b' : SessionBroker}
    (h : Evolves config R (b.noting history) b') :
  Evolves config R b b'
  := ⟨h.sound, h.keys, h.sessions, h.foreignSessions, h.foreignStatements⟩

theorem ensures_noteExecuted {runtime : SessionRuntime} {input : LaneInput}
    {Q : Unit → SessionBroker → Prop} {E : BrokerExn → SessionBroker → Prop} :
  Ensures (noteExecuted runtime input) b Q E
    ↔ Q () (b.noting (b.history.hand (runtime.handed input)))
  := by
  by_cases hcase : ∃ s, runtime.lane = .preparing s ∧ input = .proceed
  · obtain ⟨s, hlane, rfl⟩ := hcase
    unfold noteExecuted SessionRuntime.handed
    rw [hlane]
    rfl
  · have hnone : runtime.handed input = [] := by
      unfold SessionRuntime.handed
      split
      · rename_i s hlane
        exact (hcase ⟨s, hlane, rfl⟩).elim
      · rfl
    have hskip : noteExecuted runtime input = pure () := by
      unfold noteExecuted
      split
      · rename_i s hlane
        exact (hcase ⟨s, hlane, rfl⟩).elim
      · rfl
    rw [hskip, ensures_pure, hnone, SessionBroker.noting, History.hand, List.append_nil]

/-- A step of a lane is a step of its session, and nothing else changes but that a statement may
be handed over. -/
theorem laneStep_spec {k : Text} {input : LaneInput} {m : BrokerM Unit} (h : b.Sound config)
    (hm : laneStep config b k input now = some m) :
  ∃ runtime, b.sessions.get? k = some runtime
    ∧ Ensures m b
      (fun _ b' => Evolves config (Bears config b (.lane k input now)) b b'
        ∧ Leaves (b.noting (b.history.hand (runtime.handed input))) b')
      (fun _ _ => False)
  := by
  rw [laneStep] at hm
  cases hk : b.sessions.get? k with
  | none =>
      rw [hk] at hm
      cases hm
  | some runtime =>
      rw [hk, Option.bind_some] at hm
      obtain ⟨next, hnext, rfl⟩ := Option.map_eq_some_iff.mp hm
      refine ⟨runtime, rfl, ?_⟩
      have hwf := h.wellformed k runtime hk
      have hv := h.view k runtime hk
      have hstarted : runtime.lane ≠ .unstarted := by
        intro hlane
        unfold laneNext at hnext
        rw [hlane] at hnext
        cases hnext
      have hget : (b.noting (b.history.hand (runtime.handed input))).sessions.get? k
          = some runtime := hk
      rw [ensures_bind, ensures_noteExecuted, ensures_onRuntime hget, onLane, ensures_onRaise]
      have hadvances := laneNext_advances (c := b.focus runtime) hwf hv hnext
      have hhand : Ensures next (b.focus runtime)
          (fun _ c => ∀ s, runtime.lane = .preparing s → input = .proceed →
            c.runtime.lane = .executing s)
          (fun _ _ => True) := by
        by_cases hcase : ∃ s, runtime.lane = .preparing s ∧ input = .proceed
        · obtain ⟨s, hlane, rfl⟩ := hcase
          unfold laneNext at hnext
          rw [hlane] at hnext
          obtain rfl := Option.some.inj hnext
          intro s' hlane' _
          cases hlane.symm.trans hlane'
          rfl
        · apply hadvances.mono
          · intro _ c _ s hlane hinput
            exact (hcase ⟨s, hlane, hinput⟩).elim
          · intro e c _
            trivial
      have hopen : Ensures next (b.focus runtime)
          (fun _ c => runtime.lane = .opening →
            (∃ code, input = .openFailed code) ∨ c.runtime.session.state = .idle)
          (fun _ _ => True) := by
        by_cases hlane : runtime.lane = .opening
        · unfold laneNext at hnext
          rw [hlane] at hnext
          cases input with
          | opened marker =>
              obtain rfl := Option.some.inj hnext
              apply (laneOpened_idle hwf hv hlane).mono
              · intro _ c hidle _
                exact .inr hidle
              · intro e c _
                trivial
          | openFailed code =>
              apply hadvances.mono
              · intro _ c _ _
                exact .inl ⟨code, rfl⟩
              · intro e c _
                trivial
          | _ => cases hnext
        · apply hadvances.mono
          · intro _ c _ hopening
            exact (hlane hopening).elim
          · intro e c _
            trivial
      apply ((hadvances.and hhand).and hopen).mono
      · rintro _ c ⟨⟨⟨hkept, label, hlabel, hstep⟩, hhand⟩, hopen⟩
        constructor
        · apply Evolves.of_noting
          apply evolves_unfocus (h.noting (b.history.hand (runtime.handed input))) hget
          · apply hkept.served hwf (h.requested k runtime hk)
          · apply hstep.sound hv
          · apply (hstep.sessionEdge hv).isActive
          · right
            intro hlane
            exact (hstarted hlane).elim
          · exact .lane hlabel hhand hopen hstep
          · intro k' v hne
            apply Bears.moves _ (Moves.refl v)
            rintro (⟨input', now', heq⟩ | ⟨d, now', control, command, failed, heq, -⟩)
            · cases heq
              exact hne rfl
            · cases heq
        · apply Leaves.unfocus
          · apply hk
          · apply hkept.epochs
          · apply hkept.session.epoch
      · intro e c hfalse
        apply hfalse.1.1

end Lane

/-! ### Control lanes -/

section Control

variable {config : BrokerConfig} {b : SessionBroker} {d : Text} {control control' : ControlLane}
  {now : ℤ}

/-- The commands owed to a session do not bear on its soundness. -/
theorem View.Sound.owing {size : ℕ} {v : View} (h : v.Sound size) (owed : List (ControlKind × Text)) :
  ({ v with owed := owed } : View).Sound size
  := by
  obtain ⟨⟨hconnecting, hclosing, hexited, hclosed, hrunning, hcurrent, hinFlight, houtcome⟩,
    ⟨hexecuting, hcancelling, hfence, hfenced, hreleased, hlost⟩,
    ⟨hknown, haccepting, hcounted, hbounded⟩⟩ := h
  exact ⟨⟨hconnecting, hclosing, hexited, hclosed, hrunning, hcurrent, hinFlight, houtcome⟩,
    ⟨hexecuting, hcancelling, hfence, hfenced, hreleased, hlost⟩,
    ⟨hknown, haccepting, hcounted, hbounded⟩⟩

/-- The broker with a control lane replaced. -/
def SessionBroker.putControl (b : SessionBroker) (d : Text) (control : ControlLane) :
    SessionBroker :=
  { b with controls := b.controls.set d control }

/-- A control lane may go on with some of its commands. -/
theorem SessionBroker.Sound.putControl (h : b.Sound config) (hd : b.controls.get? d = some control)
    (hcommands : ∀ command ∈ control'.commands, command ∈ control.commands) :
  (b.putControl d control').Sound config
  := by
  have hcontains : ∀ d', b.controls.contains d' = true →
      (b.putControl d control').controls.contains d' = true := by
    intro d' hd'
    by_cases hne : d = d'
    · subst hne
      rw [Dict.contains, SessionBroker.putControl, Dict.get?_set_self]
      rfl
    · rw [Dict.contains, SessionBroker.putControl, Dict.get?_set_of_ne _ _ hne]
      apply hd'
  refine ⟨h.store, h.id, ?_, ?_, ?_, ?_, h.statements, h.consoles, h.active, ?_⟩
  · intro k runtime hk
    obtain ⟨hstored, hkeyed, hmirrored, hcontrolled⟩ := h.wellformed k runtime hk
    exact ⟨hstored, hkeyed, hmirrored, fun hlane => hcontains _ (hcontrolled hlane)⟩
  · intro k runtime hk
    obtain ⟨hlisted, hknown⟩ := h.requested k runtime hk
    exact ⟨hlisted, hknown⟩
  · intro k runtime hk
    apply (h.view k runtime hk).owing
  · intro d' control'' command hd' hcommand
    by_cases hne : d = d'
    · subst hne
      rw [SessionBroker.putControl, Dict.get?_set_self] at hd'
      obtain rfl := Option.some.inj hd'
      apply h.commands d control command hd (hcommands command hcommand)
    · rw [SessionBroker.putControl, Dict.get?_set_of_ne _ _ hne] at hd'
      apply h.commands d' control'' command hd' hcommand
  · intro point hpoint
    have hsound := h.attaching point hpoint
    cases point with
    | entered request => trivial
    | created request k => apply hsound
    | awaiting request k => exact ⟨hsound.1, hcontains _ hsound.2⟩

theorem Leaves.putControl (b : SessionBroker) (d : Text) (control : ControlLane) :
  Leaves b (b.putControl d control)
  := ⟨rfl, rfl, rfl, fun _ runtime hk => ⟨runtime, hk, rfl⟩⟩

/-- A session looks as before if it is owed the same. -/
theorem view_putControl {runtime : SessionRuntime}
    (hd : b.controls.get? d = some control)
    (howed : control'.owedTo runtime.session.id = control.owedTo runtime.session.id) :
  ((b.putControl d control').focus runtime).view = (b.focus runtime).view
  := by
  rw [Focus.view, Focus.view, Focus.owed, Focus.owed]
  congr 1
  rw [owedIn, owedIn]
  by_cases hne : d = runtime.session.datasourceId
  · subst hne
    simp only [SessionBroker.putControl, SessionBroker.focus, Dict.get?_set_self, hd, Option.map_some,
      Option.getD_some, howed]
  · simp only [SessionBroker.putControl, SessionBroker.focus, Dict.get?_set_of_ne _ _ hne]

/-- A control lane that goes on without reporting a command changes no session. -/
theorem calm_putControl (h : b.Sound config) (hd : b.controls.get? d = some control)
    (hcommands : control'.commands = control.commands) :
  Calm config b (b.putControl d control')
  := by
  refine ⟨⟨h.putControl hd (fun command hcommand => hcommands ▸ hcommand), rfl, ?_,
    fun _ _ _ hk => hk, fun _ _ _ => Iff.rfl⟩, Leaves.putControl b d control'⟩
  intro k runtime hk
  refine ⟨runtime, hk, ⟨rfl, rfl, rfl, rfl, rfl⟩, fun s statement hs =>
    ⟨statement, hs, rfl, rfl, rfl⟩, ?_⟩
  rw [view_putControl hd (by rw [ControlLane.owedTo, hcommands]; rfl)]
  apply Moves.refl

end Control

/-! ### Reports -/

section Report

variable {config : BrokerConfig} {b : SessionBroker} {d : Text} {control : ControlLane}
  {command : ControlCommand} {failed : Bool} {now : ℤ}

/-- What is done when a command has been executed is a step of its session, once the command is
no longer owed. -/
theorem onControlDone_spec {size : ℕ} {c : Focus} {rest : List (ControlKind × Text)}
    (h : c.Wellformed) (hv : c.view.Sound size)
    (howed : c.view.owed = (command.kind, command.statementId) :: rest) :
  Ensures (onControlDone config command failed now) c
    (fun _ c' => ∃ label, label.IsControl ∧ Reports size label rest c c')
    (fun _ _ => False)
  := by
  rw [onControlDone]
  cases hkind : command.kind with
  | cancel =>
      rw [hkind] at howed
      apply (onControlCancelDone_spec h hv howed).mono
      · intro _ c' hreports
        exact ⟨.controlRelease, trivial, hreports⟩
      · intro e c' hfalse
        apply hfalse
  | destroy =>
      rw [hkind] at howed
      apply (onControlDestroyDone_spec h hv howed).mono
      · intro _ c' hreports
        exact ⟨.controlLose, trivial, hreports⟩
      · intro e c' hfalse
        apply hfalse

/-- The first command a control lane owes to a session is the one it is at. -/
theorem owedTo_reporting (hpoint : control.point = .reporting command failed) (k : Text) :
  control.owedTo k
    = (if command.sessionId = k then [(command.kind, command.statementId)] else [])
      ++ ({ control with point := .waiting } : ControlLane).owedTo k
  := by
  simp only [ControlLane.owedTo, ControlLane.commands, hpoint, ControlPoint.command,
    Option.toList_some, Option.toList_none, List.nil_append, List.cons_append, List.filter_cons,
    ControlCommand.isFor, decide_eq_true_eq]
  split
  · rfl
  · rfl

/-- The broker after a control lane has reported a command. -/
theorem setControlPoint_eq {b : SessionBroker} {control : ControlLane} {point : ControlPoint}
    (hd : b.controls.get? d = some control) :
  setControlPoint d point b = b.putControl d { control with point := point }
  := by
  rw [setControlPoint, hd]
  rfl

/-- The registry once a control lane is done with the command it reports. -/
theorem evolves_reported {runtime : SessionRuntime} {c : Focus} {label : Label}
    {rest : List (ControlKind × Text)} (h : b.Sound config)
    (hk : b.sessions.get? command.sessionId = some runtime)
    (hds : runtime.session.datasourceId = d) (hd : b.controls.get? d = some control)
    (hpoint : control.point = .reporting command failed) (hlabel : label.IsControl)
    (howed : (b.focus runtime).view.owed = (command.kind, command.statementId) :: rest)
    (hreports : Reports config.mailboxSize label rest (b.focus runtime) c) :
  Evolves config (Bears config b (.control d .proceed now)) b
      (setControlPoint d .waiting (b.unfocus command.sessionId c))
    ∧ Leaves b (setControlPoint d .waiting (b.unfocus command.sessionId c))
  := by
  obtain ⟨hkept, hsame, hstep⟩ := hreports
  have hid := h.id _ _ hk
  have hv := h.view _ _ hk
  obtain ⟨label', hlabel', hstep⟩ : ∃ label', label'.IsControl
      ∧ Step config.mailboxSize (b.focus runtime).view label' { c.view with owed := rest } := by
    obtain hplain | hlabelled := hstep
    · exact ⟨.plain, trivial, hplain⟩
    · exact ⟨label, hlabel, hlabelled⟩
  obtain ⟨posted, hd₁, -⟩ := hkept.posted.extended control
    (by rw [show (b.focus runtime).runtime.session.datasourceId = d from hds]; exact hd)
  rw [show (b.focus runtime).runtime.session.datasourceId = d from hds] at hd₁
  have hpoint₁ : ({ control with mailbox := control.mailbox ++ posted.map some } :
      ControlLane).point = .reporting command failed := hpoint
  -- first the session changes, then the command is no longer owed
  have hfirst : Evolves config (fun k v w => k = command.sessionId ∧ w = c.view
      ∨ k ≠ command.sessionId ∧ w = v) b (b.unfocus command.sessionId c) := by
    apply evolves_unfocus h hk (hkept.served (h.wellformed _ _ hk) (h.requested _ _ hk))
    · apply (hstep.sound hv).owing c.view.owed
    · apply (hstep.sessionEdge hv).isActive
    · right
      intro hlane
      apply (hstep.lane_of_reported howed).trans hlane
    · exact .inl ⟨rfl, rfl⟩
    · intro k' v hne
      exact .inr ⟨hne, rfl⟩
  have howed₁ : (c.view.owed : List (ControlKind × Text)) = (command.kind, command.statementId)
      :: ({ control with
        mailbox := control.mailbox ++ posted.map some, point := .waiting } :
        ControlLane).owedTo command.sessionId := by
    have hreported := owedTo_reporting hpoint₁ command.sessionId
    rw [if_pos rfl] at hreported
    show owedIn c.controls c.runtime.session.datasourceId c.runtime.session.id = _
    rw [owedIn, hkept.session.datasourceId, hkept.session.id,
      show (b.focus runtime).runtime.session.datasourceId = d from hds,
      show (b.focus runtime).runtime.session.id = _ from hid, hd₁, Option.map_some,
      Option.getD_some, hreported]
    rfl
  have hrest : ({ control with
      mailbox := control.mailbox ++ posted.map some, point := .waiting } :
      ControlLane).owedTo command.sessionId = rest := by
    rw [hsame, howed] at howed₁
    exact (List.cons.inj howed₁).2.symm
  rw [setControlPoint_eq hd₁]
  constructor
  · refine ⟨?_, hfirst.keys, ?_, hfirst.foreignSessions, hfirst.foreignStatements⟩
    · apply hfirst.sound.putControl hd₁
      intro command' hcommand'
      exact List.mem_append_right _ hcommand'
    · intro k runtime' hk'
      obtain ⟨runtime'', hk'', hkin, hsame', hview⟩ := hfirst.sessions k runtime' hk'
      refine ⟨runtime'', hk'', hkin, hsame', ?_⟩
      obtain ⟨rfl, hown⟩ | ⟨hne, hother⟩ := hview
      · obtain rfl := Option.some.inj (hk.symm.trans hk')
        obtain rfl : c.runtime = runtime'' :=
          Option.some.inj (unfocus_get?_self.symm.trans hk'')
        have hreported : (((b.unfocus command.sessionId c).putControl d
            { control with mailbox := control.mailbox ++ posted.map some, point := .waiting }).focus
            c.runtime).view = { c.view with owed := rest } := by
          rw [← hrest, ← hid]
          show c.runtime.view (owedIn (c.controls.set d _) c.runtime.session.datasourceId
            c.runtime.session.id) = _
          rw [owedIn, hkept.session.datasourceId, hkept.session.id,
            show (b.focus runtime).runtime.session.datasourceId = d from hds, Dict.get?_set_self,
            Option.map_some, Option.getD_some]
          rfl
        rw [hreported]
        exact .control hd hpoint hlabel' howed hstep
      · have hforeign : runtime''.session.id ≠ command.sessionId := by
          rw [hfirst.sound.id k runtime'' hk'']
          apply hne
        have hreported := owedTo_reporting hpoint₁ runtime''.session.id
        rw [if_neg hforeign.symm, List.nil_append] at hreported
        rw [view_putControl hd₁ hreported.symm, hother]
        apply Bears.moves _ (Moves.refl _)
        rintro (⟨input, now', heq⟩ | ⟨d', now', control', command', failed', heq, hd', hpoint', hk'⟩)
        · cases heq
        · cases heq
          obtain rfl := Option.some.inj (hd.symm.trans hd')
          cases hpoint.symm.trans hpoint'
          exact hne hk'.symm
  · apply Leaves.trans
    · apply Leaves.unfocus hk hkept.epochs hkept.session.epoch
    · apply Leaves.putControl

/-- The history with a command reported. -/
def History.report (history : History) (command : ControlCommand) : History :=
  match command.kind with
  | .cancel => history
  | .destroy => { history with destroyed := history.destroyed ++ [command.sessionId] }

theorem noteReported_eq (b : SessionBroker) (command : ControlCommand) :
  b.noteReported command = b.noting (b.history.report command)
  := by
  rw [SessionBroker.noteReported, SessionBroker.noting, History.report]
  cases command.kind with
  | cancel => rfl
  | destroy => rfl

/-- The report of a command is a step of the session it is for. -/
theorem reportControl_spec (h : b.Sound config) (hd : b.controls.get? d = some control)
    (hpoint : control.point = .reporting command failed) :
  Ensures (reportControl config d command failed now) b
    (fun _ b' => Evolves config (Bears config b (.control d .proceed now)) b b'
      ∧ Leaves (b.noting (b.history.report command)) b')
    (fun _ _ => False)
  := by
  obtain ⟨runtime, hk, hds⟩ := h.commands d control command hd (by
    rw [ControlLane.commands, hpoint]
    exact List.mem_append_left _ (List.mem_singleton.mpr rfl))
  have hid := h.id _ _ hk
  have hwf := h.wellformed _ _ hk
  have hv := h.view _ _ hk
  have howed : (b.focus runtime).view.owed = (command.kind, command.statementId)
      :: ({ control with point := .waiting } : ControlLane).owedTo command.sessionId := by
    have hfirst := owedTo_reporting hpoint command.sessionId
    rw [if_pos rfl] at hfirst
    show owedIn b.controls runtime.session.datasourceId runtime.session.id = _
    rw [owedIn, hds, hid, hd, Option.map_some, Option.getD_some, hfirst]
    rfl
  rw [reportControl, ensures_bind, ensures_onRaise, ensures_onRuntime hk]
  apply (onControlDone_spec hwf hv howed).mono
  · rintro _ c ⟨label, hlabel, hkept, hsame, hstep⟩
    rw [ensures_modify, noteReported_eq]
    obtain ⟨hevolves, hleaves⟩ := evolves_reported h hk hds hd hpoint hlabel howed
      ⟨hkept, hsame, hstep⟩
    rw [hleaves.history]
    constructor
    · exact ⟨hevolves.sound.noting _, hevolves.keys, hevolves.sessions, hevolves.foreignSessions,
        hevolves.foreignStatements⟩
    · exact ⟨rfl, hleaves.attaching, hleaves.epochs, hleaves.epoch⟩
  · intro e c hfalse
    apply hfalse

end Report

section Next

variable {config : BrokerConfig} {b : SessionBroker} {d : Text} {control : ControlLane}
  {input : ControlInput} {now : ℤ} {m : BrokerM Unit}

/-- The history after a control lane has gone on. -/
def ControlLane.historyAfter (control : ControlLane) (input : ControlInput) (history : History) :
    History :=
  match control.point, input with
  | .reporting command _, .proceed => history.report command
  | _, _ => history

/-- What a control lane does next is the report of a command, or changes no session. -/
theorem controlNext_spec (h : b.Sound config) (hd : b.controls.get? d = some control)
    (hm : controlNext config b d control input now = some m) :
  Ensures m b
    (fun _ b' => Evolves config (Bears config b (.control d input now)) b b'
      ∧ Leaves (b.noting (control.historyAfter input b.history)) b')
    (fun _ _ => False)
  := by
  have hcalm : ∀ control', (∀ command failed, control.point ≠ .reporting command failed) →
      control'.commands = control.commands →
      Evolves config (Bears config b (.control d input now)) b (b.putControl d control')
        ∧ Leaves b (b.putControl d control') := by
    intro control' hpoint hcommands
    obtain ⟨hevolves, hleaves⟩ := calm_putControl h hd hcommands
    refine ⟨hevolves.mono ?_ h, hleaves⟩
    intro k v w _ hmoves
    apply Bears.moves _ hmoves
    rintro (⟨input', now', heq⟩ | ⟨d', now', control', command', failed', heq, hd', hpoint', -⟩)
    · cases heq
    · cases heq
      obtain rfl := Option.some.inj (hd.symm.trans hd')
      apply hpoint command' failed' hpoint'
  unfold controlNext at hm
  split at hm
  case h_1 support hpoint =>
    obtain rfl := Option.some.inj hm
    have hhistory : control.historyAfter (.opened support) b.history = b.history := by
      unfold ControlLane.historyAfter
      rw [hpoint]
    rw [hhistory]
    apply hcalm _ (by simp [hpoint])
    simp only [ControlLane.commands, hpoint, ControlPoint.command]
  case h_2 hpoint =>
    have hhistory : control.historyAfter .proceed b.history = b.history := by
      unfold ControlLane.historyAfter
      rw [hpoint]
    rw [hhistory]
    split at hm
    · cases hm
    · rename_i rest hmail
      obtain rfl := Option.some.inj hm
      apply hcalm _ (by simp [hpoint])
      simp only [ControlLane.commands, hpoint, ControlPoint.command, hmail, List.filterMap_cons,
        id]
    · rename_i command rest hmail
      obtain rfl := Option.some.inj hm
      apply hcalm _ (by simp [hpoint])
      simp only [ControlLane.commands, hpoint, ControlPoint.command, hmail, List.filterMap_cons,
        id, Option.toList_some, Option.toList_none, List.cons_append, List.nil_append]
  case h_3 command raises hpoint =>
    have hhistory : control.historyAfter (.executed raises) b.history = b.history := by
      unfold ControlLane.historyAfter
      rw [hpoint]
    rw [hhistory]
    obtain ⟨runtime, -, rfl⟩ := Option.map_eq_some_iff.mp hm
    apply hcalm _ (by simp [hpoint])
    simp only [ControlLane.commands, hpoint, ControlPoint.command]
  case h_4 command failed hpoint =>
    have hhistory : control.historyAfter .proceed b.history = b.history.report command := by
      unfold ControlLane.historyAfter
      rw [hpoint]
    rw [hhistory]
    obtain rfl := Option.some.inj hm
    apply reportControl_spec h hd hpoint
  case h_5 => cases hm

end Next

end Broker

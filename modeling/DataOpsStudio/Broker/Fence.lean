import DataOpsStudio.Broker.Mailbox

/-!
# The cancel fence

While a cancellation is under way no other statement is started, so that a control command meets
the statement it was made for.  The fence may be released while a command is still owed: when the
cancellation is confirmed before the command to cancel is reported, or when a command to destroy
has been sent.  Without such a release the fence holds, and a session that was destroyed is not
active.
-/

namespace Broker

open Text Program

/-! ### The machine of a session -/

/-- Every command that is owed to the session belongs to the fence that is up, unless the session
is lost. -/
structure View.Guarded (v : View) : Prop where
  owed : ∀ kind s, (kind, s) ∈ v.owed → v.state ≠ .sessionLost →
    v.inFlight = true ∧ v.fenced = some s ∧ (kind = .destroy → v.destroySent = true)
      ∧ (kind = .cancel → v.controlDone = false)
  once : v.state ≠ .sessionLost → v.owed.countP (fun command => command.1 = .cancel) ≤ 1

/-- A command to destroy that is owed to the session belongs to the fence that is up, unless the
session is lost. -/
def View.Doomed (v : View) : Prop :=
  ∀ s, (.destroy, s) ∈ v.owed → v.state ≠ .sessionLost →
    v.inFlight = true ∧ v.destroySent = true

section Machine

variable {size : ℕ} {v w : View} {label : Label}

theorem View.guarded_of_owed_eq_nil (h : v.owed = []) :
  v.Guarded
  := by
  constructor
  · intro kind s hmem
    rw [h] at hmem
    cases hmem
  · intro _
    rw [h]
    exact Nat.zero_le 1

/-- Nothing is owed to a session without a fence. -/
theorem View.Guarded.owed_eq_nil (h : v.Guarded) (hstate : v.state ≠ .sessionLost)
    (hfence : v.inFlight = false) :
  v.owed = []
  := by
  apply List.eq_nil_iff_forall_not_mem.mpr
  rintro ⟨kind, s⟩ hmem
  have hinFlight := (h.owed kind s hmem hstate).1
  rw [hfence] at hinFlight
  cases hinFlight

/-- No command is owed any more once the command to cancel is reported, unless one to destroy was
sent. -/
theorem View.Guarded.owed_eq_nil_of_done (h : v.Guarded) (hstate : v.state ≠ .sessionLost)
    (hdone : v.controlDone = true) (hsent : v.destroySent = false) :
  v.owed = []
  := by
  apply List.eq_nil_iff_forall_not_mem.mpr
  rintro ⟨kind, s⟩ hmem
  obtain ⟨-, -, hdestroy, hcancel⟩ := h.owed kind s hmem hstate
  cases kind with
  | cancel =>
      rw [hdone] at hcancel
      cases hcancel rfl
  | destroy =>
      rw [hsent] at hdestroy
      cases hdestroy rfl

/-- After the command to cancel is reported only commands to destroy are owed. -/
theorem View.Guarded.rest (h : v.Guarded) (hstate : v.state ≠ .sessionLost) {s : Text}
    {rest : List (ControlKind × Text)} (howed : v.owed = (.cancel, s) :: rest) {kind : ControlKind}
    {s' : Text} (hmem : (kind, s') ∈ rest) :
  kind = .destroy ∧ v.inFlight = true ∧ v.fenced = some s' ∧ v.destroySent = true
  := by
  have hall : (kind, s') ∈ v.owed := by
    rw [howed]
    exact List.mem_cons_of_mem _ hmem
  obtain ⟨hinFlight, hfenced, hdestroy, -⟩ := h.owed kind s' hall hstate
  have hkind : kind = .destroy := by
    cases kind with
    | destroy => rfl
    | cancel =>
        have honce := h.once hstate
        rw [howed, List.countP_cons_of_pos (by simp)] at honce
        have hpos : 0 < rest.countP (fun command => command.1 = .cancel) :=
          List.countP_pos_iff.mpr ⟨_, hmem, by simp⟩
        omega
  exact ⟨hkind, hinFlight, hfenced, hdestroy hkind⟩

/-- The fence stays around the commands that are owed if it is released only when none is. -/
theorem Step.guarded (hv : v.Sound size) (hguarded : v.Guarded) (h : Step size v label w)
    (hlane : label = .laneRelease → v.controlDone = true ∧ v.destroySent = false)
    (hcontrol : label = .controlRelease → v.destroySent = false) :
  w.Guarded
  := by
  have hopen : v.lane = .opening → v.state = .connecting := fun h => hv.connecting.mpr (.inr h)
  have hunfenced : v.state ≠ .idle → v.state ≠ .cancelling → v.inFlight = false := by
    intro hidle hcancelling
    by_contra hfence
    obtain ⟨hstate | hstate, -⟩ := hv.fence ((Bool.not_eq_false _).mp hfence)
    · exact hidle hstate
    · exact hcancelling hstate
  have hnil : v.state ≠ .idle → v.state ≠ .cancelling → v.state ≠ .sessionLost → v.owed = [] :=
    fun hidle hcancelling hlost => hguarded.owed_eq_nil hlost (hunfenced hidle hcancelling)
  have hlost : ∀ u : View, u.state = .sessionLost → u.Guarded :=
    fun u hstate => ⟨fun _ _ _ hne => (hne hstate).elim, fun hne => (hne hstate).elim⟩
  cases h with
  | opened h => exact View.guarded_of_owed_eq_nil (by apply hnil <;> simp [hopen h])
  | openFailed h => exact View.guarded_of_owed_eq_nil (by apply hnil <;> simp [hopen h])
  | start h hstate hfence =>
      exact View.guarded_of_owed_eq_nil (hguarded.owed_eq_nil (by simp [hstate]) hfence)
  | finishIdle h hstate _ hfence =>
      exact View.guarded_of_owed_eq_nil (hguarded.owed_eq_nil hstate hfence)
  | finishLosing => exact hlost _ rfl
  | finishReleasing h hstate =>
      obtain ⟨hdone, hsent⟩ := hlane rfl
      exact View.guarded_of_owed_eq_nil (hguarded.owed_eq_nil_of_done hstate hdone hsent)
  | beginClose h hfence hstate =>
      apply View.guarded_of_owed_eq_nil
      apply hguarded.owed_eq_nil (ConsoleSessionState.isActive_iff.mp hstate).2.1
      by_contra hinFlight
      exact hfence ⟨(Bool.not_eq_false _).mp hinFlight, hstate⟩
  | endClose h =>
      have hclosing := hv.closing.mpr ⟨_, h⟩
      exact View.guarded_of_owed_eq_nil (by apply hnil <;> simp [hclosing])
  | @beginCancel s hfence hs =>
      have hstate : v.state ≠ .sessionLost := by
        obtain h | h | h := hv.state_of_current hs <;> simp [h]
      have hempty := hguarded.owed_eq_nil hstate hfence
      constructor
      · intro kind s' hmem _
        rw [show ({ v with owed := _ } : View).owed = v.owed ++ [(.cancel, s)] from rfl, hempty,
          List.nil_append, List.mem_singleton] at hmem
        cases hmem
        exact ⟨rfl, rfl, nofun, fun _ => rfl⟩
      · intro _
        dsimp only
        rw [hempty]
        exact List.countP_le_length
  | @sendDestroy s hfence hsent hs =>
      have hstate : v.state ≠ .sessionLost := by
        intro hstate
        rw [(hv.lost hstate).1] at hfence
        cases hfence
      constructor
      · intro kind s' hmem _
        obtain hmem | hmem := List.mem_append.mp hmem
        · obtain ⟨hinFlight, hfenced, -, hcancel⟩ := hguarded.owed kind s' hmem hstate
          exact ⟨hinFlight, hfenced, fun _ => rfl, hcancel⟩
        · cases List.mem_singleton.mp hmem
          exact ⟨hfence, hs, fun _ => rfl, nofun⟩
      · intro _
        dsimp only
        rw [List.countP_append]
        apply hguarded.once hstate
  | @reportIgnored command rest howed hfenced =>
      constructor
      · intro kind s hmem hstate
        apply hguarded.owed kind s _ hstate
        rw [howed]
        exact List.mem_cons_of_mem _ hmem
      · intro hstate
        have honce := hguarded.once hstate
        rw [howed, List.countP_cons] at honce
        dsimp only
        omega
  | @reportCancel s s' rest howed hfenced _ =>
      constructor
      · intro kind s'' hmem hstate
        obtain ⟨rfl, hinFlight, hfenced', hsent⟩ := hguarded.rest hstate howed hmem
        exact ⟨hinFlight, hfenced', fun _ => hsent, nofun⟩
      · intro hstate
        have honce := hguarded.once hstate
        rw [howed, List.countP_cons] at honce
        dsimp only
        omega
  | @reportReleasing s s' rest howed hfenced hfence _ =>
      have hstate : v.state ≠ .sessionLost := by
        intro hstate
        rw [(hv.lost hstate).1] at hfence
        cases hfence
      apply View.guarded_of_owed_eq_nil
      apply List.eq_nil_iff_forall_not_mem.mpr
      rintro ⟨kind, s''⟩ hmem
      obtain ⟨-, -, -, hsent⟩ := hguarded.rest hstate howed hmem
      rw [hcontrol rfl] at hsent
      cases hsent
  | reportAfterLoss _ _ hstate => exact hlost _ hstate
  | reportLosing => exact hlost _ rfl
  | _ => exact ⟨hguarded.owed, hguarded.once⟩

/-- The fence stays around a command to destroy if it is not released while one is owed. -/
theorem Step.doomed (hv : v.Sound size) (hdoomed : v.Doomed) (h : Step size v label w)
    (hrelease : label = .laneRelease ∨ label = .controlRelease → v.destroySent = false) :
  w.Doomed
  := by
  have hlost : ∀ u : View, u.state = .sessionLost → u.Doomed :=
    fun u hstate _ _ hne => (hne hstate).elim
  have hfenced : v.inFlight = true → v.state ≠ .sessionLost := by
    intro hfence hstate
    rw [(hv.lost hstate).1] at hfence
    cases hfence
  cases h with
  | opened h =>
      intro s hmem _
      apply hdoomed s hmem
      rw [hv.connecting.mpr (.inr h)]
      nofun
  | openFailed h =>
      intro s hmem _
      apply hdoomed s hmem
      rw [hv.connecting.mpr (.inr h)]
      nofun
  | start h hstate =>
      intro s hmem _
      apply hdoomed s hmem
      rw [hstate]
      nofun
  | finishLosing => exact hlost _ rfl
  | finishIdle h hstate =>
      intro s hmem _
      apply hdoomed s hmem hstate
  | finishReleasing h hstate =>
      intro s hmem _
      have hsent := (hdoomed s hmem hstate).2
      rw [hrelease (.inl rfl)] at hsent
      cases hsent
  | beginClose h hfence hstate =>
      intro s hmem _
      apply hdoomed s hmem (ConsoleSessionState.isActive_iff.mp hstate).2.1
  | endClose h =>
      intro s hmem _
      apply hdoomed s hmem
      rw [hv.closing.mpr ⟨_, h⟩]
      nofun
  | @beginCancel s hfence hs =>
      intro s' hmem _
      obtain hmem | hmem := List.mem_append.mp hmem
      · have hstate : v.state ≠ .sessionLost := by
          obtain h | h | h := hv.state_of_current hs <;> simp [h]
        have hinFlight := (hdoomed s' hmem hstate).1
        rw [hfence] at hinFlight
        cases hinFlight
      · cases List.mem_singleton.mp hmem
  | sendDestroy hfence => exact fun s hmem _ => ⟨hfence, rfl⟩
  | reportIgnored howed =>
      intro s hmem
      apply hdoomed s
      rw [howed]
      exact List.mem_cons_of_mem _ hmem
  | reportCancel howed =>
      intro s hmem
      apply hdoomed s
      rw [howed]
      exact List.mem_cons_of_mem _ hmem
  | reportReleasing howed _ hfence =>
      intro s hmem _
      have hsent := (hdoomed s (by rw [howed]; exact List.mem_cons_of_mem _ hmem)
        (hfenced hfence)).2
      rw [hrelease (.inr rfl)] at hsent
      cases hsent
  | reportAfterLoss _ _ hstate => exact hlost _ hstate
  | reportLosing => exact hlost _ rfl
  | _ => exact hdoomed

/-- The report of a command to destroy finds the session lost, or loses it. -/
theorem Step.lost_of_destroyed (hv : v.Sound size) (hdoomed : v.Doomed) (h : Step size v label w)
    {s : Text} (howed : v.owed = (.destroy, s) :: w.owed) :
  w.state = .sessionLost
  := by
  cases h with
  | reportIgnored _ hfenced =>
      -- without a fence the session is lost already
      by_contra hstate
      have hinFlight := (hdoomed s (by rw [howed]; exact List.mem_cons_self) hstate).1
      obtain ⟨-, s', hs', -⟩ := hv.fence hinFlight
      cases hfenced.symm.trans hs'
  | reportCancel howed' => cases howed.symm.trans howed'
  | reportReleasing howed' => cases howed.symm.trans howed'
  | reportAfterLoss _ _ hstate => exact hstate
  | reportLosing => rfl
  | beginCancel =>
      have hlength := congrArg List.length howed
      simp at hlength
      omega
  | sendDestroy =>
      have hlength := congrArg List.length howed
      simp at hlength
      omega
  | _ =>
      have hlength := congrArg List.length howed
      simp at hlength

end Machine

/-! ### Runs in which the fence holds -/

/-- The lane has executed a statement, and the connection is not lost. -/
def LanePoint.finishes : LanePoint → Bool
  | .finishing _ outcome => outcome.connectionLost = false
  | _ => false

/-- The command a control lane is about to report. -/
def ControlPoint.reports : ControlPoint → Option ControlCommand
  | .reporting command _ => some command
  | _ => none

/-- The lane, when it goes on, releases the fence around the statement it has executed. -/
def SessionRuntime.LaneReleases (runtime : SessionRuntime) : Prop :=
  runtime.cancelInFlight = true
    ∧ (runtime.cancelConfirmed = true ∨ runtime.cancelControlDone = true)
    ∧ runtime.lane.finishes = true

/-- The report of a command to cancel releases the fence. -/
def SessionRuntime.ControlReleases (runtime : SessionRuntime) : Prop :=
  runtime.cancelInFlight = true
    ∧ ∃ statement ∈ runtime.cancelStatementId.bind runtime.statements.get?,
      runtime.cancelConfirmed = true ∨ statement.state.IsTerminal

/-- A condition holds of every session whose fence the action releases. -/
def SessionBroker.OnRelease (lane control : SessionRuntime → Prop) (b : SessionBroker) :
    Action → Prop
  | .lane k _ _ => ∀ runtime ∈ b.sessions.get? k, runtime.LaneReleases → lane runtime
  | .control d _ _ => ∀ lane ∈ b.controls.get? d, ∀ command ∈ lane.point.reports,
      command.kind = .cancel → ∀ runtime ∈ b.sessions.get? command.sessionId,
      runtime.ControlReleases → control runtime
  | _ => True

/-- The fence is released only when every command that was posted for it has been reported: the
command to cancel, and no command to destroy was sent. -/
def SessionBroker.KeepsFence : SessionBroker → Action → Prop :=
  SessionBroker.OnRelease
    (fun runtime => runtime.cancelControlDone = true ∧ runtime.cancelDestroySent = false)
    (fun runtime => runtime.cancelDestroySent = false)

/-- The fence is not released once a command to destroy was sent for it. -/
def SessionBroker.AwaitsDestroy : SessionBroker → Action → Prop :=
  SessionBroker.OnRelease (fun runtime => runtime.cancelDestroySent = false)
    (fun runtime => runtime.cancelDestroySent = false)

section Decidable

variable {lane control : SessionRuntime → Prop}

instance (runtime : SessionRuntime) : Decidable runtime.LaneReleases :=
  inferInstanceAs (Decidable (_ ∧ _))

instance (runtime : SessionRuntime) : Decidable runtime.ControlReleases :=
  inferInstanceAs (Decidable (_ ∧ ∃ _ ∈ _, _))

instance [DecidablePred lane] [DecidablePred control] (b : SessionBroker) :
    (action : Action) → Decidable (b.OnRelease lane control action)
  | .lane _ _ _ => inferInstanceAs (Decidable (∀ _ ∈ _, _))
  | .control _ _ _ => inferInstanceAs (Decidable (∀ _ ∈ _, _))
  | .attachEnter _ => inferInstanceAs (Decidable True)
  | .attachSerial _ _ _ => inferInstanceAs (Decidable True)
  | .attachControl _ _ => inferInstanceAs (Decidable True)
  | .attachReady _ => inferInstanceAs (Decidable True)
  | .attachTimeout => inferInstanceAs (Decidable True)
  | .submit _ _ _ _ => inferInstanceAs (Decidable True)
  | .cancel _ _ _ => inferInstanceAs (Decidable True)
  | .close _ _ _ _ => inferInstanceAs (Decidable True)
  | .timer _ => inferInstanceAs (Decidable True)
  | .shutdown _ => inferInstanceAs (Decidable True)
  | .stopControl _ => inferInstanceAs (Decidable True)
  | .restart _ _ => inferInstanceAs (Decidable True)

instance (b : SessionBroker) (action : Action) : Decidable (b.KeepsFence action) :=
  inferInstanceAs (Decidable (b.OnRelease _ _ action))

instance (b : SessionBroker) (action : Action) : Decidable (b.AwaitsDestroy action) :=
  inferInstanceAs (Decidable (b.OnRelease _ _ action))

end Decidable

/-- When a control lane executes a command, no statement of its session is being executed but the
one it was made for. -/
def SessionBroker.FenceHeld (b : SessionBroker) : Prop :=
  ∀ d control command runtime s statement, b.controls.get? d = some control →
    control.point = .running command → b.sessions.get? command.sessionId = some runtime →
    runtime.statements.get? s = some statement → statement.state.IsInFlight →
    s = command.statementId

section Registry

variable {config : BrokerConfig} {b b' : SessionBroker} {action : Action} {k : Text}
  {runtime : SessionRuntime} {w : View}

/-- A lane that releases the fence is about to do so. -/
theorem Step.laneReleases {size : ℕ} (h : Step size (b.focus runtime).view .laneRelease w) :
  runtime.LaneReleases
  := by
  cases h with
  | finishReleasing hlane hstate hlost hfence hdone =>
      refine ⟨hfence, hdone, ?_⟩
      rw [show runtime.lane = _ from hlane, LanePoint.finishes, decide_eq_true_eq]
      apply hlost

/-- A report that releases the fence is one of a command to cancel. -/
theorem Step.controlReleases {size : ℕ} (hv : (b.focus runtime).view.Sound size)
    (h : Step size (b.focus runtime).view .controlRelease w) {command : ControlKind × Text}
    (howed : (b.focus runtime).view.owed = command :: w.owed) :
  command.1 = .cancel ∧ runtime.ControlReleases
  := by
  cases h with
  | @reportReleasing s s' rest howed' hfenced hfence hdone =>
      obtain rfl := (List.cons.inj (howed.symm.trans howed')).1
      refine ⟨rfl, hfence, ?_⟩
      -- the statement in the fence is known
      have hknown : ∃ statement, runtime.statements.get? s = some statement := by
        have hsome : (b.focus runtime).view.statements s ≠ none := by
          obtain hcurrent | hended := hv.fenced s hfenced
          · obtain hs | hs := (hv.inFlight_iff s).mpr hcurrent
            · simp [hs]
            · simp [hs]
          · exact hended.1
        obtain ⟨x, hx⟩ := Option.ne_none_iff_exists'.mp hsome
        obtain ⟨statement, hs, -⟩ := Option.map_eq_some_iff.mp hx
        exact ⟨statement, hs⟩
      obtain ⟨statement, hs⟩ := hknown
      have hstate : (b.focus runtime).view.statements s = some statement.state := by
        show statesOf runtime.statements s = _
        rw [statesOf, hs]
        rfl
      refine ⟨statement, ?_, hdone.imp id ?_⟩
      · rw [show runtime.cancelStatementId = some s from hfenced, Option.bind_some]
        exact hs
      rintro ⟨-, haccepted, hinFlight⟩
      rw [View.InFlight, hstate, not_or] at hinFlight
      rw [hstate] at haccepted
      rw [ConsoleStatementState.isTerminal_iff]
      refine ⟨?_, ?_, ?_⟩
      · rintro heq
        exact haccepted (congrArg some heq)
      · rintro heq
        exact hinFlight.1 (congrArg some heq)
      · rintro heq
        exact hinFlight.2 (congrArg some heq)

/-- A path of plain steps keeps what plain steps keep. -/
theorem Moves.invariant {size : ℕ} {P : View → Prop} {v w : View} (h : Moves size v w)
    (hP : ∀ v w, v.Sound size → P v → Step size v .plain w → P w) (hsound : v.Sound size)
    (hv : P v) :
  P w
  := by
  have hboth : w.Sound size ∧ P w := by
    have hpath := h.path
    clear h
    induction hpath with
    | refl => exact ⟨hsound, hv⟩
    | tail _ hstep ih => exact ⟨hstep.sound ih.1, hP _ _ ih.1 ih.2 hstep⟩
  apply hboth.2

/-- How the steps of a session bear on a property of it that depends on when the fence is
released. -/
theorem Bears.invariant {P : View → Prop} {lane control : SessionRuntime → Prop}
    (hb : b.Sound config) (hk : b.sessions.get? k = some runtime)
    (h : Bears config b action k (b.focus runtime).view w)
    (haction : b.OnRelease lane control action)
    (hplain : ∀ v w, v.Sound config.mailboxSize → P v → Step config.mailboxSize v .plain w → P w)
    (hstep : ∀ label, P (b.focus runtime).view →
      Step config.mailboxSize (b.focus runtime).view label w →
      (label = .laneRelease → lane runtime) → (label = .controlRelease → control runtime) → P w)
    (hv : P (b.focus runtime).view) :
  P w
  := by
  have hsound := hb.view k runtime hk
  cases h with
  | moves _ h => apply h.invariant hplain hsound hv
  | lane hlabel _ _ h =>
      apply hstep _ hv h
      · rintro rfl
        apply haction runtime hk h.laneReleases
      · rintro rfl
        exact hlabel.elim
  | control hd hpoint hlabel howed h =>
      apply hstep _ hv h
      · rintro rfl
        exact hlabel.elim
      · rintro rfl
        obtain ⟨hkind, hreleases⟩ := h.controlReleases hsound howed
        apply haction _ hd _ (by rw [hpoint]; rfl) hkind runtime hk hreleases
  | start _ h => apply hplain _ _ hsound hv h

/-- The command a control lane executes is owed to its session. -/
theorem SessionBroker.Sound.owed_of_running (hb : b.Sound config) {d : Text} {control : ControlLane}
    {command : ControlCommand} (hd : b.controls.get? d = some control)
    (hpoint : control.point = .running command)
    (hk : b.sessions.get? command.sessionId = some runtime) :
  (command.kind, command.statementId) ∈ (b.focus runtime).view.owed
  := by
  have hmem : command ∈ control.commands := by
    rw [ControlLane.commands, hpoint]
    exact List.mem_append_left _ (List.mem_singleton.mpr rfl)
  obtain ⟨runtime', hk', hds⟩ := hb.commands d control command hd hmem
  obtain rfl := Option.some.inj (hk.symm.trans hk')
  show _ ∈ owedIn b.controls runtime.session.datasourceId runtime.session.id
  rw [owedIn, hds, hd, hb.id _ runtime hk, Option.map_some, Option.getD_some, ControlLane.owedTo]
  apply List.mem_map.mpr
  refine ⟨command, List.mem_filter.mpr ⟨hmem, ?_⟩, rfl⟩
  rw [ControlCommand.isFor, decide_eq_true_eq]

/-- A sound registry whose sessions are guarded holds the fence. -/
theorem SessionBroker.Sound.fenceHeld (hb : b.Sound config) (hguarded : b.All View.Guarded) :
  b.FenceHeld
  := by
  intro d control command runtime s statement hd hpoint hk hs hinFlight
  have hv := hb.view _ runtime hk
  have hcurrent : runtime.currentStatementId = some s := by
    apply (hv.inFlight_iff s).mp
    have hstate : (b.focus runtime).view.statements s = some statement.state := by
      show statesOf runtime.statements s = _
      rw [statesOf, hs]
      rfl
    rw [View.InFlight, hstate]
    exact (ConsoleStatementState.isInFlight_iff.mp hinFlight).imp (congrArg some) (congrArg some)
  have hstate : (b.focus runtime).view.state ≠ .sessionLost := by
    intro hstate
    cases hcurrent.symm.trans (hv.lost hstate).2.2
  obtain ⟨hfence, hfenced, -⟩ := (hguarded _ runtime hk).owed _ _
    (hb.owed_of_running hd hpoint hk) hstate
  obtain ⟨-, s', hs', hnone | hsome⟩ := hv.fence hfence
  · cases hcurrent.symm.trans hnone
  · rw [Option.some.inj (hcurrent.symm.trans hsome), ← Option.some.inj (hfenced.symm.trans hs')]

/-- In every run in which the fence is released only when every command posted for it has been
reported, a control command meets the statement it was made for, and no other. -/
theorem fence_held (h : ((brokerSystem config).restrict SessionBroker.KeepsFence).Reachable b) :
  b.FenceHeld
  := by
  have hboth : b.Sound config ∧ b.All View.Guarded := by
    apply h.invariant
    · rintro b ⟨bootId, rfl⟩
      refine ⟨initial_sound config bootId, ?_⟩
      intro k runtime hk
      cases (Dict.get?_empty k).symm.trans hk
    · rintro b action b' ⟨hb, hall⟩ ⟨hstep, hkeeps⟩
      refine ⟨step_sound hb hstep, ?_⟩
      apply (becomes_of_step hb hstep).all (View.guarded_of_owed_eq_nil rfl) _ hall
      intro k runtime w hk hbears hguarded
      apply hbears.invariant hb hk hkeeps _ _ hguarded
      · intro v w hv hguarded hstep
        apply hstep.guarded hv hguarded nofun nofun
      · intro label hguarded hstep hlane hcontrol
        apply hstep.guarded (hb.view k runtime hk) hguarded hlane hcontrol
  apply hboth.1.fenceHeld hboth.2

end Registry

/-- A statement is cancelled; the command to cancel is executed, but the statement does not
end. -/
def cancelledStatement : List Action :=
  oneStatement ++
    [.submit (requestOf "2".toList) "2".toList (some "r".toList) 0,
     .cancel "1".toList 1 0,
     .control "d".toList .proceed 0,
     .control "d".toList (.executed false) 0,
     .control "d".toList .proceed 0]

/-- The cancellation is not over in time, and the command to destroy is being executed. -/
def escalatedCancel : List Action :=
  cancelledStatement ++ [.timer 5000000, .control "d".toList .proceed 0]

theorem fence_held_escalatedCancel :
  ∃ b, runWith {} SessionBroker.KeepsFence "b".toList escalatedCancel = some b
    ∧ (b.controls.get? "d".toList).map ControlLane.point
      = some (.running ⟨.destroy, "s".toList, "1".toList⟩)
    ∧ b.FenceHeld
  := by
  obtain ⟨b, hb⟩ := Option.isSome_iff_exists.mp (by decide +kernel :
    (runWith {} SessionBroker.KeepsFence "b".toList escalatedCancel).isSome = true)
  have hseen : (runWith {} SessionBroker.KeepsFence "b".toList escalatedCancel).map (fun b =>
      (b.controls.get? "d".toList).map ControlLane.point)
      = some (some (.running ⟨.destroy, "s".toList, "1".toList⟩)) := by
    decide +kernel
  rw [hb] at hseen
  exact ⟨b, hb, Option.some.inj hseen, fence_held (reachable_of_runWith hb)⟩

/-- The command to destroy is posted, the statement ends with a confirmed cancellation, the fence
is released, and the next statement is started before the command is executed. -/
def brokenFence : List Action :=
  cancelledStatement ++
    [.timer 5000000,
     .lane "s".toList (.raised (some ⟨[], { category := .cancelled, serverConfirmed := true }⟩)) 0,
     .lane "s".toList (.pinged true) 0,
     .lane "s".toList .proceed 0,
     .control "d".toList .proceed 0,
     .lane "s".toList .proceed 0,
     .lane "s".toList .proceed 0,
     .lane "s".toList .proceed 0,
     .lane "s".toList .proceed 0,
     .lane "s".toList .proceed 0]

theorem not_fenceHeld_brokenFence :
  ∃ b, runOf {} "b".toList brokenFence = some b ∧ (brokerSystem {}).Reachable b ∧ ¬ b.FenceHeld
  := by
  obtain ⟨b, hb⟩ := Option.isSome_iff_exists.mp
    (by decide +kernel : (runOf {} "b".toList brokenFence).isSome = true)
  have hcontrol : (runOf {} "b".toList brokenFence).bind (fun b =>
      (b.controls.get? "d".toList).map ControlLane.point)
      = some (.running ⟨.destroy, "s".toList, "1".toList⟩) := by
    decide +kernel
  have hstatement : (runOf {} "b".toList brokenFence).bind (fun b =>
      (b.sessions.get? "s".toList).bind (fun runtime =>
        (runtime.statements.get? "2".toList).map ConsoleStatement.state)) = some .executing := by
    decide +kernel
  rw [hb, Option.bind_some] at hcontrol hstatement
  obtain ⟨control, hd, hpoint⟩ := Option.map_eq_some_iff.mp hcontrol
  obtain ⟨runtime, hk, hs⟩ := Option.bind_eq_some_iff.mp hstatement
  obtain ⟨statement, hs, hstate⟩ := Option.map_eq_some_iff.mp hs
  refine ⟨b, hb, reachable_of_runOf hb, ?_⟩
  intro hheld
  have heq := hheld "d".toList control _ runtime "2".toList statement hd hpoint hk hs
    (by rw [hstate]; decide)
  revert heq
  decide

/-! ### Sessions that were destroyed -/

section Destroyed

variable {config : BrokerConfig} {b b' : SessionBroker} {action : Action}

/-- What an action destroys. -/
theorem Becomes.destroyed (h : Becomes config b action b') :
  b'.history.destroyed = b.history.destroyed
    ∨ ∃ d now control command failed, action = .control d .proceed now
      ∧ b.controls.get? d = some control ∧ control.point = .reporting command failed
      ∧ command.kind = .destroy
      ∧ b'.history.destroyed = b.history.destroyed ++ [command.sessionId]
      ∧ Evolves config (Bears config b action) b b'
  := by
  cases h with
  | goesOn h hleaves =>
      rw [hleaves.history]
      show (b.historyAfter action).destroyed = _ ∨ ∃ d now control command failed, _ ∧ _ ∧ _ ∧ _
        ∧ (b.historyAfter action).destroyed = _ ∧ _
      cases action with
      | control d input now =>
          rw [SessionBroker.historyAfter]
          cases hd : b.controls.get? d with
          | none => exact .inl rfl
          | some control =>
              dsimp only
              unfold ControlLane.historyAfter
              split
              · rename_i command failed hpoint
                cases hkind : command.kind with
                | cancel =>
                    left
                    rw [History.report, hkind]
                | destroy =>
                    refine .inr ⟨d, now, control, command, failed, rfl, hd, hpoint, hkind, ?_, h⟩
                    rw [History.report, hkind]
              · exact .inl rfl
      | lane k input now =>
          left
          rw [SessionBroker.historyAfter]
          split
          · rfl
          · rfl
      | _ => exact .inl rfl
  | attaches h hattach =>
      left
      cases hattach with
      | awaits _ hcontrol =>
          obtain rfl | rfl := hcontrol
          · rfl
          · rfl
      | _ => rfl
  | creates => exact .inl rfl
  | restarts => exact .inl rfl

/-- A session of the store that is not active. -/
def SessionBroker.Inactive (b : SessionBroker) (k : Text) : Prop :=
  ∃ session, b.store.sessions.get? k = some session ∧ ¬ session.state.IsActive

theorem Becomes.inactive (hb : b.Sound config) (h : Becomes config b action b') {k : Text}
    (hk : b.Inactive k) :
  b'.Inactive k
  := by
  obtain ⟨session, hk, hactive⟩ := hk
  obtain ⟨session', hk', hstays⟩ := h.exists_session hb hk
  exact ⟨session', hk', fun hactive' => hactive (hstays hactive')⟩

/-- A session that is destroyed becomes inactive. -/
theorem Becomes.inactive_of_destroyed (hb : b.Sound config) (hdoomed : b.All View.Doomed)
    (h : Becomes config b action b') (hdestroyed : ∀ k ∈ b.history.destroyed, b.Inactive k) :
  ∀ k ∈ b'.history.destroyed, b'.Inactive k
  := by
  obtain hsame | ⟨d, now, control, command, failed, rfl, hd, hpoint, hkind, hmore, hevolves⟩ :=
    h.destroyed
  · rw [hsame]
    intro k hk
    apply h.inactive hb (hdestroyed k hk)
  · rw [hmore]
    intro k hk
    obtain hk | hk := List.mem_append.mp hk
    · apply h.inactive hb (hdestroyed k hk)
    · rw [List.mem_singleton.mp hk]
      obtain ⟨runtime, hruntime, -⟩ := hb.commands d control command hd (by
        rw [ControlLane.commands, hpoint]
        exact List.mem_append_left _ (List.mem_singleton.mpr rfl))
      obtain ⟨runtime', hruntime', -, -, hbears⟩ := hevolves.sessions _ runtime hruntime
      refine ⟨runtime'.session, hevolves.sound.stored hruntime', ?_⟩
      have hlost : runtime'.session.state = .sessionLost := by
        generalize hk : command.sessionId = k at hbears
        cases hbears with
        | moves hidle =>
            exact (hidle (.inr ⟨d, now, control, command, failed, rfl, hd, hpoint, hk⟩)).elim
        | @control _ _ control' command' failed' _ _ _ hd' hpoint' _ howed hstep =>
            obtain rfl := Option.some.inj (hd.symm.trans hd')
            cases hpoint.symm.trans hpoint'
            rw [hkind] at howed
            exact hstep.lost_of_destroyed (hb.view _ runtime hruntime) (hdoomed _ runtime hruntime)
              howed
      rw [hlost]
      decide

/-- A submission to a session that is not active finds a statement that was submitted before, or
is refused; nothing is changed. -/
theorem submit_of_inactive {request : SubmitRequest} {statementId : Text}
    {resultSetId : Option Text} {now : ℤ} (hb : b.Sound config)
    (hinactive : b.Inactive request.sessionId) :
  Ensures (submit config request statementId resultSetId now) b
    (fun receipt b' => receipt.deduplicated = true ∧ b' = b) (fun _ b' => b' = b)
  := by
  obtain ⟨session, hsession, hactive⟩ := hinactive
  simp only [submit, validateSubmit, requireRuntime, requireEpoch, ensures_bind, ensures_when,
    ensures_throw, ensures_get]
  refine ⟨fun _ => trivial, fun _ => ⟨fun _ => trivial, fun _ => ⟨fun _ => trivial, fun _ => ?_⟩⟩⟩
  cases hk : b.sessions.get? request.sessionId with
  | none => rfl
  | some runtime =>
      obtain rfl := Option.some.inj (hsession.symm.trans (hb.stored hk))
      rw [demand_some, ensures_pure]
      refine ⟨fun _ => rfl, fun _ => ?_⟩
      cases hrequest : runtime.requests.get? request.clientRequestId with
      | some replayId =>
          obtain ⟨statement, hs, -⟩ := (hb.requested _ _ hk).known _ _ hrequest
          have hs' : runtime.statements.get? replayId = some statement := hs
          dsimp only
          rw [ensures_bind, hs', demand_some, ensures_pure]
          exact ⟨rfl, rfl⟩
      | none =>
          rw [if_pos (.inr hactive), ensures_throw]

/-- In every run in which the fence is not released once a command to destroy was sent for it: a
session for which a command to destroy was executed and reported is not active, and a submission
to it does not reach it. -/
theorem destroyed_inactive
    (h : ((brokerSystem config).restrict SessionBroker.AwaitsDestroy).Reachable b) :
  ∀ k ∈ b.history.destroyed, b.Inactive k
    ∧ ∀ request statementId resultSetId now, request.sessionId = k →
      Ensures (submit config request statementId resultSetId now) b
        (fun receipt b' => receipt.deduplicated = true ∧ b' = b) (fun _ b' => b' = b)
  := by
  have hall : b.Sound config ∧ b.All View.Doomed ∧ ∀ k ∈ b.history.destroyed, b.Inactive k := by
    apply h.invariant
    · rintro b ⟨bootId, rfl⟩
      refine ⟨initial_sound config bootId, ?_, nofun⟩
      intro k runtime hk
      cases (Dict.get?_empty k).symm.trans hk
    · rintro b action b' ⟨hb, hdoomed, hdestroyed⟩ ⟨hstep, hawaits⟩
      have hbecomes := becomes_of_step hb hstep
      refine ⟨step_sound hb hstep, ?_, hbecomes.inactive_of_destroyed hb hdoomed hdestroyed⟩
      apply hbecomes.all nofun _ hdoomed
      intro k runtime w hk hbears hdoomed
      apply hbears.invariant hb hk hawaits _ _ hdoomed
      · intro v w hv hdoomed hstep
        apply hstep.doomed hv hdoomed nofun
      · intro label hdoomed hstep hlane hcontrol
        apply hstep.doomed (hb.view k runtime hk) hdoomed
        rintro (hlabel | hlabel)
        · apply hlane hlabel
        · apply hcontrol hlabel
  obtain ⟨hb, -, hdestroyed⟩ := hall
  intro k hk
  refine ⟨hdestroyed k hk, ?_⟩
  rintro request statementId resultSetId now rfl
  apply submit_of_inactive hb (hdestroyed _ hk)

end Destroyed

theorem destroyed_inactive_escalatedCancel :
  ∃ b, runWith {} SessionBroker.AwaitsDestroy "b".toList (escalatedCancel ++
      [.control "d".toList (.executed false) 0, .control "d".toList .proceed 0]) = some b
    ∧ b.history.destroyed = ["s".toList] ∧ b.Inactive "s".toList
  := by
  obtain ⟨b, hb⟩ := Option.isSome_iff_exists.mp (by decide +kernel :
    (runWith {} SessionBroker.AwaitsDestroy "b".toList (escalatedCancel ++
      [.control "d".toList (.executed false) 0, .control "d".toList .proceed 0])).isSome = true)
  have hseen : (runWith {} SessionBroker.AwaitsDestroy "b".toList (escalatedCancel ++
      [.control "d".toList (.executed false) 0, .control "d".toList .proceed 0])).map
      (fun b => b.history.destroyed) = some ["s".toList] := by
    decide +kernel
  rw [hb] at hseen
  have hdestroyed : b.history.destroyed = ["s".toList] := Option.some.inj hseen
  refine ⟨b, hb, hdestroyed, ?_⟩
  apply (destroyed_inactive (reachable_of_runWith hb) _ _).1
  rw [hdestroyed]
  exact List.mem_singleton.mpr rfl

/-- The command to destroy is executed and reported, and the session goes on to execute the next
statement and to accept others. -/
theorem destroyed_active_brokenFence :
  ∃ b, runOf {} "b".toList (brokenFence ++
      [.control "d".toList (.executed false) 0, .control "d".toList .proceed 0]) = some b
    ∧ (brokerSystem {}).Reachable b ∧ b.history.destroyed = ["s".toList]
    ∧ ¬ b.Inactive "s".toList
    ∧ raised ((submit {} (requestOf "3".toList) "3".toList (some "r".toList) 0).run b) = none
  := by
  obtain ⟨b, hb⟩ := Option.isSome_iff_exists.mp (by decide +kernel :
    (runOf {} "b".toList (brokenFence ++
      [.control "d".toList (.executed false) 0, .control "d".toList .proceed 0])).isSome = true)
  have hseen : (runOf {} "b".toList (brokenFence ++
      [.control "d".toList (.executed false) 0, .control "d".toList .proceed 0])).map (fun b =>
        (b.history.destroyed, (b.store.sessions.get? "s".toList).map ConsoleSession.state,
          raised ((submit {} (requestOf "3".toList) "3".toList (some "r".toList) 0).run b)))
      = some (["s".toList], some .executing, none) := by
    decide +kernel
  rw [hb] at hseen
  obtain ⟨hdestroyed, hseen⟩ := Prod.mk.inj (Option.some.inj hseen)
  obtain ⟨hstate, hraised⟩ := Prod.mk.inj hseen
  refine ⟨b, hb, reachable_of_runOf hb, hdestroyed, ?_, hraised⟩
  rintro ⟨session, hsession, hinactive⟩
  rw [hsession] at hstate
  have hexecuting : session.state = .executing := Option.some.inj hstate
  rw [hexecuting] at hinactive
  exact hinactive (by decide)

end Broker

import DataOpsStudio.Broker.Fence

/-!
# Statements that are left behind

A statement that is accepted waits in the mailbox of its session.  A session that is closed has
executed its statements first.  A session that is given up leaves the statements that wait as
they are, and so does the sweep of a broker that starts; if none waits then, every statement of a
session that is not active has come to an end.
-/

namespace Broker

open Text Program

/-! ### The machine of a session -/

/-- Nothing comes after a command to close. -/
def ClosesLast : List LaneCommand → Prop
  | [] => True
  | .execute _ :: rest => ClosesLast rest
  | .close _ :: rest => rest = []

/-- No statement waits to be started. -/
def View.Drained (v : View) : Prop := ∀ s, v.statements s ≠ some .accepted

/-- The statements that wait are in the mailbox of an active session, and the lane does not close
the session before it is through with them. -/
structure View.Tidy (v : View) : Prop where
  settled : ¬ v.state.IsActive → v.Drained
  queued : ∀ s, v.statements s = some .accepted → .execute s ∈ v.mailbox ∨ v.lane.taken = some s
  last : ClosesLast v.mailbox
  closing : v.lane.IsClosing → v.mailbox = []

theorem closesLast_append {mailbox : List LaneCommand} (command : LaneCommand)
    (h : ∀ r, .close r ∉ mailbox) :
  ClosesLast (mailbox ++ [command])
  := by
  induction mailbox with
  | nil =>
      cases command with
      | execute s => trivial
      | close r => rfl
  | cons first rest ih =>
      cases first with
      | execute s =>
          apply ih
          intro r hmem
          exact h r (List.mem_cons_of_mem _ hmem)
      | close r => exact (h r List.mem_cons_self).elim

section Machine

variable {size : ℕ} {v w : View} {label : Label}

theorem View.tidy_initial :
  ({} : View).Tidy
  := by
  constructor
  · intro _ s
    nofun
  · nofun
  · trivial
  · nofun

theorem Step.closesLast (hv : v.Sound size) (h : Step size v label w) (hlast : ClosesLast v.mailbox) :
  ClosesLast w.mailbox
  := by
  cases h with
  | takeExecute _ hmail =>
      rw [hmail] at hlast
      apply hlast
  | takeClose _ _ hmail =>
      rw [hmail] at hlast
      rw [show _ = ([] : List LaneCommand) from hlast]
      trivial
  | accept haccepting => apply closesLast_append _ (hv.accepting haccepting).2.1
  | putClose r haccepting => apply closesLast_append _ (hv.accepting haccepting).2.1
  | _ => exact hlast

theorem Step.mailbox_of_isClosing (hv : v.Sound size) (h : Step size v label w)
    (hlast : ClosesLast v.mailbox) (hclosing : v.lane.IsClosing → v.mailbox = []) :
  w.lane.IsClosing → w.mailbox = []
  := by
  cases h with
  | takeClose _ _ hmail =>
      rw [hmail] at hlast
      intro _
      exact hlast
  | checkClose _ _ hmail =>
      intro _
      exact hmail
  | beginClose h =>
      intro _
      apply hclosing
      rw [h]
      trivial
  | accept haccepting =>
      intro hlane
      exact ((hv.accepting haccepting).2.2.1 hlane).elim
  | putClose r haccepting =>
      intro hlane
      exact ((hv.accepting haccepting).2.2.1 hlane).elim
  | _ => first | exact hclosing | exact False.elim

theorem Step.queued (hv : v.Sound size) (h : Step size v label w)
    (hsettled : ¬ v.state.IsActive → v.Drained)
    (hqueued : ∀ s, v.statements s = some .accepted →
      .execute s ∈ v.mailbox ∨ v.lane.taken = some s) :
  ∀ s, w.statements s = some .accepted → .execute s ∈ w.mailbox ∨ w.lane.taken = some s
  := by
  rw [View.Drained] at hsettled
  have houtcome := hv.outcome
  cases h <;> grind

/-- A statement that comes to an end does not wait. -/
theorem View.Drained.put (h : v.Drained) {s : Text} {x : ConsoleStatementState}
    (hx : x ≠ .accepted) :
  ∀ s', v.put s x s' ≠ some .accepted
  := by
  intro s'
  rw [View.put_apply]
  split
  · simpa using hx
  · apply h s'

theorem Step.settled (hv : v.Sound size) (htidy : v.Tidy) (h : Step size v label w)
    (hlose : label = .laneLose ∨ label = .controlLose → v.Drained) :
  ¬ w.state.IsActive → w.Drained
  := by
  obtain ⟨hsettled, hqueued, -, hclosing⟩ := htidy
  cases h with
  | openFailed =>
      intro _
      exact hlose (.inl rfl)
  | finishLosing hlane =>
      intro _
      apply (hlose (.inl rfl)).put
      exact (ConsoleStatementState.isTerminal_iff.mp (hv.outcome _ _ hlane).2).1
  | finishFenced hlane =>
      intro hstate
      apply (hsettled hstate).put
      exact (ConsoleStatementState.isTerminal_iff.mp (hv.outcome _ _ hlane).2).1
  | reportLosing x _ _ _ hx =>
      intro _
      apply (hlose (.inr rfl)).put
      obtain ⟨-, hterminal⟩ | ⟨-, rfl | rfl⟩ := hx
      · exact (ConsoleStatementState.isTerminal_iff.mp hterminal).1
      · nofun
      · nofun
  | endClose hlane =>
      -- the lane is through with the mailbox
      intro _ s hs
      obtain hmem | htaken := hqueued s hs
      · rw [hclosing (by rw [hlane]; trivial)] at hmem
        cases hmem
      · rw [hlane] at htaken
        cases htaken
  | accept _ hactive =>
      intro hnot
      exact (hnot hactive).elim
  | _ =>
      rw [View.Drained] at hsettled ⊢
      grind

/-- A session stays tidy if no statement waits when it is given up. -/
theorem Step.tidy (hv : v.Sound size) (htidy : v.Tidy) (h : Step size v label w)
    (hlose : label = .laneLose ∨ label = .controlLose → v.Drained) :
  w.Tidy
  := by
  constructor
  · apply h.settled hv htidy hlose
  · apply h.queued hv htidy.settled htidy.queued
  · apply h.closesLast hv htidy.last
  · apply h.mailbox_of_isClosing hv htidy.last htidy.closing

/-- The statements of a session that is not active have come to an end. -/
theorem View.Tidy.ended (hv : v.Sound size) (htidy : v.Tidy) (hstate : ¬ v.state.IsActive)
    {s : Text} {x : ConsoleStatementState} (hx : v.statements s = some x) :
  x.IsTerminal
  := by
  have hcurrent : v.current = none := by
    by_contra hne
    obtain ⟨s', hs'⟩ := Option.ne_none_iff_exists'.mp hne
    apply hstate
    obtain h | h | h := hv.state_of_current hs'
    all_goals
      rw [h]
      decide
  have hflight : ¬ v.InFlight s := by
    rw [hv.inFlight_iff, hcurrent]
    nofun
  have haccepted := htidy.settled hstate s
  rw [View.InFlight, hx, not_or] at hflight
  rw [hx] at haccepted
  rw [ConsoleStatementState.isTerminal_iff]
  refine ⟨?_, ?_, ?_⟩
  · rintro rfl
    exact haccepted rfl
  · rintro rfl
    exact hflight.1 rfl
  · rintro rfl
    exact hflight.2 rfl

end Machine

/-! ### Runs that leave no statement behind -/

/-- The lane gives the session up when it goes on: the connection cannot be opened, or it is
lost. -/
def SessionRuntime.laneLoses (runtime : SessionRuntime) (input : LaneInput) : Bool :=
  match runtime.lane, input with
  | .opening, .openFailed _ => true
  | .finishing _ outcome, _ => outcome.connectionLost
  | _, _ => false

/-- The report of a command to destroy gives the session up. -/
def SessionRuntime.ControlLoses (runtime : SessionRuntime) : Prop :=
  runtime.cancelStatementId ≠ none ∧ runtime.session.state ≠ .sessionLost

/-- No statement of the session waits to be started. -/
def SessionRuntime.Drained (runtime : SessionRuntime) : Prop :=
  ∀ statement ∈ runtime.statements.values, statement.state ≠ .accepted

/-- No statement waits to be started in a session that the action gives up. -/
def SessionBroker.LosesDrained (b : SessionBroker) : Action → Prop
  | .lane k input _ => ∀ runtime ∈ b.sessions.get? k, runtime.laneLoses input = true →
      runtime.Drained
  | .control d _ _ => ∀ lane ∈ b.controls.get? d, ∀ command ∈ lane.point.reports,
      command.kind = .destroy → ∀ runtime ∈ b.sessions.get? command.sessionId,
      runtime.ControlLoses → runtime.Drained
  | .restart bootId _ => ∀ statement ∈ b.store.statements.values, statement.state = .accepted →
      ∀ session ∈ b.store.sessions.get? statement.sessionId,
      ¬ MemoryBrokerStore.IsStale bootId session
  | _ => True

/-- The lane has nothing left to do. -/
def SessionRuntime.IsThrough (runtime : SessionRuntime) : Prop :=
  runtime.lane = .exited ∨ runtime.lane = .waiting ∧ runtime.mailbox = []

/-- If a session is not active and its lane, if it has one, has nothing left to do, then every
statement of the session has come to an end. -/
def SessionBroker.NoOrphans (b : SessionBroker) : Prop :=
  ∀ k session s statement, b.store.sessions.get? k = some session → ¬ session.state.IsActive →
    (∀ runtime, b.sessions.get? k = some runtime → runtime.IsThrough) →
    b.store.statements.get? s = some statement → statement.sessionId = k →
    statement.state.IsTerminal

/-- Every statement of a session that is not active has come to an end. -/
def SessionBroker.Settled (b : SessionBroker) : Prop :=
  ∀ s statement session, b.store.statements.get? s = some statement →
    b.store.sessions.get? statement.sessionId = some session → ¬ session.state.IsActive →
    statement.state.IsTerminal

section Decidable

instance (runtime : SessionRuntime) : Decidable runtime.ControlLoses :=
  inferInstanceAs (Decidable (_ ∧ _))

instance (runtime : SessionRuntime) : Decidable runtime.Drained :=
  inferInstanceAs (Decidable (∀ _ ∈ _, _))

instance (b : SessionBroker) : (action : Action) → Decidable (b.LosesDrained action)
  | .lane _ _ _ => inferInstanceAs (Decidable (∀ _ ∈ _, _))
  | .control _ _ _ => inferInstanceAs (Decidable (∀ _ ∈ _, _))
  | .restart _ _ => inferInstanceAs (Decidable (∀ _ ∈ _, _))
  | .attachEnter _ => inferInstanceAs (Decidable True)
  | .attachSerial _ _ _ => inferInstanceAs (Decidable True)
  | .attachControl _ _ => inferInstanceAs (Decidable True)
  | .attachReady _ => inferInstanceAs (Decidable True)
  | .attachTimeout => inferInstanceAs (Decidable True)
  | .submit _ _ _ _ => inferInstanceAs (Decidable True)
  | .cancel _ _ _ => inferInstanceAs (Decidable True)
  | .close _ _ _ _ => inferInstanceAs (Decidable True)
  | .timer _ => inferInstanceAs (Decidable True)
  | .shutdown _ => inferInstanceAs (Decidable True)
  | .stopControl _ => inferInstanceAs (Decidable True)

end Decidable

section Registry

variable {config : BrokerConfig} {b b' : SessionBroker} {action : Action} {k : Text}
  {runtime : SessionRuntime} {w : View}

theorem SessionRuntime.Drained.view (h : runtime.Drained) :
  (b.focus runtime).view.Drained
  := by
  intro s hs
  obtain ⟨statement, hstatement, hstate⟩ := Option.map_eq_some_iff.mp hs
  exact h statement (Dict.mem_values_iff.mpr ⟨s, hstatement⟩) hstate

/-- A session stays tidy if no statement waits when it is given up. -/
theorem Bears.tidy (hb : b.Sound config) (hk : b.sessions.get? k = some runtime)
    (h : Bears config b action k (b.focus runtime).view w) (haction : b.LosesDrained action)
    (htidy : (b.focus runtime).view.Tidy) :
  w.Tidy
  := by
  have hsound := hb.view k runtime hk
  cases h with
  | moves _ h =>
      apply h.invariant _ hsound htidy
      intro v w hv htidy hstep
      apply hstep.tidy hv htidy nofun
  | lane hlabel _ hopen h =>
      apply h.tidy hsound htidy
      rintro (rfl | rfl)
      · apply SessionRuntime.Drained.view
        apply haction runtime hk
        unfold SessionRuntime.laneLoses
        cases h with
        | openFailed hlane =>
            obtain ⟨code, rfl⟩ | hidle := hopen hlane
            · rw [show runtime.lane = _ from hlane]
            · cases hidle
        | finishLosing hlane _ hlost =>
            rw [show runtime.lane = _ from hlane]
            exact hlost
      · exact hlabel.elim
  | control hd hpoint hlabel howed h =>
      apply h.tidy hsound htidy
      rintro (rfl | rfl)
      · exact hlabel.elim
      · apply SessionRuntime.Drained.view
        cases h with
        | reportLosing x howed' hfenced hstate =>
            obtain ⟨hkind, -⟩ := Prod.mk.inj (List.cons.inj (howed.symm.trans howed')).1
            apply haction _ hd _ (by rw [hpoint]; rfl) hkind runtime hk
            refine ⟨?_, hstate⟩
            rw [show runtime.cancelStatementId = _ from hfenced]
            nofun
  | start _ h => apply h.tidy hsound htidy nofun

/-- A statement that has come to an end is not changed by a sweep. -/
theorem sweepStatement_of_isTerminal {store : MemoryBrokerStore} {bootId : Text} {now : ℤ}
    {statement : ConsoleStatement} (h : statement.state.IsTerminal) :
  (MemoryBrokerStore.sweepStatement store bootId now statement).state.IsTerminal
  := by
  rw [(sweepStatement_edge store bootId now).eq_of_isTerminal h]
  apply h

/-- A sweep leaves no statement behind if none waits. -/
theorem restarted_settled {bootId : Text} {now : ℤ} (hsettled : b.Settled)
    (haction : b.LosesDrained (.restart bootId now)) :
  (b.restarted bootId now).Settled
  := by
  intro s statement session hs hsession hstate
  obtain ⟨old, hold, rfl⟩ := restarted_statement hs
  rw [(sweepStatement_same b.store bootId now old).sessionId] at hsession
  obtain ⟨oldSession, holdSession, rfl⟩ := restarted_session hsession
  by_cases hstale : MemoryBrokerStore.IsStale bootId oldSession
  · by_cases hflight : old.state.IsInFlight
    · rw [MemoryBrokerStore.sweepStatement, if_pos ⟨⟨oldSession, holdSession, hstale⟩, hflight⟩]
      obtain hend | hend := MemoryBrokerStore.unobserved_eq old
      all_goals
        dsimp only
        rw [hend]
        decide
    · apply sweepStatement_of_isTerminal
      rw [ConsoleStatementState.isInFlight_iff, not_or] at hflight
      rw [ConsoleStatementState.isTerminal_iff]
      refine ⟨?_, hflight⟩
      intro haccepted
      exact haction old (Dict.mem_values_iff.mpr ⟨s, hold⟩) haccepted oldSession holdSession hstale
  · apply sweepStatement_of_isTerminal
    apply hsettled s old oldSession hold holdSession
    rw [MemoryBrokerStore.sweepSession, if_neg hstale] at hstate
    apply hstate

/-- Every action that gives up only sessions in which no statement waits leaves none behind. -/
theorem Becomes.settled (hb : b.Sound config) (hb' : b'.Sound config)
    (h : Becomes config b action b') (haction : b.LosesDrained action) (htidy : b'.All View.Tidy)
    (hsettled : b.Settled) :
  b'.Settled
  := by
  intro s statement session hs hsession hstate
  cases hk : b'.sessions.get? statement.sessionId with
  | some runtime =>
      obtain rfl := Option.some.inj (hsession.symm.trans (hb'.stored hk))
      apply (htidy _ runtime hk).ended (hb'.view _ runtime hk) hstate (s := s)
      show statesOf runtime.statements s = _
      rw [statesOf, (hb'.mirrored hk).mpr ⟨hs, rfl⟩]
      rfl
  | none =>
      -- the statement belongs to a session outside the registry, which stays as it was
      have hforeign : b.store.statements.get? s = some statement →
          (∀ session, b.store.sessions.get? statement.sessionId = some session →
            b'.store.sessions.get? statement.sessionId = some session) →
          statement.state.IsTerminal := by
        intro hs₀ hkept
        obtain ⟨session₀, hsession₀⟩ := Option.isSome_iff_exists.mp (hb.store.owned s statement hs₀)
        obtain rfl := Option.some.inj (hsession.symm.trans (hkept session₀ hsession₀))
        apply hsettled s statement session hs₀ hsession₀ hstate
      have hevolves : Evolves config (Bears config b action) b b' → statement.state.IsTerminal := by
        intro h
        have hnone := h.get?_eq_none.mp hk
        apply hforeign
        · exact (h.foreignStatements s statement hnone).mp hs
        · intro session₀ hsession₀
          apply h.foreignSessions _ session₀ hnone hsession₀
      cases h with
      | goesOn h => apply hevolves h
      | attaches h => apply hevolves h
      | creates _ h =>
          rw [h.foreignStatements] at hs
          apply hforeign hs
          intro session₀ hsession₀
          apply h.foreignSessions _ session₀ hsession₀
      | restarts heq =>
          subst heq
          apply restarted_settled hsettled haction s statement session hs hsession hstate

/-- In every run in which no statement waits when its session is given up (because the connection
cannot be opened or is lost, because it is destroyed, or in the sweep of a broker that starts), no
statement is left behind. -/
theorem no_orphans (h : ((brokerSystem config).restrict SessionBroker.LosesDrained).Reachable b) :
  b.NoOrphans
  := by
  have hall : b.Sound config ∧ b.All View.Tidy ∧ b.Settled := by
    apply h.invariant
    · rintro b ⟨bootId, rfl⟩
      refine ⟨initial_sound config bootId, ?_, ?_⟩
      · intro k runtime hk
        cases (Dict.get?_empty k).symm.trans hk
      · intro s statement session hs
        cases (Dict.get?_empty s).symm.trans hs
    · rintro b action b' ⟨hb, htidy, hsettled⟩ ⟨hstep, hdrained⟩
      have hbecomes := becomes_of_step hb hstep
      have hb' := step_sound hb hstep
      have htidy' : b'.All View.Tidy := by
        apply hbecomes.all View.tidy_initial _ htidy
        intro k runtime w hk hbears hview
        apply hbears.tidy hb hk hdrained hview
      exact ⟨hb', htidy', hbecomes.settled hb hb' hdrained htidy' hsettled⟩
  rintro k session s statement hsession hstate - hs rfl
  apply hall.2.2 s statement session hs hsession hstate

end Registry

/-- The statement comes to its end, the session is closed, and the broker is started again. -/
def closedSession : List Action :=
  oneStatement ++
    [.lane "s".toList .returned 0,
     .lane "s".toList .returned 0,
     .lane "s".toList .proceed 0,
     .lane "s".toList .proceed 0,
     .close "s".toList 1 "user".toList 0,
     .lane "s".toList .proceed 0,
     .lane "s".toList .proceed 0,
     .lane "s".toList .proceed 0,
     .restart "c".toList 0]

theorem no_orphans_closedSession :
  ∃ b, runWith {} SessionBroker.LosesDrained "b".toList closedSession = some b
    ∧ (b.store.sessions.get? "s".toList).map ConsoleSession.state = some .closed
    ∧ b.NoOrphans
  := by
  obtain ⟨b, hb⟩ := Option.isSome_iff_exists.mp (by rfl :
    (runWith {} SessionBroker.LosesDrained "b".toList closedSession).isSome = true)
  have hseen : (runWith {} SessionBroker.LosesDrained "b".toList closedSession).map (fun b =>
      (b.store.sessions.get? "s".toList).map ConsoleSession.state) = some (some .closed) := by
    rfl
  rw [hb] at hseen
  exact ⟨b, hb, Option.some.inj hseen, no_orphans (reachable_of_runWith hb)⟩

/-- A statement is submitted while the connection is being opened, and it cannot be opened. -/
def failedOpen : List Action :=
  [.attachEnter ⟨"c".toList, "d".toList, "u".toList⟩,
   .attachSerial "s".toList false 0,
   .attachControl false false,
   .control "d".toList (.opened (some .available)) 0,
   .attachReady false,
   .submit (requestOf "1".toList) "1".toList (some "r".toList) 0,
   .lane "s".toList (.openFailed "auth_failed".toList) 0]

theorem not_noOrphans_failedOpen :
  ∃ b, runOf {} "b".toList failedOpen = some b ∧ (brokerSystem {}).Reachable b ∧ ¬ b.NoOrphans
  := by
  obtain ⟨b, hb⟩ := Option.isSome_iff_exists.mp
    (by rfl : (runOf {} "b".toList failedOpen).isSome = true)
  have hseen : (runOf {} "b".toList failedOpen).map (fun b =>
      ((b.store.sessions.get? "s".toList).map ConsoleSession.state,
        (b.store.statements.get? "1".toList).map (fun statement =>
          (statement.sessionId, statement.state)),
        (b.sessions.get? "s".toList).map SessionRuntime.lane))
      = some (some .connectFailed, some ("s".toList, .accepted), some .exited) := by
    rfl
  rw [hb] at hseen
  obtain ⟨hsession, hseen⟩ := Prod.mk.inj (Option.some.inj hseen)
  obtain ⟨hstatement, hlane⟩ := Prod.mk.inj hseen
  obtain ⟨session, hsession, hstate⟩ := Option.map_eq_some_iff.mp hsession
  obtain ⟨statement, hs, hstatement⟩ := Option.map_eq_some_iff.mp hstatement
  obtain ⟨hown, haccepted⟩ := Prod.mk.inj hstatement
  refine ⟨b, hb, reachable_of_runOf hb, ?_⟩
  intro hnone
  have hterminal := hnone "s".toList session "1".toList statement hsession
    (by rw [hstate]; decide)
    (by
      intro runtime hk
      rw [hk] at hlane
      exact .inl (Option.some.inj hlane))
    hs hown
  rw [haccepted] at hterminal
  revert hterminal
  decide

end Broker

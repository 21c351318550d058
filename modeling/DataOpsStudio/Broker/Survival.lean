import DataOpsStudio.Broker.Harmless
import DataOpsStudio.Broker.Limits

/-!
# Lanes that survive

A lane survives if it always goes on: it comes back to its mailbox after finitely many steps,
ends only with its session, and leaves no statement behind that is being executed.  Where only
writes without harm raise every lane survives, and every statement that is accepted is in the
mailbox.
-/

namespace Broker

open Text Program

/-- How many steps there are at most before the lane is back at its mailbox, or at its end. -/
def LanePoint.remaining : LanePoint → ℕ
  | .dequeued _ => 10
  | .fenced _ => 9
  | .preparing _ => 8
  | .executing _ => 7
  | .draining _ => 6
  | .handling _ _ => 5
  | .finishing _ _ => 4
  | .checking => 3
  | .closeFenced _ => 2
  | .closing _ => 1
  | .opening => 1
  | .waiting => 0
  | .unstarted => 0
  | .exited => 0

/-- The points from which a lane may come to its end. -/
def LanePoint.IsLast : LanePoint → Prop
  | .opening => True
  | .closeFenced _ => True
  | .closing _ => True
  | _ => False

/-- What a step of the lane of a session that survives leads to. -/
structure SessionRuntime.GoesOn (runtime runtime' : SessionRuntime) : Prop where
  /-- The lane comes closer to its mailbox, or to its end. -/
  lowers : runtime.lane = .waiting ∨ runtime'.lane.remaining < runtime.lane.remaining
  /-- The lane ends only with the session. -/
  ends : runtime'.lane = .exited → runtime.lane.IsLast ∧ ¬ runtime'.session.state.IsActive
  /-- A statement that the lane leaves has come to an end in memory. -/
  finishes : ∀ s, runtime.lane.running = some s → runtime'.lane.running = some s
    ∨ ∃ statement, runtime'.statements.get? s = some statement ∧ statement.state.IsTerminal
  /-- A session is closed once its lane has closed the connection. -/
  closes : (∃ r, runtime.lane = .closing r) → runtime'.session.state = .closed

/-- The lane waits for a command, or for a fence. -/
def SessionRuntime.Waits (runtime : SessionRuntime) : Prop :=
  runtime.lane = .waiting ∧ runtime.mailbox = []
    ∨ runtime.Fenced ∧ ((∃ s, runtime.lane = .fenced s) ∨ ∃ r, runtime.lane = .closeFenced r)

/-- Every lane of a broker survives what may raise. -/
structure SessionBroker.Survives (config : BrokerConfig) (fine : Attempt → Prop)
    (b : SessionBroker) : Prop where
  /-- A statement that is being executed is executed by its lane. -/
  executed : ∀ k runtime, b.sessions.get? k = some runtime → ∀ s statement,
    runtime.statements.get? s = some statement → statement.state.IsInFlight →
    runtime.lane.running = some s
  /-- A lane that has been started and is not at its end can go on, or waits. -/
  proceeds : ∀ k runtime, b.sessions.get? k = some runtime → runtime.lane ≠ .unstarted →
    runtime.lane ≠ .exited → runtime.Waits
      ∨ ∃ input, ∀ fails now, (b.attempt config ⟨.lane k input now, fails⟩).isSome = true
  /-- A lane that goes on survives. -/
  goesOn : ∀ k runtime, b.sessions.get? k = some runtime → ∀ input now fails b',
    fine ⟨.lane k input now, fails⟩ → b.attempt config ⟨.lane k input now, fails⟩ = some b' →
    ∃ runtime', b'.sessions.get? k = some runtime' ∧ runtime.GoesOn runtime'
  /-- To submit leaves no statement accepted without a command in the mailbox. -/
  submits : ∀ request statementId resultSetId now fails b',
    fine ⟨.submit request statementId resultSetId now, fails⟩ →
    b.attempt config ⟨.submit request statementId resultSetId now, fails⟩ = some b' →
    ∀ k runtime', b'.sessions.get? k = some runtime' → ∀ s statement',
      runtime'.statements.get? s = some statement' → statement'.state = .accepted →
      .execute s ∈ runtime'.mailbox
        ∨ ∃ runtime statement, b.sessions.get? k = some runtime
          ∧ runtime.statements.get? s = some statement ∧ statement.state = .accepted

/-! ### Where a lane goes -/

/-- A lane that survives may go from one point to the other. -/
def LanePoint.Leads (point next : LanePoint) : Prop :=
  (point = .waiting ∨ next.remaining < point.remaining) ∧ (next = .exited → point.IsLast)

section Reaches

variable {P : LanePoint → Prop} {config : BrokerConfig} {now : ℤ}

/-- A program that does not raise leaves the lane at such a point. -/
def Reaches (P : LanePoint → Prop) (m : SessionM Unit) : Prop :=
  ∀ c, Ensures m c (fun _ c' => P c'.runtime.lane) (fun _ _ => True)

theorem reaches_bind {α : Type} {m : SessionM α} {f : α → SessionM Unit}
    (h : ∀ a, Reaches P (f a)) :
  Reaches P (m >>= f)
  := by
  intro c
  rw [ensures_bind]
  apply (ensures_stateOf m c).mono
  · intro a c' _
    apply h a c'
  · intro e c' _
    trivial

theorem reaches_ite {p : Prop} [Decidable p] {m n : SessionM Unit} (hm : Reaches P m)
    (hn : Reaches P n) :
  Reaches P (if p then m else n)
  := by
  split
  · apply hm
  · apply hn

theorem reaches_setLane {point : LanePoint} (h : P point) :
  Reaches P (setLane point)
  := fun _ => h

theorem reaches_modifyRuntime {f : SessionRuntime → SessionRuntime}
    (h : ∀ runtime, P (f runtime).lane) :
  Reaches P (modifyRuntime f)
  := fun c => h c.runtime

theorem executeStatementStart_reaches {s : Text} (hskip : P .checking) (hstart : P (.preparing s)) :
  Reaches P (executeStatementStart s now)
  := by
  have hchecking : Reaches P (setLane .checking) := reaches_setLane hskip
  apply reaches_bind
  intro _
  apply reaches_bind
  intro _
  apply reaches_ite hchecking
  apply reaches_ite hchecking
  iterate 8
    apply reaches_bind
    intro _
  apply reaches_setLane hstart

theorem executeStatementHandle_reaches {s : Text} (error : Option InteractiveExecuteError)
    (alive : Bool) (h : ∀ outcome, P (.finishing s outcome)) :
  Reaches P (executeStatementHandle s error alive)
  := by
  have hend : ∀ outcome, Reaches P (setLane (.finishing s outcome)) :=
    fun outcome => reaches_setLane (h outcome)
  apply reaches_bind
  intro statement
  cases error with
  | none => apply hend
  | some raised =>
      apply reaches_ite (hend _)
      apply reaches_ite (hend _)
      apply reaches_ite
      · apply reaches_bind
        intro _
        apply reaches_bind
        intro _
        apply hend
      · apply reaches_ite (hend _) (hend _)

theorem executeStatementFinish_reaches {s : Text} {outcome : StatementEnd} (h : P .checking) :
  Reaches P (executeStatementFinish config s outcome now)
  := by
  iterate 9
    apply reaches_bind
    intro _
  apply reaches_setLane h

theorem closeIfPendingAndDrained_reaches (hwaiting : P .waiting)
    (hclose : ∀ reason, P (.closeFenced reason)) :
  Reaches P closeIfPendingAndDrained
  := by
  apply reaches_bind
  intro c
  dsimp only
  split
  · apply reaches_setLane hwaiting
  · apply reaches_ite
    · apply reaches_modifyRuntime
      intro _
      apply hclose
    · apply reaches_setLane hwaiting

theorem laneGet_reaches {runtime : SessionRuntime} {m : SessionM Unit}
    (hget : laneGet runtime = some m) (hexecute : ∀ s, P (.dequeued s))
    (hclose : ∀ reason, P (.closeFenced reason)) :
  Reaches P m
  := by
  rw [laneGet] at hget
  split at hget
  · cases hget
  · obtain rfl := Option.some.inj hget
    apply reaches_modifyRuntime
    intro _
    apply hexecute
  · obtain rfl := Option.some.inj hget
    apply reaches_modifyRuntime
    intro _
    apply hclose

/-- Whatever a lane does next leads it to a point to which one that survives may go. -/
theorem laneNext_reaches {runtime : SessionRuntime} {input : LaneInput} {m : SessionM Unit}
    (hnext : laneNext config runtime input now = some m) :
  Reaches runtime.lane.Leads m
  := by
  unfold laneNext at hnext
  split at hnext
  case h_1 marker hlane =>
    obtain rfl := Option.some.inj hnext
    rw [hlane]
    iterate 5
      apply reaches_bind
      intro _
    apply reaches_setLane
    exact ⟨.inr Nat.zero_lt_one, nofun⟩
  case h_2 code hlane =>
    obtain rfl := Option.some.inj hnext
    rw [hlane]
    iterate 2
      apply reaches_bind
      intro _
    apply reaches_setLane
    exact ⟨.inr Nat.zero_lt_one, fun _ => trivial⟩
  case h_3 hlane =>
    rw [hlane]
    apply laneGet_reaches hnext
    · intro s
      exact ⟨.inl rfl, nofun⟩
    · intro reason
      exact ⟨.inl rfl, nofun⟩
  case h_4 s hlane =>
    obtain rfl := Option.some.inj hnext
    rw [hlane]
    apply reaches_modifyRuntime
    intro _
    exact ⟨.inr (Nat.lt_succ_self 9), nofun⟩
  case h_5 s hlane =>
    split at hnext
    · cases hnext
    · obtain rfl := Option.some.inj hnext
      rw [hlane]
      apply executeStatementStart_reaches
      · exact ⟨.inr (by decide : 3 < 9), nofun⟩
      · exact ⟨.inr (Nat.lt_succ_self 8), nofun⟩
  case h_6 s hlane =>
    obtain rfl := Option.some.inj hnext
    rw [hlane]
    apply reaches_setLane
    exact ⟨.inr (Nat.lt_succ_self 7), nofun⟩
  case h_7 s hlane =>
    obtain rfl := Option.some.inj hnext
    rw [hlane]
    apply reaches_setLane
    exact ⟨.inr (by decide : 5 < 8), nofun⟩
  case h_8 s hlane =>
    obtain rfl := Option.some.inj hnext
    rw [hlane]
    iterate 2
      apply reaches_bind
      intro _
    apply reaches_setLane
    exact ⟨.inr (Nat.lt_succ_self 6), nofun⟩
  case h_9 s error hlane =>
    obtain rfl := Option.some.inj hnext
    rw [hlane]
    apply reaches_setLane
    exact ⟨.inr (by decide : 5 < 7), nofun⟩
  case h_10 s hlane =>
    obtain rfl := Option.some.inj hnext
    rw [hlane]
    apply reaches_setLane
    exact ⟨.inr (by decide : 4 < 6), nofun⟩
  case h_11 s error hlane =>
    obtain rfl := Option.some.inj hnext
    rw [hlane]
    apply reaches_setLane
    exact ⟨.inr (Nat.lt_succ_self 5), nofun⟩
  case h_12 s error alive hlane =>
    obtain rfl := Option.some.inj hnext
    rw [hlane]
    apply executeStatementHandle_reaches
    intro outcome
    exact ⟨.inr (Nat.lt_succ_self 4), nofun⟩
  case h_13 s outcome hlane =>
    obtain rfl := Option.some.inj hnext
    rw [hlane]
    apply executeStatementFinish_reaches
    exact ⟨.inr (Nat.lt_succ_self 3), nofun⟩
  case h_14 hlane =>
    obtain rfl := Option.some.inj hnext
    rw [hlane]
    apply closeIfPendingAndDrained_reaches
    · exact ⟨.inr (by decide : 0 < 3), nofun⟩
    · intro reason
      exact ⟨.inr (Nat.lt_succ_self 2), nofun⟩
  case h_15 reason hlane =>
    split at hnext
    · cases hnext
    · obtain rfl := Option.some.inj hnext
      rw [hlane]
      apply reaches_bind
      intro _
      apply reaches_ite
      · apply reaches_setLane
        exact ⟨.inr (by decide : 0 < 2), fun _ => trivial⟩
      · apply reaches_bind
        intro _
        apply reaches_setLane
        exact ⟨.inr (Nat.lt_succ_self 1), nofun⟩
  case h_16 reason hlane =>
    obtain rfl := Option.some.inj hnext
    rw [hlane]
    iterate 5
      apply reaches_bind
      intro _
    apply reaches_setLane
    exact ⟨.inr Nat.zero_lt_one, fun _ => trivial⟩
  case h_17 => cases hnext

end Reaches

/-! ### What a step leaves -/

section Step

variable {size : ℕ} {v w : View} {label : Label} {s : Text}

/-- A statement that a lane leaves has come to an end. -/
theorem Step.ended_of_left (hv : v.Sound size) (h : Step size v label w)
    (hrunning : v.lane.running = some s) (hleft : w.lane.running ≠ some s) :
  ∃ x, w.statements s = some x ∧ x.IsTerminal
  := by
  have hw := h.sound hv
  have hknown : v.statements s ≠ none ∧ v.statements s ≠ some .accepted := by
    obtain hcurrent | ⟨-, hended⟩ := hv.current s hrunning
    · obtain hs | hs := (hv.inFlight_iff s).mpr hcurrent
      all_goals
        rw [hs]
        exact ⟨nofun, by decide⟩
    · exact ⟨hended.1, hended.2.1⟩
  obtain ⟨x, hx⟩ := Option.ne_none_iff_exists'.mp hknown.1
  obtain ⟨y, hy, hedge⟩ := h.statementEdge hv hx
  refine ⟨y, hy, ?_⟩
  have hnot : ¬ w.InFlight s := by
    intro hinFlight
    apply hleft
    apply hw.running
    apply (hw.inFlight_iff s).mp hinFlight
  rw [View.InFlight, hy, not_or, Option.some.injEq, Option.some.injEq] at hnot
  rw [ConsoleStatementState.isTerminal_iff]
  refine ⟨?_, hnot⟩
  rintro rfl
  apply hknown.2
  rw [hx, hedge.eq_of_accepted]

/-- A lane that leaves the point at which the connection is closed has closed the session. -/
theorem Step.closed_of_left {r : Text} (h : Step size v label w) (hlane : v.lane = .closing r)
    (hleft : w.lane ≠ v.lane) :
  w.state = .closed
  := by
  cases h <;> simp_all

/-- A new statement that has been accepted is in the mailbox. -/
theorem Step.queued_of_new (hv : v.Sound size) (h : Step size v label w)
    (hnone : v.statements s = none) (hs : w.statements s = some .accepted) :
  .execute s ∈ w.mailbox
  := by
  have houtcome := hv.outcome
  cases h <;> grind

/-- A statement that is accepted has been so before, or is in the mailbox. -/
theorem Moves.queued (hv : v.Sound size) (h : Moves size v w)
    (hs : w.statements s = some .accepted) :
  v.statements s = some .accepted ∨ .execute s ∈ w.mailbox
  := by
  obtain ⟨u, hu, hpath⟩ := h
  have hrest : u.statements s = some .accepted ∧ ∀ command ∈ u.mailbox, command ∈ w.mailbox := by
    clear hu
    induction hpath with
    | refl => exact ⟨hs, fun _ h => h⟩
    | tail _ hquiet ih =>
        obtain hsame | ⟨-, hcancelled⟩ := hquiet.statements s
        · obtain ⟨hu, hmail⟩ := ih (hsame.symm.trans hs)
          refine ⟨hu, ?_⟩
          intro command hcommand
          have hmem := hmail command hcommand
          cases hquiet with
          | putClose => exact List.mem_append_left _ hmem
          | _ => exact hmem
        · cases hs.symm.trans hcancelled
  obtain ⟨hu', hmail⟩ := hrest
  obtain rfl | ⟨hstep, -⟩ := hu
  · exact .inl hu'
  · cases hx : v.statements s with
    | none =>
        right
        apply hmail
        apply hstep.queued_of_new hv hx hu'
    | some x =>
        left
        obtain ⟨y, hy, hedge⟩ := hstep.statementEdge hv hx
        obtain rfl := Option.some.inj (hy.symm.trans hu')
        rw [hedge.eq_of_accepted]

end Step

/-! ### Lanes that only writes without harm fail -/

section Survives

variable {config : BrokerConfig} {b b' : SessionBroker}

/-- A lane that has been started and is not at its end can go on, or waits, whatever raises. -/
theorem exists_proceeding {k : Text} {runtime : SessionRuntime}
    (hk : b.sessions.get? k = some runtime) (hstarted : runtime.lane ≠ .unstarted)
    (hexited : runtime.lane ≠ .exited) :
  runtime.Waits ∨ ∃ input, ∀ fails now,
    (b.attempt config ⟨.lane k input now, fails⟩).isSome = true
  := by
  have hgoes : ∀ input, (∀ (fails : Outage) now,
      (fails.laneNext config runtime input now).isSome = true) →
      runtime.Waits ∨ ∃ input, ∀ fails now,
        (b.attempt config ⟨.lane k input now, fails⟩).isSome = true := by
    intro input hinput
    refine .inr ⟨input, ?_⟩
    intro fails now
    rw [SessionBroker.attempt, if_pos (show Action.Fresh b (.lane k input now) from trivial),
      Option.isSome_map]
    show (fails.laneStep config b k input now).isSome = true
    rw [Outage.laneStep, hk, Option.bind_some, Option.isSome_map]
    apply hinput
  cases hlane : runtime.lane with
  | unstarted => exact (hstarted hlane).elim
  | exited => exact (hexited hlane).elim
  | waiting =>
      cases hmail : runtime.mailbox with
      | nil => exact .inl (.inl ⟨hlane, hmail⟩)
      | cons command rest =>
          apply hgoes .proceed
          intro fails now
          cases command <;> simp [Outage.laneNext, laneNext, laneGet, hlane, hmail]
  | fenced s =>
      by_cases hfence : runtime.Fenced
      · exact .inl (.inr ⟨hfence, .inl ⟨s, hlane⟩⟩)
      · apply hgoes .proceed
        intro fails now
        simp [Outage.laneNext, hlane, hfence]
  | closeFenced reason =>
      by_cases hfence : runtime.Fenced
      · exact .inl (.inr ⟨hfence, .inr ⟨reason, hlane⟩⟩)
      · apply hgoes .proceed
        intro fails now
        simp [Outage.laneNext, hlane, hfence]
  | opening =>
      apply hgoes (.opened [])
      intro fails now
      simp [Outage.laneNext, hlane]
  | executing s =>
      apply hgoes .returned
      intro fails now
      simp [Outage.laneNext, hlane]
  | draining s =>
      apply hgoes .returned
      intro fails now
      simp [Outage.laneNext, hlane]
  | handling s error =>
      apply hgoes (.pinged true)
      intro fails now
      simp [Outage.laneNext, laneNext, hlane]
  | _ =>
      apply hgoes .proceed
      intro fails now
      simp [Outage.laneNext, laneNext, hlane]

/-- A lane goes on if the store does not fail. -/
theorem goesOn_of_step {k : Text} {runtime : SessionRuntime} {input : LaneInput} {now : ℤ}
    (hb : b.Sound config) (hk : b.sessions.get? k = some runtime)
    (hstep : (brokerSystem config).step b (.lane k input now) b') :
  ∃ runtime', b'.sessions.get? k = some runtime' ∧ runtime.GoesOn runtime'
  := by
  obtain ⟨-, m, hm, rfl⟩ := hstep
  have hm' : laneStep config b k input now = some m := hm
  rw [laneStep, hk, Option.bind_some] at hm'
  obtain ⟨next, hnext, rfl⟩ := Option.map_eq_some_iff.mp hm'
  have hwf := hb.wellformed k runtime hk
  have hv := hb.view k runtime hk
  rw [stateOf_laneStep hk]
  refine ⟨_, unfocus_get?_self, ?_⟩
  have hruns : Ensures (onLane next) (b.focus runtime)
      (fun _ c => runtime.lane.Leads c.runtime.lane
        ∧ ∃ label, Step config.mailboxSize (b.focus runtime).view label c.view)
      (fun _ _ => False) := by
    rw [onLane, ensures_onRaise]
    apply ((laneNext_reaches hnext (b.focus runtime)).and
      (laneNext_advances (c := b.focus runtime) hwf hv hnext)).mono
    · rintro _ c ⟨hleads, -, label, -, hstep⟩
      exact ⟨hleads, label, hstep⟩
    · rintro e c ⟨-, hfalse⟩
      apply hfalse
  obtain ⟨⟨hlowers, hlast⟩, label, hstep⟩ := hruns.stateOf_of_ok
  constructor
  · apply hlowers
  · intro hexited
    exact ⟨hlast hexited, (hstep.sound hv).exited hexited⟩
  · intro s hrunning
    by_cases hleft : (stateOf ((onLane next).run (b.focus runtime))).runtime.lane.running = some s
    · exact .inl hleft
    · right
      obtain ⟨x, hx, hterminal⟩ := hstep.ended_of_left hv hrunning hleft
      obtain ⟨statement, hs, rfl⟩ := Option.map_eq_some_iff.mp hx
      exact ⟨statement, hs, hterminal⟩
  · rintro ⟨r, hlane⟩
    apply hstep.closed_of_left hlane
    intro hsame
    have hsame' : (stateOf ((onLane next).run (b.focus runtime))).runtime.lane = runtime.lane :=
      hsame
    rw [hsame', hlane] at hlowers
    simp at hlowers

/-- A statement that is accepted after a client has submitted is in the mailbox, or has been
accepted before. -/
theorem submits_of_sound {request : SubmitRequest} {statementId : Text}
    {resultSetId : Option Text} {now : ℤ} (hb : b.Sound config)
    (hfresh : b.store.statements.get? statementId = none) {k : Text} {runtime' : SessionRuntime}
    (hk : (stateOf ((submit config request statementId resultSetId now).run b)).sessions.get? k
      = some runtime') {s : Text} {statement' : ConsoleStatement}
    (hs : runtime'.statements.get? s = some statement') (hstate : statement'.state = .accepted) :
  .execute s ∈ runtime'.mailbox
    ∨ ∃ runtime statement, b.sessions.get? k = some runtime
      ∧ runtime.statements.get? s = some statement ∧ statement.state = .accepted
  := by
  have hcalm : Calm config b
      (stateOf ((submit config request statementId resultSetId now).run b)) := by
    apply Ensures.stateOf
    apply (submit_calms hb hfresh).mono
    · intro _ c hcalm
      apply hcalm
    · rintro e c ⟨-, hcalm⟩
      apply hcalm
  obtain ⟨runtime, hbefore⟩ := hcalm.1.exists_before hk
  obtain ⟨runtime'', hk'', -, -, hmoves⟩ := hcalm.1.sessions k runtime hbefore
  obtain rfl := Option.some.inj (hk.symm.trans hk'')
  have haccepted : (statesOf runtime'.statements) s = some .accepted := by
    rw [statesOf, hs, Option.map_some, hstate]
  obtain hold | hmail := hmoves.queued (hb.view k runtime hbefore) haccepted
  · right
    obtain ⟨statement, hs, hstate⟩ := Option.map_eq_some_iff.mp hold
    exact ⟨runtime, statement, hbefore, hs, hstate⟩
  · exact .inl hmail

/-- Every lane survives, and every statement that is accepted is in the mailbox, as long as only
writes without harm raise. -/
theorem survives_harmless
    (h : ((failingSystem config).restrict (fun _ attempt => attempt.IsHarmless)).Reachable b) :
  b.Survives config Attempt.IsHarmless
  := by
  obtain ⟨b', hb', halike⟩ := exists_alike h
  have hsound := reachable_sound hb'
  have hsessions : b'.sessions = b.sessions := by rw [halike.memory]
  constructor
  · intro k runtime hk s statement hs hinFlight
    rw [← hsessions] at hk
    have hv := hsound.view k runtime hk
    apply hv.running
    apply (hv.inFlight_iff s).mp
    apply (inFlight_view_iff (c := b'.focus runtime) hs).mpr hinFlight
  · intro k runtime hk hstarted hexited
    apply exists_proceeding hk hstarted hexited
  · intro k runtime hk input now fails c hfails hstep
    obtain ⟨m, hm, rfl⟩ := Option.map_eq_some_iff.mp
      ((if_pos (show Action.Fresh b (.lane k input now) from trivial)).symm.trans hstep)
    have hk' : b'.sessions.get? k = some runtime := by rw [hsessions, hk]
    obtain ⟨c', halike', ⟨input', hstep'⟩ | ⟨s, b₁, runtime', hlane, -, -, hget, hhandling⟩⟩ :=
      laneStep_alike halike hsound hfails hk hm
    · have hsessions' : c'.sessions = (stateOf (m.run b)).sessions := by rw [halike'.memory]
      rw [← hsessions']
      apply goesOn_of_step hsound hk' hstep'
    · have hsessions' : c'.sessions = (stateOf (m.run b)).sessions := by rw [halike'.memory]
      rw [← hsessions']
      refine ⟨runtime', hget, ?_⟩
      constructor
      · rw [hlane, hhandling]
        exact .inr (by decide : 5 < 7)
      · rw [hhandling]
        nofun
      · intro s' hrunning
        rw [hlane] at hrunning
        rw [hhandling]
        exact .inl hrunning
      · rw [hlane]
        nofun
  · intro request statementId resultSetId now fails c hfails hstep k runtime' hk s statement' hs
      hstate
    rw [SessionBroker.attempt] at hstep
    split at hstep
    · rename_i hfresh
      obtain rfl := Option.some.inj hstep
      have hdiscard : stateOf ((discard (fails.submit config request statementId resultSetId
            now)).run b)
          = stateOf ((fails.submit config request statementId resultSetId now).run b) :=
        stateOf_bind_pure _ _ _
      have hk' : (stateOf ((fails.submit config request statementId resultSetId now).run
          b)).sessions.get? k = some runtime' := hdiscard ▸ hk
      rw [← hsessions]
      obtain hsame | hsubmitted := submit_alike halike hsound hfails
      · right
        have hunchanged : b'.sessions.get? k = some runtime' := by rw [hsame.memory, hk']
        exact ⟨runtime', statement', hunchanged, hs, hstate⟩
      · have hk'' : (stateOf ((submit config request statementId resultSetId now).run
            b')).sessions.get? k = some runtime' := by
          rw [hsubmitted.memory]
          apply hk'
        apply submits_of_sound hsound (fresh_alike halike hfresh) hk'' hs hstate
    · cases hstep

end Survives

/-! ### Runs in which writes raise -/

/-- A run from the beginning in which the same writes raise in every action. -/
def failingRun (config : BrokerConfig) (bootId : Text) (fails : Outage) (actions : List Action) :
    Option SessionBroker :=
  actions.foldlM (fun b action => b.attempt config ⟨action, fails⟩) { bootId := bootId }

theorem reachable_of_failingRun {config : BrokerConfig} {bootId : Text} {fails : Outage}
    {actions : List Action} {fine : SessionBroker → Attempt → Prop} {b : SessionBroker}
    (hfine : ∀ b action, fine b ⟨action, fails⟩)
    (h : failingRun config bootId fails actions = some b) :
  ((failingSystem config).restrict fine).Reachable b
  := by
  have hinitial : ((failingSystem config).restrict fine).Reachable { bootId := bootId } :=
    .initial ⟨bootId, rfl⟩
  apply hinitial.later
  apply TransitionSystem.later_of_named _ h
  intro b action b' hnext
  exact ⟨⟨action, fails⟩, hnext, hfine b action⟩

/-- Every write raises that may raise without harm, but the one that makes a statement. -/
def harmlessOutage : Outage := fun site => site ≠ .createStatement ∧ site.IsHarmless

/-- The rows of a statement begin to arrive, and the lane comes back to its mailbox. -/
def statementEnded : List Action :=
  oneStatement ++
    [.lane "s".toList .returned 0,
     .lane "s".toList (.pinged true) 0,
     .lane "s".toList .proceed 0,
     .lane "s".toList .proceed 0]

theorem survives_harmless_statementEnded :
  ∃ b, failingRun {} "b".toList harmlessOutage statementEnded = some b
    ∧ (b.sessions.get? "s".toList).map (fun runtime =>
        (runtime.lane, (runtime.statements.get? "1".toList).map ConsoleStatement.state))
      = some (.waiting, some .failed)
    ∧ b.Survives {} Attempt.IsHarmless
  := by
  obtain ⟨b, hb⟩ := Option.isSome_iff_exists.mp
    (by rfl : (failingRun {} "b".toList harmlessOutage statementEnded).isSome = true)
  have hseen : (failingRun {} "b".toList harmlessOutage statementEnded).map (fun b =>
      (b.sessions.get? "s".toList).map (fun runtime =>
        (runtime.lane, (runtime.statements.get? "1".toList).map ConsoleStatement.state)))
      = some (some (.waiting, some .failed)) := by
    rfl
  rw [hb] at hseen
  refine ⟨b, hb, Option.some.inj hseen, ?_⟩
  apply survives_harmless
  apply reachable_of_failingRun _ hb
  intro _ _ site hsite
  exact (of_decide_eq_true hsite).2

/-- The statement cannot be written when it is started. -/
def startOutage : Outage := fun site => site = .startStatement

/-- The statement cannot be written with its result set. -/
def acceptOutage : Outage := fun site => site = .acceptStatement

/-- A lane has been killed if its statement could not be written when it was started; and a
statement whose result set could not be written is accepted, but there is no command for it. -/
theorem not_survives_startOutage :
  (¬ ∀ b, (failingSystem {}).Reachable b → b.Survives {} (fun _ => True))
    ∧ (failingRun {} "b".toList acceptOutage (oneStatement.take 7)).map (fun b =>
        (b.sessions.get? "s".toList).map (fun runtime =>
          (runtime.mailbox, (runtime.statements.get? "1".toList).map ConsoleStatement.state)))
      = some (some ([], some .accepted))
  := by
  refine ⟨?_, by rfl⟩
  intro hall
  obtain ⟨b, hb⟩ := Option.isSome_iff_exists.mp
    (by rfl : (failingRun {} "b".toList startOutage (oneStatement.take 9)).isSome = true)
  have hseen : (failingRun {} "b".toList startOutage (oneStatement.take 9)).map (fun b =>
      ((b.sessions.get? "s".toList).map SessionRuntime.lane,
        (b.attempt {} ⟨.lane "s".toList .proceed 0, startOutage⟩).map (fun b' =>
          (b'.sessions.get? "s".toList).map SessionRuntime.lane)))
      = some (some (.fenced "1".toList), some (some .exited)) := by
    rfl
  rw [hb] at hseen
  obtain ⟨hbefore, hafter⟩ := Prod.mk.inj (Option.some.inj hseen)
  obtain ⟨runtime, hk, hlane⟩ := Option.map_eq_some_iff.mp hbefore
  obtain ⟨b', hstep, hafter⟩ := Option.map_eq_some_iff.mp hafter
  have hreachable : ((failingSystem {}).restrict (fun _ _ => True)).Reachable b :=
    reachable_of_failingRun (fun _ _ => trivial) hb
  obtain ⟨runtime', hk', hgoesOn⟩ := (hall b hreachable.of_restrict).goesOn _ runtime hk _ _ _ b'
    trivial hstep
  rw [hk'] at hafter
  obtain ⟨hlast, -⟩ := hgoesOn.ends (Option.some.inj hafter)
  rw [hlane] at hlast
  exact hlast

end Broker

import DataOpsStudio.Broker.Limits

/-!
# Attachments that fail

An attachment registers its session before it knows whether the session can be used: the row is
in the store before the connection is made, and the runtime is in the registry before the control
lane is ready and the lane is started.  Nothing takes them back.  If the attachment raises at any
of these points, then the session it has made keeps its place without ever having a lane, and,
unless it was the connection that could not be made, the next attachment of the console returns it.
-/

namespace Broker

open Text Program

/-! ### Sessions without a lane -/

/-- The thread of the lane has been started and has not come to its end. -/
def LanePoint.IsRunning (lane : LanePoint) : Prop :=
  lane ≠ .unstarted ∧ lane ≠ .exited

instance (lane : LanePoint) : Decidable lane.IsRunning :=
  inferInstanceAs (Decidable (_ ∧ _))

/-- A session holds its place in the store or in the registry, and no lane runs for it. -/
def SessionBroker.Stranded (b : SessionBroker) (k : Text) : Prop :=
  ((∃ session ∈ b.store.sessions.get? k, session.state.IsActive)
      ∨ ∃ runtime ∈ b.sessions.get? k, runtime.session.state.IsActive)
    ∧ ∀ runtime ∈ b.sessions.get? k, ¬ runtime.lane.IsRunning

/-- A session without a lane that the next attachment of a console returns, and that counts
toward the limits. -/
def SessionBroker.Occupied (b : SessionBroker) (consoleId k : Text) : Prop :=
  ∃ runtime, b.sessions.get? k = some runtime ∧ runtime.lane = .unstarted
    ∧ b.liveSession consoleId = some runtime ∧ runtime.session ∈ b.activeSessions

/-- The action is a part of the attachment that makes the session `k`. -/
inductive Makes (b : SessionBroker) (request : AttachRequest) (k : Text) : Action → Prop
  | serial {connectionRaises now} (hpoint : b.attaching = some (.entered request))
      (hfresh : b.store.sessions.get? k = none) :
      Makes b request k (.attachSerial k connectionRaises now)
  | control {channelRaises startRaises} (hpoint : b.attaching = some (.created request k)) :
      Makes b request k (.attachControl channelRaises startRaises)
  | ready {storeRaises} (hpoint : b.attaching = some (.awaiting request k)) :
      Makes b request k (.attachReady storeRaises)
  | timeout (hpoint : b.attaching = some (.awaiting request k)) :
      Makes b request k .attachTimeout

/-- The session has been registered when the action begins. -/
def Action.IsLate : Action → Prop
  | .attachControl _ _ => True
  | .attachReady _ => True
  | .attachTimeout => True
  | _ => False

/-- The attachment raises after the row of its session was created, and leaves `b'`. -/
def FailedAttach (config : BrokerConfig) (b : SessionBroker) (action : Action)
    (request : AttachRequest) (k : Text) (b' : SessionBroker) : Prop :=
  Makes b request k action ∧ ∃ m, perform config b action = some m ∧ raised (m.run b) ≠ none
    ∧ b' = stateOf (m.run b) ∧ b'.store.sessions.contains k = true

section Failures

variable {config : BrokerConfig} {b b' : SessionBroker} {action : Action}
  {request : AttachRequest} {k : Text}

/-- A program that raises leaves what it ensures for its exceptions. -/
theorem ensures_of_raised {m : BrokerM Unit} {Q : Unit → SessionBroker → Prop}
    {E : BrokerExn → SessionBroker → Prop} (h : Ensures m b Q E) (hraised : raised (m.run b) ≠ none) :
  ∃ e, E e (stateOf (m.run b))
  := by
  obtain ⟨e, he⟩ := Option.ne_none_iff_exists'.mp hraised
  exact ⟨e, h.of_raised he⟩

/-! ### What a registered session keeps -/

/-- The session is in the registry under its console, and its lane has not been started. -/
def SessionBroker.Registered (b : SessionBroker) (consoleId k : Text) : Prop :=
  b.consoleSessions.get? consoleId = some k
    ∧ ∃ runtime, b.sessions.get? k = some runtime ∧ runtime.lane = .unstarted
      ∧ runtime.session.state.IsActive

/-- A session that is prepared for its lane is registered. -/
theorem SessionBroker.Sound.registered (h : b.Sound config) (hprepared : b.Prepared request k) :
  b.Registered request.consoleId k
  := by
  obtain ⟨runtime, hk, hlane, hconsole, -⟩ := hprepared
  have hstate : runtime.session.state = .connecting :=
    (h.view k runtime hk).connecting.mpr (.inl hlane)
  have hactive : runtime.session.state.IsActive := by
    rw [hstate]
    decide
  refine ⟨?_, runtime, hk, hlane, hactive⟩
  rw [← hconsole]
  apply h.active k runtime hk hactive

/-- A registered session holds its place without a lane. -/
theorem SessionBroker.Registered.stranded {consoleId : Text} (h : b.Registered consoleId k) :
  b.Stranded k
  := by
  obtain ⟨-, runtime, hk, hlane, hactive⟩ := h
  refine ⟨.inr ⟨runtime, hk, hactive⟩, ?_⟩
  intro runtime' hk'
  obtain rfl := Option.some.inj (hk.symm.trans hk')
  rintro ⟨hstarted, -⟩
  apply hstarted hlane

/-- A registered session is the one that its console is attached to. -/
theorem SessionBroker.Registered.occupied {consoleId : Text} (h : b.Registered consoleId k) :
  b.Occupied consoleId k
  := by
  obtain ⟨hconsole, runtime, hk, hlane, hactive⟩ := h
  refine ⟨runtime, hk, hlane, ?_, ?_⟩
  · rw [SessionBroker.liveSession, hconsole, Option.bind_some, hk]
    dsimp only
    rw [if_pos hactive]
  · rw [SessionBroker.activeSessions, List.mem_filter]
    refine ⟨List.mem_map_of_mem (Dict.mem_values_iff.mpr ⟨k, hk⟩), ?_⟩
    apply decide_eq_true hactive

/-! ### The points of failure -/

/-- When the connection cannot be made the row stays in the store. -/
theorem stranded_of_serial {connectionRaises : Bool} {now : ℤ} (h : b.Sound config)
    (hfresh : b.store.sessions.get? k = none)
    (hraised : raised ((onAttach (attachSerial config request k connectionRaises now)).run b) ≠ none)
    (hrow : (stateOf ((onAttach (attachSerial config request k connectionRaises now)).run
      b)).store.sessions.contains k = true) :
  (stateOf ((onAttach (attachSerial config request k connectionRaises now)).run b)).Stranded k
  := by
  have hleft : Ensures (onAttach (attachSerial config request k connectionRaises now)) b
      (fun _ _ => True)
      (fun _ b' => b' = b.attachAt none ∨ b' = (b.withRow request k now).attachAt none) := by
    rw [onAttach, ensures_onRaise, attachSerial, ensures_bind, ensures_get]
    cases hlive : b.liveSession request.consoleId with
    | some runtime =>
        obtain ⟨k', hk', -⟩ := h.exists_of_liveSession hlive
        apply (attachReuse_spec request h hk').mono
        · intro _ _ _
          trivial
        · intro e b' hfalse
          apply hfalse.elim
    | none =>
        apply (attachCreate_spec connectionRaises).mono
        · intro _ _ _
          trivial
        · rintro e b' ⟨-, rfl | rfl⟩
          · exact .inl rfl
          · exact .inr rfl
  obtain ⟨e, hleft | hleft⟩ := ensures_of_raised hleft hraised
  · rw [hleft, Dict.contains] at hrow
    rw [show (b.attachAt none).store.sessions.get? k = none from hfresh] at hrow
    cases hrow
  · have hactive : ConsoleSessionState.connecting.IsActive := by
      decide
    rw [hleft]
    refine ⟨.inl ⟨b.newSession request k now, Dict.get?_set_self _ _ _, hactive⟩, ?_⟩
    intro runtime hk
    cases (h.get?_eq_none hfresh).symm.trans hk

/-- When the control lane cannot be made or started the session stays registered. -/
theorem registered_of_control {channelRaises startRaises : Bool}
    (hregistered : b.Registered request.consoleId k)
    (hraised : raised ((onAttach (ensureControlLane request k channelRaises startRaises)).run
      b) ≠ none) :
  (stateOf ((onAttach (ensureControlLane request k channelRaises startRaises)).run
    b)).Registered request.consoleId k
  := by
  have hleft : Ensures (onAttach (ensureControlLane request k channelRaises startRaises)) b
      (fun _ _ => True) (fun _ b' => b'.Registered request.consoleId k) := by
    simp only [onAttach, ensures_onRaise, ensureControlLane, ensures_bind, ensures_get,
      ensures_when, ensures_throw, ensures_modify]
    exact ⟨fun _ => ⟨fun _ => hregistered, fun _ => ⟨fun _ => hregistered, fun _ => trivial⟩⟩,
      fun _ => trivial⟩
  obtain ⟨e, hleft⟩ := ensures_of_raised hleft hraised
  apply hleft

/-- When the store fails the lane is not started. -/
theorem startLane_raises {c : Focus} {support : ServerCancelState}
    (hstate : c.runtime.session.state = .connecting) :
  Ensures (startLane support true) c (fun _ _ => False)
    (fun _ c' => c'.runtime.lane = c.runtime.lane
      ∧ c'.runtime.session.state = c.runtime.session.state)
  := by
  rw [startLane, ensures_bind, ensures_get]
  dsimp only
  rw [when_pos hstate]
  simp only [ensures_bind, ensures_assignSession]
  exact ⟨rfl, rfl⟩

/-- When the store fails before the lane is started the session stays registered. -/
theorem registered_of_finish {support : ServerCancelState} {storeRaises : Bool} (h : b.Sound config)
    (hpoint : b.attaching = some (.awaiting request k))
    (hraised : raised ((onAttach (attachFinish k support storeRaises)).run b) ≠ none) :
  (stateOf ((onAttach (attachFinish k support storeRaises)).run b)).Registered request.consoleId k
  := by
  obtain ⟨hprepared, -⟩ := h.attaching _ hpoint
  obtain ⟨hconsole, runtime, hk, hlane, hactive⟩ := h.registered hprepared
  cases storeRaises with
  | false =>
      obtain ⟨e, hfalse⟩ := ensures_of_raised (attachFinish_spec h hpoint) hraised
      apply hfalse.elim
  | true =>
      have hstate : runtime.session.state = .connecting :=
        (h.view k runtime hk).connecting.mpr (.inl hlane)
      have hleft : Ensures (onAttach (attachFinish k support true)) b
          (fun _ _ => True) (fun _ b' => b'.Registered request.consoleId k) := by
        rw [onAttach, ensures_onRaise, attachFinish, ensures_bind, ensures_onRuntime hk]
        apply (startLane_raises hstate).mono
        · intro _ _ hfalse
          apply hfalse.elim
        · rintro e c ⟨hlane', hstate'⟩
          refine ⟨hconsole, c.runtime, unfocus_get?_self, hlane'.trans hlane, ?_⟩
          rw [hstate']
          apply hactive
      obtain ⟨e, hleft⟩ := ensures_of_raised hleft hraised
      apply hleft

/-! ### Every attachment that fails -/

/-- An attachment that raises after the row of its session was created leaves the session behind,
active and without a lane; once it is registered, the next attachment of the console returns it,
and it counts toward the limits. -/
theorem failed_attach (hb : (brokerSystem config).Reachable b)
    (hfail : FailedAttach config b action request k b') :
  b'.Stranded k ∧ (action.IsLate → b'.Occupied request.consoleId k)
  := by
  have h := reachable_sound hb
  obtain ⟨hmakes, m, hm, hraised, rfl, hrow⟩ := hfail
  have hlate (hregistered : (stateOf (m.run b)).Registered request.consoleId k) :
      (stateOf (m.run b)).Stranded k
        ∧ (action.IsLate → (stateOf (m.run b)).Occupied request.consoleId k) :=
    ⟨hregistered.stranded, fun _ => hregistered.occupied⟩
  cases hmakes with
  | serial hpoint hfresh =>
      refine ⟨?_, False.elim⟩
      simp only [perform, attachStep, hpoint, Option.some.injEq] at hm
      subst hm
      apply stranded_of_serial h hfresh hraised hrow
  | control hpoint =>
      apply hlate
      simp only [perform, attachStep, hpoint, Option.some.injEq] at hm
      subst hm
      apply registered_of_control (h.registered (h.attaching _ hpoint)) hraised
  | ready hpoint =>
      apply hlate
      simp only [perform, attachStep, hpoint] at hm
      obtain ⟨control, -, hm⟩ := Option.bind_eq_some_iff.mp hm
      split at hm
      · obtain rfl := Option.some.inj hm
        apply registered_of_finish h hpoint hraised
      · cases hm
  | timeout hpoint =>
      apply hlate
      simp only [perform, attachStep, hpoint] at hm
      obtain ⟨control, -, hm⟩ := Option.bind_eq_some_iff.mp hm
      split at hm
      · cases hm
      · obtain rfl := Option.some.inj hm
        apply h.registered (h.attaching _ hpoint).1

end Failures

/-- A session is made for a console of the datasource `d`. -/
def sessionMade : List Action :=
  [.attachEnter ⟨"c".toList, "d".toList, "u".toList⟩,
   .attachSerial "s".toList false 0]

/-- The cancel channel of the datasource cannot be made. -/
def failedChannel : BrokerM Unit :=
  onAttach (ensureControlLane ⟨"c".toList, "d".toList, "u".toList⟩ "s".toList true false)

theorem failedAttach_failedChannel {b : SessionBroker}
    (hb : runOf {} "b".toList sessionMade = some b) :
  FailedAttach {} b (.attachControl true false) ⟨"c".toList, "d".toList, "u".toList⟩ "s".toList
    (stateOf (failedChannel.run b))
  := by
  have hseen : (runOf {} "b".toList sessionMade).map (fun b =>
      (b.attaching, raised (failedChannel.run b),
        (stateOf (failedChannel.run b)).store.sessions.contains "s".toList))
      = some (some (.created ⟨"c".toList, "d".toList, "u".toList⟩ "s".toList), some .factoryError,
        true) := by
    rfl
  rw [hb] at hseen
  obtain ⟨hpoint, hseen⟩ := Prod.mk.inj (Option.some.inj hseen)
  obtain ⟨hraised, hrow⟩ := Prod.mk.inj hseen
  refine ⟨.control hpoint, failedChannel, ?_, ?_, rfl, hrow⟩
  · simp only [perform, attachStep, hpoint]
    rfl
  · rw [hraised]
    apply Option.some_ne_none

theorem failed_attach_failedChannel :
  ∃ b, runOf {} "b".toList sessionMade = some b
    ∧ (stateOf (failedChannel.run b)).Stranded "s".toList
    ∧ (stateOf (failedChannel.run b)).Occupied "c".toList "s".toList
  := by
  obtain ⟨b, hb⟩ := Option.isSome_iff_exists.mp
    (by rfl : (runOf {} "b".toList sessionMade).isSome = true)
  obtain ⟨hstranded, hoccupied⟩ := failed_attach (reachable_of_runOf hb)
    (failedAttach_failedChannel hb)
  exact ⟨b, hb, hstranded, hoccupied trivial⟩

/-- The next attachment of the console returns the session that was left behind. -/
def attachedOnceMore (b : SessionBroker) : Option SessionBroker :=
  [.attachEnter ⟨"c".toList, "d".toList, "u".toList⟩, .attachSerial "t".toList false 0].foldlM
    (SessionBroker.next {}) b

theorem stranded_failedChannel :
  ∃ b b', (brokerSystem {}).Reachable b
    ∧ FailedAttach {} b (.attachControl true false) ⟨"c".toList, "d".toList, "u".toList⟩ "s".toList
      b'
    ∧ b'.Stranded "s".toList
    ∧ (attachedOnceMore b').map (fun b'' => (b''.history.attached,
        (b''.sessions.get? "s".toList).map SessionRuntime.lane))
      = some ([("c".toList, 2)], some .unstarted)
  := by
  obtain ⟨b, hb⟩ := Option.isSome_iff_exists.mp
    (by rfl : (runOf {} "b".toList sessionMade).isSome = true)
  have hagain : (runOf {} "b".toList sessionMade).map (fun b =>
      (attachedOnceMore (stateOf (failedChannel.run b))).map (fun b'' => (b''.history.attached,
        (b''.sessions.get? "s".toList).map SessionRuntime.lane)))
      = some (some ([("c".toList, 2)], some .unstarted)) := by
    rfl
  have hseen : (runOf {} "b".toList sessionMade).map (fun b =>
      let b' := stateOf (failedChannel.run b)
      (b'.consoleSessions.get? "c".toList,
        (b'.sessions.get? "s".toList).map (fun runtime => (runtime.lane, runtime.session.state))))
      = some (some "s".toList, some (.unstarted, .connecting)) := by
    rfl
  rw [hb] at hagain hseen
  obtain ⟨hconsole, hseen⟩ := Prod.mk.inj (Option.some.inj hseen)
  obtain ⟨runtime, hk, hseen⟩ := Option.map_eq_some_iff.mp hseen
  obtain ⟨hlane, hstate⟩ := Prod.mk.inj hseen
  refine ⟨b, _, reachable_of_runOf hb, failedAttach_failedChannel hb, ?_, Option.some.inj hagain⟩
  apply SessionBroker.Registered.stranded
  refine ⟨hconsole, runtime, hk, hlane, ?_⟩
  rw [hstate]
  decide

end Broker

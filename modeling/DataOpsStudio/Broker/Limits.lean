import DataOpsStudio.Broker.Runs

/-!
# The registry within its limits

A console has at most one active session, the active sessions stay within the limits, and no
session becomes active again.  Every change of state is a transition of the tables.
-/

namespace Broker

open Text Program

/-! ### Counting the active sessions -/

/-- The active sessions are within the limits. -/
def SessionBroker.WithinLimits (config : BrokerConfig) (b : SessionBroker) : Prop :=
  b.activeSessions.length ≤ config.limits.globalTotal
    ∧ (∀ user, b.activeSessions.countP (fun session => session.ownerUserId = user)
      ≤ config.limits.perUser)
    ∧ ∀ datasource, b.activeSessions.countP (fun session => session.datasourceId = datasource)
      ≤ config.limits.perDatasource

/-- A property of sessions that all records of one session share. -/
def Steady (p : ConsoleSession → Bool) : Prop :=
  ∀ session session' : ConsoleSession, session.Kin session' → p session' = p session

section Count

variable {config : BrokerConfig} {b b' : SessionBroker} {action : Action}
  {p : ConsoleSession → Bool}

theorem steady_true :
  Steady (fun _ => true)
  := fun _ _ _ => rfl

theorem steady_owner (user : Text) :
  Steady (fun session => session.ownerUserId = user)
  := by
  intro session session' hkin
  simp only [hkin.ownerUserId]

theorem steady_datasource (datasource : Text) :
  Steady (fun session => session.datasourceId = datasource)
  := by
  intro session session' hkin
  simp only [hkin.datasourceId]

/-- The active sessions with a property, counted by their identifiers. -/
theorem countP_activeSessions (b : SessionBroker) (p : ConsoleSession → Bool) :
  b.activeSessions.countP p
    = b.sessions.keys.countP (fun k => (b.sessions.get? k).any (fun runtime =>
      p runtime.session && decide runtime.session.state.IsActive))
  := by
  rw [SessionBroker.activeSessions, List.countP_filter, List.countP_map, Dict.countP_values]
  rfl

/-- When the sessions go on there are no more active ones than before. -/
theorem Evolves.countP_activeSessions_le {R : Text → View → View → Prop} (hp : Steady p)
    (h : Evolves config R b b')
    (hR : ∀ k runtime, b.sessions.get? k = some runtime → ∀ w, R k (b.focus runtime).view w →
      SessionEdge runtime.session.state w.state) :
  b'.activeSessions.countP p ≤ b.activeSessions.countP p
  := by
  rw [countP_activeSessions, countP_activeSessions, h.keys]
  apply List.countP_mono_left
  intro k hk
  obtain ⟨runtime, hruntime⟩ := Dict.mem_keys_iff.mp hk
  obtain ⟨runtime', hruntime', hkin, -, hview⟩ := h.sessions k runtime hruntime
  have hedge := hR k runtime hruntime _ hview
  rw [hruntime, hruntime', Option.any_some, Option.any_some, hp _ _ hkin, Bool.and_eq_true,
    Bool.and_eq_true, decide_eq_true_eq, decide_eq_true_eq]
  rintro ⟨hpt, hactive⟩
  exact ⟨hpt, hedge.isActive hactive⟩

/-- A new session is one more at most. -/
theorem Creates.countP_activeSessions_le {k : Text} (h : Creates config k b b') :
  b'.activeSessions.countP p ≤ b.activeSessions.countP p + 1
  := by
  rw [countP_activeSessions, countP_activeSessions, h.keys, List.countP_append]
  apply Nat.add_le_add
  · apply List.countP_mono_left
    intro k' hk' hcounted
    obtain ⟨runtime, hruntime⟩ := Dict.mem_keys_iff.mp hk'
    rw [(h.sessions k' runtime hruntime).1] at hcounted
    rw [hruntime]
    apply hcounted
  · apply List.countP_le_length

/-- A new session counts for its owner only. -/
theorem create_countP_of_not {request : AttachRequest} {k : Text} {now : ℤ}
    (h : Creates config k b (b.create config request k now))
    (hp : p (b.newSession request k now) = false) :
  (b.create config request k now).activeSessions.countP p ≤ b.activeSessions.countP p
  := by
  rw [countP_activeSessions, countP_activeSessions, h.keys, List.countP_append,
    List.countP_singleton, create_get?_self, Option.any_some, hp, Bool.false_and, if_neg nofun,
    Nat.add_zero]
  apply List.countP_mono_left
  intro k' hk' hcounted
  obtain ⟨runtime, hruntime⟩ := Dict.mem_keys_iff.mp hk'
  rw [(h.sessions k' runtime hruntime).1] at hcounted
  rw [hruntime]
  apply hcounted

theorem Becomes.withinLimits (hb : b.Sound config) (hlimits : b.WithinLimits config)
    (h : Becomes config b action b') :
  b'.WithinLimits config
  := by
  obtain ⟨htotal, huser, hdatasource⟩ := hlimits
  have hevolves : Evolves config (Bears config b action) b b' → b'.WithinLimits config := by
    intro h
    have hle : ∀ p, Steady p → b'.activeSessions.countP p ≤ b.activeSessions.countP p := by
      intro p hp
      apply h.countP_activeSessions_le hp
      intro k runtime hk w hview
      apply hview.sessionEdge (hb.view k runtime hk)
    refine ⟨?_, ?_, ?_⟩
    · rw [← List.countP_true] at htotal ⊢
      apply Nat.le_trans (hle _ steady_true) htotal
    · intro user
      apply Nat.le_trans (hle _ (steady_owner user)) (huser user)
    · intro datasource
      apply Nat.le_trans (hle _ (steady_datasource datasource)) (hdatasource datasource)
  cases h with
  | goesOn h => apply hevolves h
  | attaches h => apply hevolves h
  | @creates request k now _ h hroom =>
      obtain ⟨hroomTotal, hroomUser, hroomDatasource⟩ := hroom
      refine ⟨?_, ?_, ?_⟩
      · rw [← List.countP_true] at hroomTotal ⊢
        apply Nat.le_trans h.countP_activeSessions_le hroomTotal
      · intro user
        by_cases hne : request.ownerUserId = user
        · subst hne
          apply Nat.le_trans h.countP_activeSessions_le hroomUser
        · apply Nat.le_trans (create_countP_of_not h _) (huser user)
          apply decide_eq_false hne
      · intro datasource
        by_cases hne : request.datasourceId = datasource
        · subst hne
          apply Nat.le_trans h.countP_activeSessions_le hroomDatasource
        · apply Nat.le_trans (create_countP_of_not h _) (hdatasource datasource)
          apply decide_eq_false hne
  | restarts => exact ⟨Nat.zero_le _, fun _ => Nat.zero_le _, fun _ => Nat.zero_le _⟩

/-- In every run the active sessions are within the limits. -/
theorem reachable_withinLimits (h : (brokerSystem config).Reachable b) :
  b.WithinLimits config
  := by
  have hboth : b.Sound config ∧ b.WithinLimits config := by
    apply h.invariant
    · rintro b ⟨bootId, rfl⟩
      refine ⟨initial_sound config bootId, Nat.zero_le _, fun _ => Nat.zero_le _,
        fun _ => Nat.zero_le _⟩
    · rintro b action b' ⟨hb, hlimits⟩ hstep
      exact ⟨step_sound hb hstep, (becomes_of_step hb hstep).withinLimits hb hlimits⟩
  apply hboth.2

end Count

/-! ### The registry -/

section Registry

variable {config : BrokerConfig} {b b' : SessionBroker} {action : Action}

/-- A console has at most one active session. -/
theorem SessionBroker.Sound.active_unique (h : b.Sound config) {k k' : Text}
    {runtime runtime' : SessionRuntime} (hk : b.sessions.get? k = some runtime)
    (hk' : b.sessions.get? k' = some runtime') (hactive : runtime.session.state.IsActive)
    (hactive' : runtime'.session.state.IsActive)
    (hconsole : runtime.session.consoleId = runtime'.session.consoleId) :
  k = k'
  := by
  have hlive := h.active k runtime hk hactive
  rw [hconsole, h.active k' runtime' hk' hactive'] at hlive
  exact (Option.some.inj hlive).symm

/-- A session of the registry changes along a transition. -/
theorem Becomes.sessionEdge (hb : b.Sound config) (h : Becomes config b action b') {k : Text}
    {runtime runtime' : SessionRuntime} (hk : b.sessions.get? k = some runtime)
    (hk' : b'.sessions.get? k = some runtime') :
  SessionEdge runtime.session.state runtime'.session.state
  := by
  have hevolves : Evolves config (Bears config b action) b b' →
      SessionEdge runtime.session.state runtime'.session.state := by
    intro h
    obtain ⟨runtime'', hk'', -, -, hview⟩ := h.sessions k runtime hk
    obtain rfl := Option.some.inj (hk'.symm.trans hk'')
    apply hview.sessionEdge (hb.view k runtime hk)
  cases h with
  | goesOn h => apply hevolves h
  | attaches h => apply hevolves h
  | creates _ h =>
      obtain rfl := Option.some.inj (hk'.symm.trans (h.sessions k runtime hk).1)
      exact .inl rfl
  | restarts => cases (Dict.get?_empty k).symm.trans hk'

/-- A session that is not active does not become active later. -/
theorem not_active_later (h : b.Sound config) (hlater : (brokerSystem config).Later b b') {k : Text}
    {session session' : ConsoleSession} (hk : b.store.sessions.get? k = some session)
    (hk' : b'.store.sessions.get? k = some session') (hactive : ¬ session.state.IsActive) :
  ¬ session'.state.IsActive
  := by
  have hboth := TransitionSystem.Later.invariant (T := brokerSystem config)
    (I := SessionBroker.Sound config)
    (P := fun b => ∃ session, b.store.sessions.get? k = some session ∧ ¬ session.state.IsActive)
    (fun b action b' hb hstep => step_sound hb hstep)
    (by
      rintro b action b' hb ⟨session, hk, hactive⟩ hstep
      obtain ⟨session', hk', hstays⟩ := (becomes_of_step hb hstep).exists_session hb hk
      exact ⟨session', hk', fun hactive' => hactive (hstays hactive')⟩)
    h ⟨session, hk, hactive⟩ hlater
  obtain ⟨-, session'', hk'', hactive'⟩ := hboth
  obtain rfl := Option.some.inj (hk'.symm.trans hk'')
  apply hactive'

/-- In every run: a console has at most one active session, the active sessions are within the
limits, no session becomes active again, every change of the state of a session or a statement
is a transition, and no illegal transition is ever tried. -/
theorem registry_invariants (h : (brokerSystem config).Reachable b) :
  (∀ k k' runtime runtime', b.sessions.get? k = some runtime → b.sessions.get? k' = some runtime' →
      runtime.session.state.IsActive → runtime'.session.state.IsActive →
      runtime.session.consoleId = runtime'.session.consoleId → k = k')
    ∧ b.WithinLimits config
    ∧ (∀ k runtime, b.sessions.get? k = some runtime →
      b.store.sessions.get? k = some runtime.session)
    ∧ (∀ b' k session session', (brokerSystem config).Later b b' →
      b.store.sessions.get? k = some session → b'.store.sessions.get? k = some session' →
      ¬ session.state.IsActive → ¬ session'.state.IsActive)
    ∧ (∀ action b', (brokerSystem config).step b action b' →
      (∀ k runtime runtime', b.sessions.get? k = some runtime →
        b'.sessions.get? k = some runtime' →
        SessionEdge runtime.session.state runtime'.session.state)
      ∧ ∀ s statement statement', b.store.statements.get? s = some statement →
        b'.store.statements.get? s = some statement' →
        StatementEdge statement.state statement'.state)
    ∧ ∀ action m message, action.Fresh b → perform config b action = some m →
      raised (m.run b) ≠ some (.invalidStateTransition message)
  := by
  have hb := reachable_sound h
  refine ⟨?_, reachable_withinLimits h, ?_, ?_, ?_, ?_⟩
  · intro k k' runtime runtime' hk hk' hactive hactive' hconsole
    apply hb.active_unique hk hk' hactive hactive' hconsole
  · intro k runtime hk
    apply hb.stored hk
  · intro b' k session session' hlater hk hk' hactive
    apply not_active_later hb hlater hk hk' hactive
  · intro action b' hstep
    have hbecomes := becomes_of_step hb hstep
    constructor
    · intro k runtime runtime' hk hk'
      apply hbecomes.sessionEdge hb hk hk'
    · intro s statement statement' hs hs'
      obtain ⟨statement'', hs'', -, hedge⟩ := hbecomes.exists_statement hb hs
      obtain rfl := Option.some.inj (hs'.symm.trans hs'')
      apply hedge
  · intro action m message hfresh hm hraised
    obtain ⟨hrefusal, -⟩ := (perform_spec hb hfresh hm).of_raised hraised
    apply hrefusal

end Registry

/-- A request to the session `s` in its first epoch. -/
def requestOf (clientRequestId : Text) : SubmitRequest where
  sessionId := "s".toList
  epoch := 1
  sql := []
  clientRequestId := clientRequestId

/-- A client attaches, submits a statement, and the lane executes it. -/
def oneStatement : List Action :=
  [.attachEnter ⟨"c".toList, "d".toList, "u".toList⟩,
   .attachSerial "s".toList false 0,
   .attachControl false false,
   .control "d".toList (.opened (some .available)) 0,
   .attachReady false,
   .lane "s".toList (.opened "m".toList) 0,
   .submit (requestOf "1".toList) "1".toList (some "r".toList) 0,
   .lane "s".toList .proceed 0,
   .lane "s".toList .proceed 0,
   .lane "s".toList .proceed 0,
   .lane "s".toList .proceed 0]

theorem registry_invariants_oneStatement :
  ∃ b, runOf {} "b".toList oneStatement = some b
    ∧ b.history.executed = ["1".toList]
    ∧ b.WithinLimits {}
  := by
  obtain ⟨b, hb⟩ := Option.isSome_iff_exists.mp
    (by rfl : (runOf {} "b".toList oneStatement).isSome = true)
  have hexecuted : (runOf {} "b".toList oneStatement).map (fun b => b.history.executed)
      = some ["1".toList] := by
    rfl
  rw [hb] at hexecuted
  exact ⟨b, hb, Option.some.inj hexecuted, (registry_invariants (reachable_of_runOf hb)).2.1⟩

end Broker

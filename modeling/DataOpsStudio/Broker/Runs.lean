import DataOpsStudio.Broker.Attach

/-!
# The runs of a broker

What an action makes of a broker, and what follows for every broker that a run can reach: it is
sound, and no exception is raised but those by which it refuses.
-/

namespace Broker

open Text Program

/-! ### Starting again -/

section Restart

variable {config : BrokerConfig} {b : SessionBroker} {bootId : Text} {now : ℤ}

/-- The record of a session after a sweep. -/
theorem sweepSession_id (session : ConsoleSession) :
  (MemoryBrokerStore.sweepSession bootId now session).id = session.id
  := by
  rw [MemoryBrokerStore.sweepSession]
  split
  · rfl
  · rfl

/-- The record of a statement after a sweep. -/
theorem sweepStatement_same (store : MemoryBrokerStore) (bootId : Text) (now : ℤ)
    (statement : ConsoleStatement) :
  statement.Same (MemoryBrokerStore.sweepStatement store bootId now statement)
  := by
  rw [MemoryBrokerStore.sweepStatement]
  split
  · exact ⟨rfl, rfl, rfl⟩
  · exact ⟨rfl, rfl, rfl⟩

/-- A session of the store after a sweep. -/
theorem restarted_session {k : Text} {session : ConsoleSession}
    (hk : (b.restarted bootId now).store.sessions.get? k = some session) :
  ∃ old, b.store.sessions.get? k = some old
    ∧ session = MemoryBrokerStore.sweepSession bootId now old
  := by
  rw [SessionBroker.restarted, MemoryBrokerStore.startupSweep, Dict.get?_mapValues] at hk
  obtain ⟨old, hold, rfl⟩ := Option.map_eq_some_iff.mp hk
  exact ⟨old, hold, rfl⟩

/-- A statement of the store after a sweep. -/
theorem restarted_statement {s : Text} {statement : ConsoleStatement}
    (hs : (b.restarted bootId now).store.statements.get? s = some statement) :
  ∃ old, b.store.statements.get? s = some old
    ∧ statement = MemoryBrokerStore.sweepStatement b.store bootId now old
  := by
  rw [SessionBroker.restarted, MemoryBrokerStore.startupSweep, Dict.get?_mapValues] at hs
  obtain ⟨old, hold, rfl⟩ := Option.map_eq_some_iff.mp hs
  exact ⟨old, hold, rfl⟩

/-- The sweep keeps the store sound. -/
theorem restarted_storeSound (h : b.store.Sound) :
  (b.restarted bootId now).store.Sound
  := by
  constructor
  · intro k session hk
    obtain ⟨old, hold, rfl⟩ := restarted_session hk
    rw [sweepSession_id]
    apply h.sessionId k old hold
  · intro s statement hs
    obtain ⟨old, hold, rfl⟩ := restarted_statement hs
    rw [(sweepStatement_same b.store bootId now old).id]
    apply h.statementId s old hold
  · intro s statement hs
    obtain ⟨old, hold, rfl⟩ := restarted_statement hs
    rw [(sweepStatement_same b.store bootId now old).sessionId]
    obtain ⟨session, hsession⟩ := Option.isSome_iff_exists.mp (h.owned s old hold)
    rw [Dict.contains, SessionBroker.restarted, MemoryBrokerStore.startupSweep, Dict.get?_mapValues,
      hsession]
    rfl
  · intro s s' statement statement' hs hs' hsession hrequest
    obtain ⟨old, hold, rfl⟩ := restarted_statement hs
    obtain ⟨old', hold', rfl⟩ := restarted_statement hs'
    have hsame := sweepStatement_same b.store bootId now old
    have hsame' := sweepStatement_same b.store bootId now old'
    apply h.unique s s' old old' hold hold'
    · rw [← hsame.sessionId, ← hsame'.sessionId, hsession]
    · rw [← hsame.clientRequestId, ← hsame'.clientRequestId, hrequest]

/-- A broker that has just been started is sound if its store is. -/
theorem sound_of_store {store : MemoryBrokerStore} (h : store.Sound) (history : History) :
  ({ bootId := bootId, store := store, history := history } : SessionBroker).Sound config
  := by
  constructor
  · apply h
  · intro k runtime hk
    cases (Dict.get?_empty k).symm.trans hk
  · intro k runtime hk
    cases (Dict.get?_empty k).symm.trans hk
  · intro k runtime hk
    cases (Dict.get?_empty k).symm.trans hk
  · intro k runtime hk
    cases (Dict.get?_empty k).symm.trans hk
  · intro d control command hd
    cases (Dict.get?_empty d).symm.trans hd
  · intro s k hs
    cases (Dict.get?_empty s).symm.trans hs
  · intro consoleId k hconsole
    cases (Dict.get?_empty consoleId).symm.trans hconsole
  · intro k runtime hk
    cases (Dict.get?_empty k).symm.trans hk
  · intro point hpoint
    cases hpoint

theorem restarted_sound (h : b.Sound config) :
  (b.restarted bootId now).Sound config
  := sound_of_store (restarted_storeSound h.store) b.history

theorem initial_sound (config : BrokerConfig) (bootId : Text) :
  ({ bootId := bootId } : SessionBroker).Sound config
  := by
  apply sound_of_store
  constructor
  · intro k session hk
    cases (Dict.get?_empty k).symm.trans hk
  · intro s statement hs
    cases (Dict.get?_empty s).symm.trans hs
  · intro s statement hs
    cases (Dict.get?_empty s).symm.trans hs
  · intro s s' statement statement' hs
    cases (Dict.get?_empty s).symm.trans hs

end Restart

/-! ### What an action makes of a broker -/

/-- The history after an action that is not one of an attachment. -/
def SessionBroker.historyAfter (b : SessionBroker) : Action → History
  | .lane k input _ =>
      match b.sessions.get? k with
      | none => b.history
      | some runtime => b.history.hand (runtime.handed input)
  | .control d input _ =>
      match b.controls.get? d with
      | none => b.history
      | some control => control.historyAfter input b.history
  | _ => b.history

/-- What an action makes of a broker. -/
inductive Becomes (config : BrokerConfig) (b : SessionBroker) (action : Action) :
    SessionBroker → Prop
  /-- The sessions go on. -/
  | goesOn {b'} (h : Evolves config (Bears config b action) b b')
      (hleaves : Leaves (b.noting (b.historyAfter action)) b') : Becomes config b action b'
  /-- An attachment goes on. -/
  | attaches {b'} (h : Evolves config (Bears config b action) b b') (hattach : Attaches config b b') :
      Becomes config b action b'
  /-- An attachment makes a session. -/
  | creates {request k now} (hpoint : b.attaching = some (.entered request))
      (h : Creates config k b (b.create config request k now)) (hroom : b.Roomy config request) :
      Becomes config b action (b.create config request k now)
  /-- The broker is started again. -/
  | restarts {bootId now} (haction : action = .restart bootId now) :
      Becomes config b action (b.restarted bootId now)

theorem Becomes.sound {config : BrokerConfig} {b b' : SessionBroker} {action : Action}
    (hb : b.Sound config) (h : Becomes config b action b') :
  b'.Sound config
  := by
  cases h with
  | goesOn h => apply h.sound
  | attaches h => apply h.sound
  | creates _ h => apply h.sound
  | restarts => apply restarted_sound hb

/-! ### Records -/

section Records

variable {config : BrokerConfig} {b b' : SessionBroker} {action : Action} {k s : Text}
  {runtime : SessionRuntime} {session : ConsoleSession} {statement : ConsoleStatement}

/-- The record of a session of the registry is in the store. -/
theorem SessionBroker.Sound.stored (h : b.Sound config) (hk : b.sessions.get? k = some runtime) :
  b.store.sessions.get? k = some runtime.session
  := by
  have hstored := (h.wellformed k runtime hk).stored
  rw [show (b.focus runtime).runtime.session.id = k from h.id k runtime hk] at hstored
  apply hstored

/-- The statements of a session of the registry are those of the store. -/
theorem SessionBroker.Sound.mirrored (h : b.Sound config) (hk : b.sessions.get? k = some runtime) :
  runtime.statements.get? s = some statement
    ↔ b.store.statements.get? s = some statement ∧ statement.sessionId = k
  := by
  have hmirrored := (h.wellformed k runtime hk).mirrored s statement
  rw [show (b.focus runtime).runtime.session.id = k from h.id k runtime hk] at hmirrored
  apply hmirrored

/-- A session of the store stays there, and does not become active again. -/
theorem Becomes.exists_session (hb : b.Sound config) (h : Becomes config b action b')
    (hk : b.store.sessions.get? k = some session) :
  ∃ session', b'.store.sessions.get? k = some session'
    ∧ (session'.state.IsActive → session.state.IsActive)
  := by
  have hevolves : Evolves config (Bears config b action) b b' → ∃ session',
      b'.store.sessions.get? k = some session'
        ∧ (session'.state.IsActive → session.state.IsActive) := by
    intro h
    cases hruntime : b.sessions.get? k with
    | none => exact ⟨session, h.foreignSessions k session hruntime hk, id⟩
    | some runtime =>
        obtain ⟨runtime', hk', -, -, hview⟩ := h.sessions k runtime hruntime
        obtain rfl := Option.some.inj ((hb.stored hruntime).symm.trans hk)
        refine ⟨runtime'.session, h.sound.stored hk', ?_⟩
        apply (hview.sessionEdge (hb.view k runtime hruntime)).isActive
  cases h with
  | goesOn h => apply hevolves h
  | attaches h => apply hevolves h
  | creates _ h => exact ⟨session, h.foreignSessions k session hk, id⟩
  | @restarts bootId now _ =>
      refine ⟨MemoryBrokerStore.sweepSession bootId now session, ?_, ?_⟩
      · rw [SessionBroker.restarted, MemoryBrokerStore.startupSweep, Dict.get?_mapValues, hk]
        rfl
      · rw [MemoryBrokerStore.sweepSession]
        split
        · intro hactive
          rw [ConsoleSessionState.isActive_iff] at hactive
          exact (hactive.2.1 rfl).elim
        · exact id

/-- A sweep changes a statement along a transition. -/
theorem sweepStatement_edge (store : MemoryBrokerStore) (bootId : Text) (now : ℤ) :
  StatementEdge statement.state
    (MemoryBrokerStore.sweepStatement store bootId now statement).state
  := by
  rw [MemoryBrokerStore.sweepStatement]
  split
  · rename_i habandoned
    apply MemoryBrokerStore.unobserved_edge habandoned.2
  · exact .inl rfl

/-- A statement of the store stays there, and changes along a transition. -/
theorem Becomes.exists_statement (hb : b.Sound config) (h : Becomes config b action b')
    (hs : b.store.statements.get? s = some statement) :
  ∃ statement', b'.store.statements.get? s = some statement' ∧ statement.Same statement'
    ∧ StatementEdge statement.state statement'.state
  := by
  have hevolves : Evolves config (Bears config b action) b b' → ∃ statement',
      b'.store.statements.get? s = some statement' ∧ statement.Same statement'
        ∧ StatementEdge statement.state statement'.state := by
    intro h
    cases hruntime : b.sessions.get? statement.sessionId with
    | none =>
        exact ⟨statement, (h.foreignStatements s statement hruntime).mpr hs, ⟨rfl, rfl, rfl⟩,
          .inl rfl⟩
    | some runtime =>
        obtain ⟨runtime', hk', -, hsame, hview⟩ := h.sessions _ runtime hruntime
        have hown := (hb.mirrored hruntime).mpr ⟨hs, rfl⟩
        obtain ⟨statement', hown', hsame⟩ := hsame s statement hown
        refine ⟨statement', ((h.sound.mirrored hk').mp hown').1, hsame, ?_⟩
        have hstate : (b.focus runtime).view.statements s = some statement.state := by
          show statesOf runtime.statements s = _
          rw [statesOf, hown]
          rfl
        obtain ⟨y, hy, hedge⟩ := hview.statementEdge (hb.view _ runtime hruntime) hstate
        have hstate' : statesOf runtime'.statements s = some y := hy
        rw [statesOf, hown'] at hstate'
        rw [Option.some.inj hstate']
        apply hedge
  cases h with
  | goesOn h => apply hevolves h
  | attaches h => apply hevolves h
  | creates _ h =>
      rw [h.foreignStatements]
      exact ⟨statement, hs, ⟨rfl, rfl, rfl⟩, .inl rfl⟩
  | @restarts bootId now _ =>
      refine ⟨MemoryBrokerStore.sweepStatement b.store bootId now statement, ?_,
        sweepStatement_same b.store bootId now statement, sweepStatement_edge b.store bootId now⟩
      rw [SessionBroker.restarted, MemoryBrokerStore.startupSweep, Dict.get?_mapValues, hs]
      rfl

end Records

section Perform

variable {config : BrokerConfig} {b : SessionBroker} {action : Action} {m : BrokerM Unit}

/-- What a program does that refuses by design, if at all. -/
def Performs (config : BrokerConfig) (b : SessionBroker) (action : Action) (m : BrokerM Unit) :
    Prop :=
  Ensures m b (fun _ b' => Becomes config b action b')
    (fun e b' => e.IsRefusal ∧ Becomes config b action b')

theorem performs_of_calms (h : b.Sound config) (haction : b.historyAfter action = b.history)
    (hidle : ∀ k, ¬ b.Concerns action k) (hm : Calms config m b) :
  Performs config b action m
  := by
  have hbecomes : ∀ b', Calm config b b' → Becomes config b action b' := by
    rintro b' ⟨hevolves, hleaves⟩
    apply Becomes.goesOn
    · apply hevolves.mono _ h
      intro k v w _ hmoves
      exact .moves (hidle k) hmoves
    · rw [haction]
      exact ⟨hleaves.history, hleaves.attaching, hleaves.epochs, hleaves.epoch⟩
  apply hm.mono
  · intro _ b' hcalm
    apply hbecomes b' hcalm
  · rintro e b' ⟨he, hcalm⟩
    exact ⟨he, hbecomes b' hcalm⟩

/-- What a part of an attachment does. -/
theorem attachStep_spec (h : b.Sound config) (hfresh : action.Fresh b)
    (hm : attachStep config b action = some m) :
  Performs config b action m
  := by
  have hattached : ∀ b', Attached config b action b' → Becomes config b action b' :=
    fun b' hb' => .attaches hb'.1 hb'.2
  unfold attachStep at hm
  split at hm
  case h_1 request =>
    split at hm
    · rename_i hnone
      obtain rfl := Option.some.inj hm
      rw [Performs, onAttach, ensures_onRaise, ensures_ite, ensures_throw, ensures_modify]
      constructor
      · intro _
        exact ⟨.inl rfl, hattached _ (attached_fails h trivial)⟩
      · intro _
        refine .attaches ?_ (.enters request hnone)
        apply evolves_attachAt h
        · intro point hpoint
          obtain rfl := Option.some.inj hpoint
          trivial
        · apply bears_refl_of_attach
          trivial
    · cases hm
  case h_2 k raises now =>
    split at hm
    · rename_i request hpoint
      obtain rfl := Option.some.inj hm
      apply (attachSerial_spec h hfresh).mono
      · rintro _ b' (hb' | ⟨hcreates, rfl, hroom⟩)
        · apply hattached b' hb'
        · apply Becomes.creates hpoint hcreates hroom
      · rintro e b' ⟨he, hb'⟩
        exact ⟨he, hattached b' hb'⟩
    · cases hm
  case h_3 raises startRaises =>
    split at hm
    · rename_i request k hpoint
      obtain rfl := Option.some.inj hm
      apply (ensureControlLane_spec h hpoint).mono
      · intro _ b' hb'
        apply hattached b' hb'
      · rintro e b' ⟨he, hb'⟩
        exact ⟨he, hattached b' hb'⟩
    · cases hm
  case h_4 raises =>
    split at hm
    · rename_i request k hpoint
      obtain ⟨control, -, hm⟩ := Option.bind_eq_some_iff.mp hm
      split at hm
      · obtain rfl : raises = false := hfresh
        obtain rfl := Option.some.inj hm
        apply (attachFinish_spec h hpoint).mono
        · intro _ b' hb'
          apply hattached b' hb'
        · intro e b' hfalse
          apply hfalse.elim
      · cases hm
    · cases hm
  case h_5 =>
    split at hm
    · obtain ⟨control, -, hm⟩ := Option.bind_eq_some_iff.mp hm
      split at hm
      · cases hm
      · obtain rfl := Option.some.inj hm
        rw [Performs, onAttach, ensures_onRaise, ensures_throw]
        exact ⟨.inr (.inl rfl), hattached _ (attached_fails h trivial)⟩
    · cases hm
  case h_6 => cases hm

/-- What an action does. -/
theorem perform_spec (h : b.Sound config) (hfresh : action.Fresh b)
    (hm : perform config b action = some m) :
  Performs config b action m
  := by
  unfold perform at hm
  split at hm
  case h_1 request s resultSetId now =>
    obtain rfl := Option.some.inj hm
    apply performs_of_calms h rfl (by rintro k (⟨_, _, h⟩ | ⟨_, _, _, _, _, h, -⟩) <;> cases h)
    apply ensures_discard.mpr
    apply submit_calms h hfresh
  case h_2 s epoch now =>
    obtain rfl := Option.some.inj hm
    apply performs_of_calms h rfl (by rintro k (⟨_, _, h⟩ | ⟨_, _, _, _, _, h, -⟩) <;> cases h)
    apply ensures_discard.mpr
    apply cancel_calms h
  case h_3 k epoch reason now =>
    obtain rfl := Option.some.inj hm
    apply performs_of_calms h rfl (by rintro k (⟨_, _, h⟩ | ⟨_, _, _, _, _, h, -⟩) <;> cases h)
    apply close_calms h
  case h_4 now =>
    obtain rfl := Option.some.inj hm
    apply performs_of_calms h rfl (by rintro k (⟨_, _, h⟩ | ⟨_, _, _, _, _, h, -⟩) <;> cases h)
    apply runTimersOnce_calms h
  case h_5 k input now =>
    obtain ⟨runtime, hk, hensures⟩ := laneStep_spec h hm
    apply hensures.mono
    · rintro _ b' ⟨hevolves, hleaves⟩
      apply Becomes.goesOn hevolves
      rw [SessionBroker.historyAfter, hk]
      apply hleaves
    · intro e b' hfalse
      apply hfalse.elim
  case h_6 d input now =>
    obtain ⟨control, hd, hm⟩ := Option.bind_eq_some_iff.mp hm
    apply (controlNext_spec h hd hm).mono
    · rintro _ b' ⟨hevolves, hleaves⟩
      apply Becomes.goesOn hevolves
      rw [SessionBroker.historyAfter, hd]
      apply hleaves
    · intro e b' hfalse
      apply hfalse.elim
  case h_7 now =>
    obtain rfl := Option.some.inj hm
    apply performs_of_calms h rfl (by rintro k (⟨_, _, h⟩ | ⟨_, _, _, _, _, h, -⟩) <;> cases h)
    apply shutdown_calms h
  case h_8 d =>
    split at hm
    · obtain ⟨control, hd, rfl⟩ := Option.map_eq_some_iff.mp hm
      apply performs_of_calms h rfl (by rintro k (⟨_, _, h⟩ | ⟨_, _, _, _, _, h, -⟩) <;> cases h)
      apply calm_putControl h hd
      simp only [ControlLane.commands, List.filterMap_append, List.filterMap_cons, id,
        List.filterMap_nil, List.append_nil]
    · cases hm
  case h_9 bootId now =>
    obtain rfl := Option.some.inj hm
    exact .restarts rfl
  case h_10 => apply attachStep_spec h hfresh hm

end Perform

/-! ### Every run -/

section Reachable

variable {config : BrokerConfig} {b b' : SessionBroker} {action : Action}

/-- A step of a sound broker. -/
theorem becomes_of_step (h : b.Sound config) (hstep : (brokerSystem config).step b action b') :
  Becomes config b action b'
  := by
  obtain ⟨hfresh, m, hm, rfl⟩ := hstep
  apply Ensures.stateOf
  apply (perform_spec h hfresh hm).mono
  · intro _ b' hb'
    apply hb'
  · rintro e b' ⟨-, hb'⟩
    apply hb'

theorem step_sound (h : b.Sound config) (hstep : (brokerSystem config).step b action b') :
  b'.Sound config
  := (becomes_of_step h hstep).sound h

/-- Every broker a run can reach is sound. -/
theorem reachable_sound (h : (brokerSystem config).Reachable b) :
  b.Sound config
  := by
  apply h.invariant
  · rintro b ⟨bootId, rfl⟩
    apply initial_sound
  · intro b action b' hb hstep
    apply step_sound hb hstep

end Reachable

end Broker

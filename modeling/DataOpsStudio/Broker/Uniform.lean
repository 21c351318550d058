import DataOpsStudio.Broker.Alike
import DataOpsStudio.Broker.Runs

/-!
# Brokers that differ only in their stores

What a broker does depends on its memory, and on what alike stores agree about: every action
that can happen to a broker can happen to one that differs from it only in a store that is
alike, and leaves two such brokers again.
-/

namespace Broker

open Text Program

/-! ### Programs on a broker -/

/-- Two brokers differ only in their stores, which are alike. -/
structure SessionBroker.Alike (b b' : SessionBroker) : Prop where
  memory : b' = { b with store := b'.store }
  store : b.store.Alike b'.store

section Registry

theorem uniform_readBroker {β : Type} {f : SessionBroker → BrokerM β}
    (hread : ∀ b store, f { b with store := store } = f b)
    (hf : ∀ b, Uniform SessionBroker.Alike (f b)) :
  Uniform SessionBroker.Alike (get >>= f)
  := by
  apply uniform_get _ hf
  intro b b' h
  rw [h.memory, hread]

/-- A change that does not touch the store may be made to both brokers. -/
theorem SessionBroker.Alike.change {b b' : SessionBroker} {f : SessionBroker → SessionBroker}
    (halike : b.Alike b')
    (h : ∀ b store, f { b with store := store } = { f b with store := store }) :
  (f b).Alike (f b')
  := by
  have hstore : (f b).store = b.store := by
    have hsame := congrArg SessionBroker.store (h b b.store)
    apply hsame
  have hmemory : f b' = { f b with store := b'.store } := by
    rw [← h, ← halike.memory]
  constructor
  · rw [hmemory]
  · rw [hmemory, hstore]
    apply halike.store

theorem modifyBroker_uniform {f : SessionBroker → SessionBroker}
    (h : ∀ b store, f { b with store := store } = { f b with store := store }) :
  Uniform SessionBroker.Alike (modify f : BrokerM Unit)
  := by
  apply uniform_modify
  intro b b' halike
  apply halike.change h

theorem onBrokerStore_uniform {β : Type} {m : StoreM β}
    (hm : Uniform MemoryBrokerStore.Alike m) :
  Uniform SessionBroker.Alike (onBrokerStore m)
  := by
  intro b b' h
  apply matched_onPart (hm _ _ h.store)
  intro store store' hstore
  constructor
  · rw [h.memory]
  · apply hstore

theorem SessionBroker.Alike.focus {b b' : SessionBroker} (h : b.Alike b')
    (runtime : SessionRuntime) :
  (b.focus runtime).Alike (b'.focus runtime)
  := by
  constructor
  · rw [h.memory]
    rfl
  · apply h.store

theorem SessionBroker.Alike.unfocus {b b' : SessionBroker} (h : b.Alike b') {c c' : Focus}
    (hc : c.Alike c') (sessionId : Text) :
  (b.unfocus sessionId c).Alike (b'.unfocus sessionId c')
  := by
  constructor
  · rw [h.memory, hc.memory]
    rfl
  · apply hc.store

theorem onRuntime_uniform {β : Type} {m : SessionM β} (hm : Uniform Focus.Alike m)
    (sessionId : Text) :
  Uniform SessionBroker.Alike (onRuntime sessionId m)
  := by
  apply uniform_get
  · intro b b' h
    rw [h.memory]
  · intro b
    split
    · apply uniform_throw
    · rename_i runtime hk
      intro b b' h
      apply matched_onPart (P := Focus.Alike)
      · apply hm _ _ (h.focus runtime)
      · intro c c' hc
        apply h.unfocus hc

/-! ### Attaching -/

/-- To attach to a session of which both stores say the same leaves them alike. -/
theorem attachSession_uniform (request : AttachRequest) (sessionId bootId : Text) (now : ℤ)
    (reuseSessionId : Option Text) :
  Uniform (fun store store' : MemoryBrokerStore => store.Alike store'
      ∧ ∀ k ∈ reuseSessionId, store'.sessions.get? k = store.sessions.get? k)
    (MemoryBrokerStore.attachSession request sessionId bootId now reuseSessionId)
  := by
  have hrecord : ∀ attached : ConsoleSession,
      Uniform (fun store store' : MemoryBrokerStore => store.Alike store'
          ∧ ∀ k ∈ reuseSessionId, store'.sessions.get? k = store.sessions.get? k)
        (do
          modify (fun store : MemoryBrokerStore =>
            { store with sessions := store.sessions.set attached.id attached })
          return attached : StoreM ConsoleSession) := by
    intro attached
    apply (uniform_modify _).bind
    · intro _
      apply uniform_pure
    · rintro store store' ⟨h, hreuse⟩
      refine ⟨h.setSession _ _, ?_⟩
      intro k hk
      apply Dict.get?_set_congr (hreuse k hk)
  apply uniform_get
  · rintro store store' ⟨h, -⟩
    rw [h.nextEpoch]
  intro store
  apply (uniform_modify _).bind
  · intro _
    dsimp only
    cases reuseSessionId with
    | none => apply hrecord
    | some k =>
        apply uniform_get
        · rintro store store' ⟨-, hreuse⟩
          rw [hreuse k rfl]
        · intro store
          split
          · apply uniform_throw
          · apply hrecord
  · rintro store store' ⟨h, hreuse⟩
    refine ⟨⟨h.sessions, h.active, h.statements, ?_⟩, hreuse⟩
    rw [h.epochs]

theorem attachCreate_uniform (config : BrokerConfig) (request : AttachRequest)
    (sessionId : Text) (connectionRaises : Bool) (now : ℤ) :
  Uniform SessionBroker.Alike (attachCreate config request sessionId connectionRaises now)
  := by
  refine Uniform.bind ?_ ?_
  · apply uniform_readBroker (fun _ _ => rfl)
    intro b
    apply uniform_when (uniform_throw _)
  intro _
  apply uniform_readBroker (fun _ _ => rfl)
  intro b
  refine Uniform.bind ?_ ?_
  · apply onBrokerStore_uniform
    intro store store' h
    have hmatched := attachSession_uniform request sessionId b.bootId now none store store'
      ⟨h, nofun⟩
    apply hmatched.mono
    rintro _ _ ⟨h, -⟩
    apply h
  intro session
  apply (uniform_when (uniform_throw _)).bind
  intro _
  apply modifyBroker_uniform
  intro b store
  rfl

/-- A session of which both stores say the same is attached to in the same way. -/
theorem attachReuse_matched {b b' : SessionBroker} (config : BrokerConfig)
    (request : AttachRequest) (runtime : SessionRuntime) (now : ℤ) (h : b.Alike b')
    (hrow : b'.store.sessions.get? runtime.session.id
      = b.store.sessions.get? runtime.session.id) :
  Matched SessionBroker.Alike ((attachReuse config request runtime now).run b)
    ((attachReuse config request runtime now).run b')
  := by
  have hboot : b'.bootId = b.bootId := by rw [h.memory]
  apply matched_get
  rw [hboot]
  have hattached : Matched SessionBroker.Alike
      ((onBrokerStore (MemoryBrokerStore.attachSession request runtime.session.id b.bootId now
        (some runtime.session.id))).run b)
      ((onBrokerStore (MemoryBrokerStore.attachSession request runtime.session.id b.bootId now
        (some runtime.session.id))).run b') := by
    apply matched_onPart (attachSession_uniform _ _ _ _ _ _ _ ⟨h.store, ?_⟩)
    · rintro store store' ⟨hstore, -⟩
      constructor
      · rw [h.memory]
      · apply hstore
    · intro k hk
      rw [← Option.some.inj hk]
      apply hrow
  apply hattached.bind (fun _ _ h => h)
  intro attached
  apply Uniform.bind
  · apply modifyBroker_uniform
    intro b store
    rfl
  · intro _
    apply modifyBroker_uniform
    intro b store
    rfl

theorem active_of_liveSession {b : SessionBroker} {consoleId : Text} {runtime : SessionRuntime}
    (h : b.liveSession consoleId = some runtime) :
  runtime.session.state.IsActive
  := by
  rw [SessionBroker.liveSession] at h
  split at h
  · cases h
  · split at h
    · rename_i hactive
      rw [← Option.some.inj h]
      apply hactive
    · cases h

theorem attachSerial_matched {config : BrokerConfig} {b b' : SessionBroker}
    (request : AttachRequest) (sessionId : Text) (connectionRaises : Bool) (now : ℤ)
    (h : b.Alike b') (hb' : b'.Sound config) :
  Matched SessionBroker.Alike
    ((attachSerial config request sessionId connectionRaises now).run b)
    ((attachSerial config request sessionId connectionRaises now).run b')
  := by
  have hlive' : b'.liveSession request.consoleId = b.liveSession request.consoleId := by
    rw [h.memory]
    rfl
  apply matched_get
  rw [hlive']
  cases hlive : b.liveSession request.consoleId with
  | none => apply attachCreate_uniform _ _ _ _ _ _ _ h
  | some runtime =>
      obtain ⟨k, hk, -⟩ := hb'.exists_of_liveSession (hlive'.trans hlive)
      have hrow := (hb'.wellformed k runtime hk).stored
      apply attachReuse_matched _ _ _ _ h
      rw [show b'.store.sessions.get? runtime.session.id = _ from hrow]
      symm
      apply h.store.active _ _ hrow
      apply active_of_liveSession hlive

theorem onAttach_uniform {m : BrokerM Unit} (hm : Uniform SessionBroker.Alike m) :
  Uniform SessionBroker.Alike (onAttach m)
  := by
  apply uniform_onRaise hm
  intro b b' h
  apply h.change (fun _ _ => rfl)

theorem ensureControlLane_uniform (request : AttachRequest) (sessionId : Text)
    (channelRaises startRaises : Bool) :
  Uniform SessionBroker.Alike (ensureControlLane request sessionId channelRaises startRaises)
  := by
  apply uniform_readBroker (fun _ _ => rfl)
  intro b
  refine (uniform_when ?_).bind ?_
  · apply (uniform_when (uniform_throw _)).bind
    intro _
    apply (modifyBroker_uniform (fun _ _ => rfl)).bind
    intro _
    apply uniform_when (uniform_throw _)
  · intro _
    apply modifyBroker_uniform (fun _ _ => rfl)

theorem attachFinish_uniform (sessionId : Text) (support : ServerCancelState)
    (storeRaises : Bool) :
  Uniform SessionBroker.Alike (attachFinish sessionId support storeRaises)
  := by
  apply (onRuntime_uniform (startLane_uniform _ _) _).bind
  intro session
  apply modifyBroker_uniform (fun _ _ => rfl)

/-! ### Clients, the timer and control lanes -/

theorem requireRuntime_uniform (sessionId : Text) :
  Uniform SessionBroker.Alike (requireRuntime sessionId)
  := by
  apply uniform_readBroker (fun _ _ => rfl)
  intro b
  apply uniform_demand

theorem requireEpoch_uniform (runtime : SessionRuntime) (epoch : ℤ) :
  Uniform SessionBroker.Alike (requireEpoch runtime epoch)
  := uniform_when (uniform_throw _)

theorem cancel_uniform (config : BrokerConfig) (statementId : Text) (epoch now : ℤ) :
  Uniform SessionBroker.Alike (cancel config statementId epoch now)
  := by
  refine Uniform.bind ?_ ?_
  · apply uniform_readBroker (fun _ _ => rfl)
    intro b
    apply uniform_demand
  intro sessionId
  apply (requireRuntime_uniform _).bind
  intro runtime
  apply (requireEpoch_uniform _ _).bind
  intro _
  apply onRuntime_uniform (cancelStatement_uniform _ _ _)

theorem close_uniform (config : BrokerConfig) (sessionId : Text) (epoch : ℤ) (reason : Text)
    (now : ℤ) :
  Uniform SessionBroker.Alike (close config sessionId epoch reason now)
  := by
  apply (requireRuntime_uniform _).bind
  intro runtime
  apply (requireEpoch_uniform _ _).bind
  intro _
  apply onRuntime_uniform (queueCloseLocked_uniform _ _ _ _)

theorem runTimersOnce_uniform (config : BrokerConfig) (now : ℤ) :
  Uniform SessionBroker.Alike (runTimersOnce config now)
  := by
  apply uniform_readBroker (fun _ _ => rfl)
  intro b
  apply uniform_forM
  intro sessionId
  apply onRuntime_uniform (runTimers_uniform _ _)

theorem shutdown_uniform (config : BrokerConfig) (now : ℤ) :
  Uniform SessionBroker.Alike (shutdown config now)
  := by
  apply uniform_readBroker (fun _ _ => rfl)
  intro b
  apply uniform_when
  apply (modifyBroker_uniform (fun _ _ => rfl)).bind
  intro _
  apply uniform_readBroker (fun _ _ => rfl)
  intro b
  apply uniform_forM
  intro sessionId
  apply onRuntime_uniform (shutdownSession_uniform _ _)

theorem setControlPoint_store (datasourceId : Text) (point : ControlPoint) (b : SessionBroker)
    (store : MemoryBrokerStore) :
  setControlPoint datasourceId point { b with store := store }
    = { setControlPoint datasourceId point b with store := store }
  := by
  unfold setControlPoint
  dsimp only
  cases b.controls.get? datasourceId with
  | none => rfl
  | some control => rfl

theorem reportControl_uniform (config : BrokerConfig) (datasourceId : Text)
    (command : ControlCommand) (failed : Bool) (now : ℤ) :
  Uniform SessionBroker.Alike (reportControl config datasourceId command failed now)
  := by
  refine Uniform.bind ?_ ?_
  · apply uniform_onRaise (onRuntime_uniform (onControlDone_uniform _ _ _ _) _)
    intro b b' h
    apply h.change (setControlPoint_store _ _)
  · intro _
    apply modifyBroker_uniform
    intro b store
    rw [setControlPoint_store, SessionBroker.noteReported, SessionBroker.noteReported]
    cases command.kind with
    | cancel => rfl
    | destroy => rfl

theorem controlNext_uniform {config : BrokerConfig} {b : SessionBroker} {datasourceId : Text}
    {control : ControlLane} {input : ControlInput} {now : ℤ} {m : BrokerM Unit}
    (h : controlNext config b datasourceId control input now = some m) :
  Uniform SessionBroker.Alike m
  := by
  unfold controlNext at h
  split at h
  · cases h
    apply modifyBroker_uniform (fun _ _ => rfl)
  · split at h
    · cases h
    · cases h
      apply modifyBroker_uniform (fun _ _ => rfl)
    · cases h
      apply modifyBroker_uniform (fun _ _ => rfl)
  · obtain ⟨runtime, -, rfl⟩ := Option.map_eq_some_iff.mp h
    apply modifyBroker_uniform (fun _ _ => rfl)
  · cases h
    apply reportControl_uniform
  · cases h

/-! ### Actions -/

theorem noteExecuted_uniform (runtime : SessionRuntime) (input : LaneInput) :
  Uniform SessionBroker.Alike (noteExecuted runtime input)
  := by
  unfold noteExecuted
  split
  · apply modifyBroker_uniform (fun _ _ => rfl)
  · apply uniform_pure

theorem laneStep_uniform {config : BrokerConfig} {b : SessionBroker} {sessionId : Text}
    {input : LaneInput} {now : ℤ} {m : BrokerM Unit}
    (h : laneStep config b sessionId input now = some m) :
  Uniform SessionBroker.Alike m
  := by
  obtain ⟨runtime, -, h⟩ := Option.bind_eq_some_iff.mp h
  obtain ⟨next, hnext, rfl⟩ := Option.map_eq_some_iff.mp h
  apply (noteExecuted_uniform _ _).bind
  intro _
  apply onRuntime_uniform
  apply uniform_onRaise (laneNext_uniform hnext)
  intro c c' hc
  constructor
  · rw [hc.memory]
  · apply hc.store

theorem stopControl_uniform (datasourceId : Text) (control : ControlLane) :
  Uniform SessionBroker.Alike (stopControl datasourceId control)
  := modifyBroker_uniform (fun _ _ => rfl)

/-- The action submits a statement. -/
def Action.IsSubmit : Action → Prop
  | .submit _ _ _ _ => True
  | _ => False

section Alike

variable {config : BrokerConfig} {b b' : SessionBroker} {action : Action}

theorem attachStep_uniform {m : BrokerM Unit}
    (hserial : ∀ sessionId raises now, action ≠ .attachSerial sessionId raises now)
    (hm : attachStep config b action = some m) :
  Uniform SessionBroker.Alike m
  := by
  unfold attachStep at hm
  split at hm
  · split at hm
    · cases hm
      apply onAttach_uniform
      apply uniform_ite (uniform_throw _) (modifyBroker_uniform (fun _ _ => rfl))
    · cases hm
  · exact (hserial _ _ _ rfl).elim
  · split at hm
    · cases hm
      apply onAttach_uniform (ensureControlLane_uniform _ _ _ _)
    · cases hm
  · split at hm
    · obtain ⟨control, -, hm⟩ := Option.bind_eq_some_iff.mp hm
      split at hm
      · cases hm
        apply onAttach_uniform (attachFinish_uniform _ _ _)
      · cases hm
    · cases hm
  · split at hm
    · obtain ⟨control, -, hm⟩ := Option.bind_eq_some_iff.mp hm
      split at hm
      · cases hm
      · cases hm
        apply onAttach_uniform (uniform_throw _)
    · cases hm
  · cases hm

/-- An action that is not to submit does the same to brokers that differ in alike stores. -/
theorem perform_alike {m : BrokerM Unit} (h : b.Alike b') (hb' : b'.Sound config)
    (hsubmit : ¬ action.IsSubmit) (hm : perform config b action = some m) :
  ∃ m', perform config b' action = some m' ∧ (stateOf (m.run b)).Alike (stateOf (m'.run b'))
  := by
  have hsame : (∀ bootId now, action ≠ .restart bootId now) →
      perform config b' action = perform config b action := by
    intro hrestart
    rw [h.memory]
    cases action with
    | restart bootId now => exact (hrestart bootId now rfl).elim
    | _ => rfl
  have huniform : (∀ bootId now, action ≠ .restart bootId now) → Uniform SessionBroker.Alike m →
      ∃ m', perform config b' action = some m'
        ∧ (stateOf (m.run b)).Alike (stateOf (m'.run b')) := by
    intro hrestart hm'
    refine ⟨m, (hsame hrestart).trans hm, ?_⟩
    apply (hm' b b' h).stateOf
  cases action with
  | submit request statementId resultSetId now => exact (hsubmit trivial).elim
  | cancel statementId epoch now =>
      cases hm
      apply huniform nofun
      apply uniform_discard (cancel_uniform _ _ _ _)
  | close sessionId epoch reason now =>
      cases hm
      apply huniform nofun
      apply close_uniform
  | timer now =>
      cases hm
      apply huniform nofun
      apply runTimersOnce_uniform
  | lane sessionId input now => apply huniform nofun (laneStep_uniform hm)
  | control datasourceId input now =>
      apply huniform nofun
      obtain ⟨control, -, hm⟩ := Option.bind_eq_some_iff.mp hm
      apply controlNext_uniform hm
  | shutdown now =>
      cases hm
      apply huniform nofun
      apply shutdown_uniform
  | stopControl datasourceId =>
      apply huniform nofun
      rw [perform] at hm
      split at hm
      · obtain ⟨control, -, rfl⟩ := Option.map_eq_some_iff.mp hm
        apply stopControl_uniform
      · cases hm
  | restart bootId now =>
      cases hm
      refine ⟨_, rfl, ?_⟩
      show (b.restarted bootId now).Alike (b'.restarted bootId now)
      constructor
      · rw [h.memory]
        rfl
      · apply h.store.startupSweep
  | attachEnter request =>
      apply huniform nofun
      change attachStep config b (.attachEnter request) = some m at hm
      apply attachStep_uniform _ hm
      nofun
  | attachSerial sessionId connectionRaises now =>
      refine ⟨m, (hsame nofun).trans hm, ?_⟩
      change attachStep config b (.attachSerial sessionId connectionRaises now) = some m at hm
      rw [attachStep] at hm
      split at hm
      · cases hm
        apply Matched.stateOf
        apply matched_onRaise (attachSerial_matched _ _ _ _ h hb')
        intro b b' h
        apply h.change (fun _ _ => rfl)
      · cases hm
  | attachControl channelRaises startRaises =>
      apply huniform nofun
      change attachStep config b (.attachControl channelRaises startRaises) = some m at hm
      apply attachStep_uniform _ hm
      nofun
  | attachReady storeRaises =>
      apply huniform nofun
      change attachStep config b (.attachReady storeRaises) = some m at hm
      apply attachStep_uniform _ hm
      nofun
  | attachTimeout =>
      apply huniform nofun
      change attachStep config b .attachTimeout = some m at hm
      apply attachStep_uniform _ hm
      nofun

/-- What is new to one broker is new to the other. -/
theorem fresh_alike (h : b.Alike b') (hfresh : action.Fresh b) :
  action.Fresh b'
  := by
  have hnone : ∀ {α : Type} {d d' : Dict Text α} {k : Text}, d'.contains k = d.contains k →
      d.get? k = none → d'.get? k = none := by
    intro α d d' k hcontains hk
    rw [Dict.contains, Dict.contains, hk] at hcontains
    simpa using hcontains
  cases action with
  | attachSerial sessionId connectionRaises now =>
      apply hnone (h.store.containsSession sessionId) hfresh
  | submit request statementId resultSetId now =>
      apply hnone (h.store.containsStatement statementId) hfresh
  | restart bootId now =>
      intro k session hk
      have hboot := congrArg (fun d => d.get? k) h.store.sessions
      simp only [Dict.get?_mapValues, hk, Option.map_some] at hboot
      obtain ⟨row, hrow, heq⟩ := Option.map_eq_some_iff.mp hboot.symm
      rw [← heq]
      apply hfresh k row hrow
  | _ => apply hfresh

end Alike

end Registry

end Broker

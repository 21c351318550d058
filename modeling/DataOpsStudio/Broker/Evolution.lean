import DataOpsStudio.Broker.Registry

/-!
# How the registry changes

Every action moves each session of the registry as it may move while the lock is held, or by one
step if the action is one of its lane or the report of a command for it; it keeps the registry
sound and leaves the records of sessions outside the registry alone.
-/

namespace Broker

open Text Program

/-! ### One registry after another -/

/-- The sessions of a registry afterwards: they are the same ones, each has changed as the
relation says, and the records of other sessions are as they were. -/
structure Evolves (config : BrokerConfig) (R : Text → View → View → Prop) (b b' : SessionBroker) :
    Prop where
  sound : b'.Sound config
  keys : b'.sessions.keys = b.sessions.keys
  sessions : ∀ k runtime, b.sessions.get? k = some runtime →
    ∃ runtime', b'.sessions.get? k = some runtime' ∧ runtime.session.Kin runtime'.session
      ∧ (∀ s statement, runtime.statements.get? s = some statement →
        ∃ statement', runtime'.statements.get? s = some statement' ∧ statement.Same statement')
      ∧ R k (b.focus runtime).view (b'.focus runtime').view
  foreignSessions : ∀ k session, b.sessions.get? k = none →
    b.store.sessions.get? k = some session → b'.store.sessions.get? k = some session
  foreignStatements : ∀ s statement, b.sessions.get? statement.sessionId = none →
    (b'.store.statements.get? s = some statement ↔ b.store.statements.get? s = some statement)

namespace Evolves

variable {config : BrokerConfig} {R R' : Text → View → View → Prop} {b b' b'' : SessionBroker}

theorem get?_eq_none (h : Evolves config R b b') {k : Text} :
  b'.sessions.get? k = none ↔ b.sessions.get? k = none
  := by
  rw [Dict.get?_eq_none_iff, Dict.get?_eq_none_iff, h.keys]

/-- Every session was there before. -/
theorem exists_before (h : Evolves config R b b') {k : Text} {runtime' : SessionRuntime}
    (hk : b'.sessions.get? k = some runtime') :
  ∃ runtime, b.sessions.get? k = some runtime
  := by
  cases hbefore : b.sessions.get? k with
  | none =>
      rw [h.get?_eq_none.mpr hbefore] at hk
      cases hk
  | some runtime => exact ⟨runtime, rfl⟩

theorem mono (h : Evolves config R b b')
    (hR : ∀ k v w, v.Sound config.mailboxSize → R k v w → R' k v w) (hb : b.Sound config) :
  Evolves config R' b b'
  := by
  refine ⟨h.sound, h.keys, ?_, h.foreignSessions, h.foreignStatements⟩
  intro k runtime hk
  obtain ⟨runtime', hk', hkin, hsame, hview⟩ := h.sessions k runtime hk
  exact ⟨runtime', hk', hkin, hsame, hR k _ _ (hb.view k runtime hk) hview⟩

theorem refl (hb : b.Sound config) (hR : ∀ k v, R k v v) :
  Evolves config R b b
  := by
  refine ⟨hb, rfl, ?_, fun _ _ _ hk => hk, fun _ _ _ => Iff.rfl⟩
  intro k runtime hk
  refine ⟨runtime, hk, ⟨rfl, rfl, rfl, rfl, rfl⟩, ?_, hR k _⟩
  intro s statement hs
  exact ⟨statement, hs, rfl, rfl, rfl⟩

theorem trans (h : Evolves config R b b') (h' : Evolves config R' b' b'') :
  Evolves config (fun k v w => ∃ u, R k v u ∧ R' k u w) b b''
  := by
  constructor
  · apply h'.sound
  · rw [h'.keys, h.keys]
  · intro k runtime hk
    obtain ⟨runtime', hk', hkin, hsame, hview⟩ := h.sessions k runtime hk
    obtain ⟨runtime'', hk'', hkin', hsame', hview'⟩ := h'.sessions k runtime' hk'
    refine ⟨runtime'', hk'', hkin.trans hkin', ?_, _, hview, hview'⟩
    intro s statement hs
    obtain ⟨statement', hs', hstatement⟩ := hsame s statement hs
    obtain ⟨statement'', hs'', hstatement'⟩ := hsame' s statement' hs'
    exact ⟨statement'', hs'', hstatement.trans hstatement'⟩
  · intro k session hk hsession
    apply h'.foreignSessions k session (h.get?_eq_none.mpr hk)
    apply h.foreignSessions k session hk hsession
  · intro s statement hk
    rw [h'.foreignStatements s statement (h.get?_eq_none.mpr hk), h.foreignStatements s statement hk]

end Evolves

section Unfocus

variable {config : BrokerConfig} {b : SessionBroker} {k : Text} {runtime : SessionRuntime}
  {c : Focus}

/-- A program on a session of the registry changes that session, and no other. -/
theorem evolves_unfocus {R : Text → View → View → Prop} (h : b.Sound config)
    (hk : b.sessions.get? k = some runtime) (hserved : Served (b.focus runtime) c)
    (hview : c.view.Sound config.mailboxSize)
    (hactive : c.runtime.session.state.IsActive → runtime.session.state.IsActive)
    (hlane : b.attaching = none ∨ (runtime.lane = .unstarted → c.runtime.lane = .unstarted))
    (hown : R k (b.focus runtime).view c.view) (hothers : ∀ k' v, k' ≠ k → R k' v v) :
  Evolves config R b (b.unfocus k c)
  := by
  have hid : (b.focus runtime).runtime.session.id = k := h.id k runtime hk
  constructor
  · apply h.unfocus hk hserved hview hactive hlane
  · apply Dict.keys_set_of_contains
    rw [Dict.contains, hk]
    rfl
  · intro k' runtime' hk'
    obtain ⟨runtime'', hk'', hkin, hsame⟩ := hserved.exists_unfocus hk hk'
    refine ⟨runtime'', hk'', hkin, hsame, ?_⟩
    obtain ⟨rfl, rfl⟩ | ⟨hne, hold⟩ := unfocus_get? hk hk''
    · obtain rfl := Option.some.inj (hk.symm.trans hk')
      apply hown
    · obtain rfl := Option.some.inj (hold.symm.trans hk')
      have hother : runtime''.session.id ≠ (b.focus runtime).runtime.session.id := by
        rw [hid, h.id k' runtime'' hold]
        apply hne
      rw [show ((b.unfocus k c).focus runtime'').view = (b.focus runtime'').view from
        hserved.view_other hother]
      apply hothers k' _ hne
  · intro k' session hk' hsession
    apply (hserved.sessions k' _).trans hsession
    rw [hid]
    rintro rfl
    rw [hk] at hk'
    cases hk'
  · intro s statement hk'
    apply hserved.statements
    rw [hid]
    intro heq
    rw [heq, hk] at hk'
    cases hk'

end Unfocus

/-! ### What else stays -/

/-- What a program on sessions leaves alone: the history, the attachment that is under way and
the epochs. -/
structure Leaves (b b' : SessionBroker) : Prop where
  history : b'.history = b.history
  attaching : b'.attaching = b.attaching
  epochs : b'.store.epochs = b.store.epochs
  epoch : ∀ k runtime, b.sessions.get? k = some runtime →
    ∃ runtime', b'.sessions.get? k = some runtime' ∧ runtime'.session.epoch = runtime.session.epoch

namespace Leaves

variable {b b' b'' : SessionBroker}

theorem refl (b : SessionBroker) :
  Leaves b b
  := ⟨rfl, rfl, rfl, fun _ runtime hk => ⟨runtime, hk, rfl⟩⟩

theorem trans (h : Leaves b b') (h' : Leaves b' b'') :
  Leaves b b''
  := by
  refine ⟨h'.history.trans h.history, h'.attaching.trans h.attaching, h'.epochs.trans h.epochs, ?_⟩
  intro k runtime hk
  obtain ⟨runtime', hk', hepoch⟩ := h.epoch k runtime hk
  obtain ⟨runtime'', hk'', hepoch'⟩ := h'.epoch k runtime' hk'
  exact ⟨runtime'', hk'', hepoch'.trans hepoch⟩

theorem unfocus {k : Text} {runtime : SessionRuntime} {c : Focus}
    (hk : b.sessions.get? k = some runtime) (hepochs : c.store.epochs = b.store.epochs)
    (hepoch : c.runtime.session.epoch = runtime.session.epoch) :
  Leaves b (b.unfocus k c)
  := by
  refine ⟨rfl, rfl, hepochs, ?_⟩
  intro k' runtime' hk'
  by_cases hne : k' = k
  · subst hne
    obtain rfl := Option.some.inj (hk.symm.trans hk')
    exact ⟨c.runtime, unfocus_get?_self, hepoch⟩
  · exact ⟨runtime', (unfocus_get?_of_ne hne).trans hk', rfl⟩

end Leaves

/-! ### Clients and the timer -/

/-- One session moves, and the others stay. -/
def MovesAt (config : BrokerConfig) (k : Text) (k' : Text) (v w : View) : Prop :=
  k' = k ∧ Moves config.mailboxSize v w ∨ k' ≠ k ∧ w = v

section Clients

variable {config : BrokerConfig} {b : SessionBroker} {k : Text} {runtime : SessionRuntime}

/-- A program that moves a session, run on a session of the registry. -/
theorem evolves_of_moves {c : Focus} (h : b.Sound config) (hk : b.sessions.get? k = some runtime)
    (hserved : Served (b.focus runtime) c)
    (hmoves : Moves config.mailboxSize (b.focus runtime).view c.view) :
  Evolves config (MovesAt config k) b (b.unfocus k c)
  := by
  have hv := h.view k runtime hk
  apply evolves_unfocus h hk hserved
  · apply hmoves.sound hv
  · apply (hmoves.sessionEdge hv).isActive
  · right
    intro hlane
    apply hmoves.lane.trans hlane
  · exact .inl ⟨rfl, hmoves⟩
  · intro k' v hne
    exact .inr ⟨hne, rfl⟩

theorem ensures_onRuntime {α : Type} {m : SessionM α} {Q : α → SessionBroker → Prop}
    {E : BrokerExn → SessionBroker → Prop} (hk : b.sessions.get? k = some runtime) :
  Ensures (onRuntime k m) b Q E
    ↔ Ensures m (b.focus runtime) (fun a c => Q a (b.unfocus k c)) (fun e c => E e (b.unfocus k c))
  := by
  simp only [onRuntime, ensures_bind, ensures_get, hk]
  rw [ensures_onPart]

theorem onRuntime_moving {α : Type} {m : SessionM α} (h : b.Sound config)
    (hk : b.sessions.get? k = some runtime) (hm : Moving config.mailboxSize m (b.focus runtime)) :
  Ensures (onRuntime k m) b
    (fun _ b' => Evolves config (MovesAt config k) b b' ∧ Leaves b b')
    (fun _ _ => False)
  := by
  have hwf := h.wellformed k runtime hk
  rw [ensures_onRuntime hk]
  apply hm.mono
  · rintro _ c ⟨hkept, hmoves⟩
    constructor
    · apply evolves_of_moves h hk (hkept.served hwf (h.requested k runtime hk)) hmoves
    · apply Leaves.unfocus hk hkept.epochs hkept.session.epoch
  · intro e c hfalse
    apply hfalse

/-- The sessions of a list move, and the others stay. -/
def MovesOn (config : BrokerConfig) (ks : List Text) (k : Text) (v w : View) : Prop :=
  k ∈ ks ∧ Moves config.mailboxSize v w ∨ k ∉ ks ∧ w = v

/-- A program that moves a session, run on sessions of the registry one after the other. -/
theorem forM_onRuntime_moving {m : SessionM Unit} (ks : List Text) (hnodup : ks.Nodup)
    (h : b.Sound config) (hks : ∀ k ∈ ks, b.sessions.contains k = true)
    (hm : ∀ c : Focus, c.Wellformed → c.view.Sound config.mailboxSize →
      Moving config.mailboxSize m c) :
  Ensures (ks.forM (fun k => onRuntime k m)) b
    (fun _ b' => Evolves config (MovesOn config ks) b b' ∧ Leaves b b')
    (fun _ _ => False)
  := by
  induction ks generalizing b with
  | nil =>
      constructor
      · apply Evolves.refl h
        intro k v
        exact .inr ⟨nofun, rfl⟩
      · apply Leaves.refl
  | cons k ks ih =>
      obtain ⟨hfresh, hnodup⟩ := List.nodup_cons.mp hnodup
      obtain ⟨runtime, hk⟩ := Option.isSome_iff_exists.mp (hks k List.mem_cons_self)
      rw [show (k :: ks).forM (fun k => onRuntime k m)
        = onRuntime k m >>= fun _ => ks.forM (fun k => onRuntime k m) from rfl, ensures_bind]
      apply (onRuntime_moving h hk
        (hm _ (h.wellformed k runtime hk) (h.view k runtime hk))).mono
      · rintro _ b₁ ⟨hevolves₁, hleaves₁⟩
        have hks₁ : ∀ k' ∈ ks, b₁.sessions.contains k' = true := by
          intro k' hk'
          obtain ⟨old, hold⟩ := Option.isSome_iff_exists.mp (hks k' (List.mem_cons_of_mem _ hk'))
          obtain ⟨new, hnew, -⟩ := hevolves₁.sessions k' old hold
          exact Option.isSome_iff_exists.mpr ⟨new, hnew⟩
        apply (ih hnodup hevolves₁.sound hks₁).mono
        · rintro _ b₂ ⟨hevolves₂, hleaves₂⟩
          refine ⟨(hevolves₁.trans hevolves₂).mono ?_ h, hleaves₁.trans hleaves₂⟩
          -- the session is moved in one of the two parts, and stays in the other
          rintro k' v w - ⟨u, hfirst, hsecond⟩
          obtain ⟨rfl, hmoves⟩ | ⟨hne, rfl⟩ := hfirst
          · obtain ⟨hmem, -⟩ | ⟨-, rfl⟩ := hsecond
            · exact (hfresh hmem).elim
            · exact .inl ⟨List.mem_cons_self, hmoves⟩
          · obtain ⟨hmem, hmoves⟩ | ⟨hnot, rfl⟩ := hsecond
            · exact .inl ⟨List.mem_cons_of_mem _ hmem, hmoves⟩
            · exact .inr ⟨by simp [hne, hnot], rfl⟩
        · intro e b' hfalse
          apply hfalse
      · intro e b' hfalse
        apply hfalse

end Clients

/-! ### Submitting, cancelling, closing -/

/-- What the broker raises by design, and not because something is amiss. -/
def BrokerExn.IsRefusal : BrokerExn → Prop
  | .brokerError _ _ => True
  | .valueError _ => True
  | .resultsError => True
  | .factoryError => True
  | .runtimeError message => message = "broker is not running".toList
      ∨ message = "control lane did not start".toList
      ∨ message = "can't start new thread".toList
  | _ => False

/-- The sessions move as they may move while the lock is held, and nothing else happens. -/
def Calm (config : BrokerConfig) (b b' : SessionBroker) : Prop :=
  Evolves config (fun _ => Moves config.mailboxSize) b b' ∧ Leaves b b'

section Submit

variable {config : BrokerConfig} {b : SessionBroker} {k : Text} {runtime : SessionRuntime}

theorem Calm.refl (h : b.Sound config) :
  Calm config b b
  := ⟨Evolves.refl h (fun _ v => Moves.refl v), Leaves.refl b⟩

theorem calm_of_movesAt {b' : SessionBroker} (h : b.Sound config)
    (hevolves : Evolves config (MovesAt config k) b b') (hleaves : Leaves b b') :
  Calm config b b'
  := by
  refine ⟨hevolves.mono ?_ h, hleaves⟩
  rintro k' v w - (⟨-, hmoves⟩ | ⟨-, rfl⟩)
  · apply hmoves
  · apply Moves.refl

/-- The broker with a statement in the register of statements. -/
def SessionBroker.enter (b : SessionBroker) (s k : Text) : SessionBroker :=
  { b with statementSessions := b.statementSessions.set s k }

/-- A statement of a session may be entered in the register of statements. -/
theorem SessionBroker.Sound.enter {s : Text} (h : b.Sound config)
    (hk : b.sessions.get? k = some runtime) (hs : runtime.statements.contains s = true) :
  (b.enter s k).Sound config
  := by
  refine ⟨h.store, h.id, h.wellformed, h.requested, h.view, h.commands, ?_, h.consoles, h.active,
    h.attaching⟩
  intro s' k' hs'
  by_cases hne : s = s'
  · subst hne
    rw [SessionBroker.enter, Dict.get?_set_self] at hs'
    obtain rfl := Option.some.inj hs'
    exact ⟨runtime, hk, hs⟩
  · rw [SessionBroker.enter, Dict.get?_set_of_ne _ _ hne] at hs'
    apply h.statements s' k' hs'

theorem acceptStatement_spec {request : SubmitRequest} {statementId : Text}
    {resultSetId : Option Text} {now : ℤ} (h : b.Sound config)
    (hk : b.sessions.get? request.sessionId = some runtime)
    (hfresh : b.store.statements.get? statementId = none)
    (hrequest : runtime.requests.get? request.clientRequestId = none)
    (haccepting : runtime.accepting = true) (hactive : runtime.session.state.IsActive)
    (hpending : runtime.pendingCount < config.mailboxSize) :
  Ensures (acceptStatement config request statementId resultSetId now) b
    (fun _ b' => Calm config b b') (fun e b' => e = .resultsError ∧ Calm config b b')
  := by
  have hwf := h.wellformed _ _ hk
  have hr := h.requested _ _ hk
  rw [acceptStatement, ensures_bind, ensures_onRuntime hk]
  apply (recordStatement_spec hwf hr hfresh hrequest).mono
  · rintro ⟨statement, deduplicated⟩ c ⟨rfl, -, -, hnew, rfl⟩
    rw [ensures_bind, ensures_modify]
    dsimp only
    have hget : ((b.unfocus request.sessionId ((b.focus runtime).record statement)).enter
        statement.id request.sessionId).sessions.get? request.sessionId
        = some ((b.focus runtime).record statement).runtime := unfocus_get?_self
    rw [if_neg Bool.false_ne_true, ensures_bind]
    show Ensures _ ((b.unfocus request.sessionId ((b.focus runtime).record statement)).enter
      statement.id request.sessionId) _ _
    rw [ensures_onRuntime hget]
    -- what is left after the statement is recorded and entered
    have hafter : ∀ c', Kept ((b.focus runtime).record statement) c' →
        Moves config.mailboxSize (b.focus runtime).view c'.view →
        Calm config b (((b.unfocus request.sessionId ((b.focus runtime).record statement)).enter
          statement.id request.sessionId).unfocus request.sessionId c') := by
      intro c' hkept hmoves
      have hsame : ((b.unfocus request.sessionId ((b.focus runtime).record statement)).enter
          statement.id request.sessionId).unfocus request.sessionId c'
          = (b.unfocus request.sessionId c').enter statement.id request.sessionId := by
        simp only [SessionBroker.enter, SessionBroker.unfocus, Dict.set_set]
      have hserved : Served (b.focus runtime) c' :=
        (hnew.served hwf hr).trans (hkept.served (hnew.wellformed hwf) (hnew.requested hwf hr))
      have hevolves := evolves_of_moves h hk hserved hmoves
      have hleaves : Leaves b (b.unfocus request.sessionId c') :=
        Leaves.unfocus hk hkept.epochs hkept.session.epoch
      obtain ⟨statement', hs', -⟩ := hkept.same statement.id statement (Dict.get?_set_self _ _ _)
      have hsound := hevolves.sound.enter unfocus_get?_self
        (Option.isSome_iff_exists.mpr ⟨statement', hs'⟩)
      obtain ⟨⟨-, hkeys, hsessions, hforeign, hforeign'⟩, hleaves⟩ :=
        calm_of_movesAt h hevolves hleaves
      rw [hsame]
      exact ⟨⟨hsound, hkeys, hsessions, hforeign, hforeign'⟩,
        ⟨hleaves.history, hleaves.attaching, hleaves.epochs, hleaves.epoch⟩⟩
    apply (enqueueStatement_spec hwf hnew (h.view _ _ hk) haccepting hactive hpending).mono
    · rintro _ c' ⟨hkept, hmoves⟩
      apply hafter c' hkept hmoves
    · rintro e c' ⟨he, hkept, hmoves⟩
      exact ⟨he, hafter c' hkept hmoves⟩
  · intro e c hfalse
    apply hfalse.elim

end Submit

/-- A program of the broker that calms down refuses by design, if at all. -/
def Calms {α : Type} (config : BrokerConfig) (m : BrokerM α) (b : SessionBroker) : Prop :=
  Ensures m b (fun _ b' => Calm config b b') (fun e b' => e.IsRefusal ∧ Calm config b b')

section Programs

variable {config : BrokerConfig} {b : SessionBroker} {now : ℤ}

theorem calms_of_moving {α : Type} {m : SessionM α} {k : Text} {runtime : SessionRuntime}
    (h : b.Sound config) (hk : b.sessions.get? k = some runtime)
    (hm : Moving config.mailboxSize m (b.focus runtime)) :
  Calms config (onRuntime k m) b
  := by
  apply (onRuntime_moving h hk hm).mono
  · rintro _ b' ⟨hevolves, hleaves⟩
    apply calm_of_movesAt h hevolves hleaves
  · intro e b' hfalse
    apply hfalse.elim

theorem submit_calms {request : SubmitRequest} {statementId : Text} {resultSetId : Option Text}
    (h : b.Sound config) (hfresh : b.store.statements.get? statementId = none) :
  Calms config (submit config request statementId resultSetId now) b
  := by
  have hcalm := Calm.refl h
  simp only [Calms, submit, validateSubmit, requireRuntime, requireEpoch, ensures_bind,
    ensures_when, ensures_throw, ensures_get]
  refine ⟨fun _ => ⟨trivial, hcalm⟩, fun _ => ⟨fun _ => ⟨trivial, hcalm⟩, fun _ =>
    ⟨fun _ => ⟨trivial, hcalm⟩, fun _ => ?_⟩⟩⟩
  cases hk : b.sessions.get? request.sessionId with
  | none => exact ⟨trivial, hcalm⟩
  | some runtime =>
      rw [demand_some, ensures_pure]
      refine ⟨fun _ => ⟨trivial, hcalm⟩, fun _ => ?_⟩
      cases hrequest : runtime.requests.get? request.clientRequestId with
      | some replayId =>
          obtain ⟨statement, hs, -⟩ := (h.requested _ _ hk).known _ _ hrequest
          have hs' : runtime.statements.get? replayId = some statement := hs
          dsimp only
          rw [ensures_bind, hs', demand_some, ensures_pure]
          exact hcalm
      | none =>
          simp only [ensures_ite, ensures_throw]
          refine ⟨fun _ => ⟨trivial, hcalm⟩, fun haccepting => ⟨fun _ => ⟨trivial, hcalm⟩,
            fun hpending => ?_⟩⟩
          rw [not_or, Bool.not_eq_false, not_not] at haccepting
          apply (acceptStatement_spec h hk hfresh hrequest haccepting.1 haccepting.2
            (by omega)).mono
          · intro _ b' hcalm
            apply hcalm
          · rintro e b' ⟨rfl, hcalm⟩
            exact ⟨trivial, hcalm⟩

theorem cancel_calms {s : Text} {epoch : ℤ} (h : b.Sound config) :
  Calms config (cancel config s epoch now) b
  := by
  have hcalm := Calm.refl h
  simp only [Calms, cancel, runtimeForStatement, requireRuntime, requireEpoch, ensures_bind,
    ensures_when, ensures_throw, ensures_get]
  cases hs : b.statementSessions.get? s with
  | none => exact ⟨trivial, hcalm⟩
  | some k =>
      obtain ⟨runtime, hk, hcontains⟩ := h.statements s k hs
      simp only [demand_some, ensures_pure, hk]
      refine ⟨fun _ => ⟨trivial, hcalm⟩, fun _ => ?_⟩
      apply calms_of_moving h hk
      apply cancelStatement_moving (h.wellformed k runtime hk) (h.view k runtime hk) hcontains

theorem close_calms {k reason : Text} {epoch : ℤ} (h : b.Sound config) :
  Calms config (close config k epoch reason now) b
  := by
  have hcalm := Calm.refl h
  simp only [Calms, close, requireRuntime, requireEpoch, ensures_bind, ensures_when, ensures_throw,
    ensures_get]
  cases hk : b.sessions.get? k with
  | none => exact ⟨trivial, hcalm⟩
  | some runtime =>
      rw [demand_some, ensures_pure]
      refine ⟨fun _ => ⟨trivial, hcalm⟩, fun _ => ?_⟩
      apply calms_of_moving h hk
      apply queueCloseLocked_moving (h.wellformed k runtime hk) (h.view k runtime hk)

/-- A program that moves a session, run on all sessions of the registry. -/
theorem calms_forM {m : SessionM Unit} (h : b.Sound config)
    (hm : ∀ c : Focus, c.Wellformed → c.view.Sound config.mailboxSize →
      Moving config.mailboxSize m c) :
  Calms config (b.sessions.keys.forM (fun k => onRuntime k m)) b
  := by
  apply (forM_onRuntime_moving b.sessions.keys b.sessions.keys_nodup h _ hm).mono
  · rintro _ b' ⟨hevolves, hleaves⟩
    refine ⟨hevolves.mono ?_ h, hleaves⟩
    rintro k v w - (⟨-, hmoves⟩ | ⟨-, rfl⟩)
    · apply hmoves
    · apply Moves.refl
  · intro e b' hfalse
    apply hfalse.elim
  · intro k hk
    apply Option.isSome_iff_exists.mpr (Dict.mem_keys_iff.mp hk)

theorem runTimersOnce_calms (h : b.Sound config) :
  Calms config (runTimersOnce config now) b
  := by
  rw [Calms, runTimersOnce, ensures_bind, ensures_get]
  apply calms_forM h
  intro c hc hv
  apply runTimers_moving hc hv

theorem shutdown_calms (h : b.Sound config) :
  Calms config (shutdown config now) b
  := by
  rw [Calms, shutdown, ensures_bind, ensures_get, ensures_when]
  constructor
  · intro _
    rw [ensures_bind, ensures_modify, ensures_bind, ensures_get]
    have hdown : ({ b with isShutdown := true } : SessionBroker).Sound config :=
      ⟨h.store, h.id, h.wellformed, h.requested, h.view, h.commands, h.statements, h.consoles,
        h.active, h.attaching⟩
    apply (calms_forM hdown _).mono
    · rintro _ b' ⟨⟨hsound, hkeys, hsessions, hforeign, hforeign'⟩, hleaves⟩
      exact ⟨⟨hsound, hkeys, hsessions, hforeign, hforeign'⟩,
        ⟨hleaves.history, hleaves.attaching, hleaves.epochs, hleaves.epoch⟩⟩
    · rintro e b' ⟨he, ⟨hsound, hkeys, hsessions, hforeign, hforeign'⟩, hleaves⟩
      exact ⟨he, ⟨hsound, hkeys, hsessions, hforeign, hforeign'⟩,
        ⟨hleaves.history, hleaves.attaching, hleaves.epochs, hleaves.epoch⟩⟩
    · intro c hc hv
      apply shutdownSession_moving hc hv
  · intro _
    apply Calm.refl h

end Programs

end Broker

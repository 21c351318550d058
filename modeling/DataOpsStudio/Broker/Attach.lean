import DataOpsStudio.Broker.Simulation

/-!
# Attachments

An attachment finds the live session of its console, or makes one and starts its lane.  What it
does between two points where another thread may come in is a step of the broker, and it may
raise at each of them.
-/

namespace Broker

open Text Program

/-! ### Attaching -/

/-- The broker with another point of the attachment. -/
def SessionBroker.attachAt (b : SessionBroker) (attaching : Option AttachPoint) : SessionBroker :=
  { b with attaching := attaching }

section Attach

variable {config : BrokerConfig} {b : SessionBroker}

theorem SessionBroker.Sound.attachAt (h : b.Sound config) {attaching : Option AttachPoint}
    (hpoint : ∀ point, attaching = some point → point.Sound b) :
  (b.attachAt attaching).Sound config
  := by
  refine ⟨h.store, h.id, h.wellformed, h.requested, h.view, h.commands, h.statements, h.consoles,
    h.active, ?_⟩
  intro point hattaching
  have hsound := hpoint point hattaching
  cases point with
  | entered request => trivial
  | created request k => apply hsound
  | awaiting request k => apply hsound

theorem Evolves.attachAt {R : Text → View → View → Prop} {b' : SessionBroker}
    (h : Evolves config R b b') {attaching : Option AttachPoint}
    (hpoint : ∀ point, attaching = some point → point.Sound b') :
  Evolves config R b (b'.attachAt attaching)
  := ⟨h.sound.attachAt hpoint, h.keys, h.sessions, h.foreignSessions, h.foreignStatements⟩

theorem evolves_attachAt {R : Text → View → View → Prop} (h : b.Sound config)
    {attaching : Option AttachPoint} (hpoint : ∀ point, attaching = some point → point.Sound b)
    (hR : ∀ k v, R k v v) :
  Evolves config R b (b.attachAt attaching)
  := (Evolves.refl h hR).attachAt hpoint

/-- The live session of a console is in the registry. -/
theorem SessionBroker.Sound.exists_of_liveSession (h : b.Sound config) {consoleId : Text}
    {runtime : SessionRuntime} (hlive : b.liveSession consoleId = some runtime) :
  ∃ k, b.sessions.get? k = some runtime ∧ runtime.session.consoleId = consoleId
  := by
  rw [SessionBroker.liveSession] at hlive
  cases hconsole : b.consoleSessions.get? consoleId with
  | none =>
      rw [hconsole] at hlive
      cases hlive
  | some k =>
      obtain ⟨runtime', hk, hsession⟩ := h.consoles consoleId k hconsole
      rw [hconsole, Option.bind_some, hk] at hlive
      dsimp only at hlive
      split at hlive
      · obtain rfl := Option.some.inj hlive
        exact ⟨k, hk, hsession⟩
      · cases hlive

end Attach

/-! ### Attaching to a session that is there -/

section Reuse

variable {config : BrokerConfig} {b : SessionBroker} {k : Text} {runtime : SessionRuntime}
  {now : ℤ}

/-- The session in focus, attached to once more. -/
def Focus.reattach (config : BrokerConfig) (consoleId : Text) (now : ℤ) (c : Focus) : Focus :=
  let attached := { c.runtime.session with
    epoch := c.store.nextEpoch consoleId, lastActivityAt := now }
  { c with
    runtime := { c.runtime with
      session := attached, idleDeadline := some (idleDeadlineAfter config now) }
    store := { c.store with
      epochs := c.store.epochs.set consoleId (c.store.nextEpoch consoleId)
      sessions := c.store.sessions.set attached.id attached } }

theorem Focus.reattach_served {c : Focus} (config : BrokerConfig) (consoleId : Text) (now : ℤ)
    (h : c.Wellformed) (hr : c.Requested) :
  Served c (c.reattach config consoleId now)
  := by
  obtain ⟨hstored, hkeyed, hmirrored, hcontrolled⟩ := h
  obtain ⟨hlisted, hknown⟩ := hr
  refine ⟨⟨?_, hkeyed, hmirrored, hcontrolled⟩, ⟨hlisted, hknown⟩, ⟨rfl, rfl, rfl, rfl, rfl⟩, ?_, ?_,
    fun _ _ _ => Iff.rfl, Posted.refl _ _ _⟩
  · apply Dict.get?_set_self
  · intro s statement hs
    exact ⟨statement, hs, rfl, rfl, rfl⟩
  · intro k' hne
    apply Dict.get?_set_of_ne _ _ hne.symm

/-- The history with an attachment that has returned. -/
def History.attach (history : History) (consoleId : Text) (epoch : ℤ) : History :=
  { history with attached := history.attached ++ [(consoleId, epoch)] }

/-- To attach to the live session of a console changes its epoch. -/
theorem attachReuse_spec (request : AttachRequest) (h : b.Sound config)
    (hk : b.sessions.get? k = some runtime) :
  Ensures (attachReuse config request runtime now) b
    (fun _ b' => b' = ((b.unfocus k ((b.focus runtime).reattach config request.consoleId
      now)).attachAt none).noting (b.history.attach runtime.session.consoleId
        (b.store.nextEpoch request.consoleId)))
    (fun _ _ => False)
  := by
  have hid := h.id k runtime hk
  have hstored : b.store.sessions.get? runtime.session.id = some runtime.session :=
    (h.wellformed k runtime hk).stored
  simp only [attachReuse, onBrokerStore, MemoryBrokerStore.attachSession, returnAttached,
    ensures_bind, ensures_get, ensures_onPart, ensures_modify, hstored, ensures_pure]
  subst hid
  rfl

theorem evolves_reattach (h : b.Sound config) (hk : b.sessions.get? k = some runtime)
    (consoleId : Text) (history : History) :
  Evolves config (fun _ v w => w = v) b
    (((b.unfocus k ((b.focus runtime).reattach config consoleId now)).attachAt none).noting history)
  := by
  have hserved := Focus.reattach_served config consoleId now (h.wellformed k runtime hk)
    (h.requested k runtime hk)
  have hevolves : Evolves config (fun _ v w => w = v) b
      (b.unfocus k ((b.focus runtime).reattach config consoleId now)) := by
    apply evolves_unfocus h hk hserved
    · apply h.view k runtime hk
    · exact id
    · exact .inr id
    · rfl
    · intro k' v _
      rfl
  have hsound : ((b.unfocus k ((b.focus runtime).reattach config consoleId now)).attachAt
      none).Sound config := by
    apply hevolves.sound.attachAt
    intro point hpoint
    cases hpoint
  exact ⟨hsound.noting history, hevolves.keys, hevolves.sessions, hevolves.foreignSessions,
    hevolves.foreignStatements⟩

end Reuse

/-! ### Making a session -/

section Create

variable {config : BrokerConfig} {b : SessionBroker} {request : AttachRequest} {k : Text}
  {now : ℤ}

/-- The record of a new session. -/
def SessionBroker.newSession (b : SessionBroker) (request : AttachRequest) (k : Text) (now : ℤ) :
    ConsoleSession where
  id := k
  consoleId := request.consoleId
  datasourceId := request.datasourceId
  ownerUserId := request.ownerUserId
  epoch := b.store.nextEpoch request.consoleId
  state := .connecting
  brokerBootId := b.bootId
  createdAt := now
  lastActivityAt := now

/-- The broker with the record of a new session in the store. -/
def SessionBroker.withRow (b : SessionBroker) (request : AttachRequest) (k : Text) (now : ℤ) :
    SessionBroker :=
  { b with
    store := { b.store with
      epochs := b.store.epochs.set request.consoleId (b.store.nextEpoch request.consoleId)
      sessions := b.store.sessions.set k (b.newSession request k now) } }

/-- The broker with a new session. -/
def SessionBroker.create (config : BrokerConfig) (b : SessionBroker) (request : AttachRequest)
    (k : Text) (now : ℤ) : SessionBroker :=
  { b.withRow request k now with
    sessions := b.sessions.set k
      { session := b.newSession request k now
        idleDeadline := some (idleDeadlineAfter config now) }
    consoleSessions := b.consoleSessions.set request.consoleId k
    attaching := some (.created request k) }

/-- The limits leave room for a session. -/
def SessionBroker.Roomy (config : BrokerConfig) (b : SessionBroker) (request : AttachRequest) :
    Prop :=
  b.activeSessions.length < config.limits.globalTotal
    ∧ b.activeSessions.countP (fun session => session.ownerUserId = request.ownerUserId)
      < config.limits.perUser
    ∧ b.activeSessions.countP (fun session => session.datasourceId = request.datasourceId)
      < config.limits.perDatasource

/-- To make a session is refused, fails, or makes it. -/
theorem attachCreate_spec (raises : Bool) :
  Ensures (attachCreate config request k raises now) b
    (fun _ b' => b' = b.create config request k now ∧ b.Roomy config request)
    (fun e b' => e.IsRefusal ∧ (b' = b ∨ b' = b.withRow request k now))
  := by
  simp only [attachCreate, enforceSessionLimits, onBrokerStore, MemoryBrokerStore.attachSession,
    ensures_bind, ensures_get, ensures_when, ensures_throw, ensures_onPart, ensures_modify,
    ensures_pure]
  constructor
  · intro _
    exact ⟨trivial, .inl trivial⟩
  · intro hroom
    constructor
    · intro _
      exact ⟨trivial, .inr rfl⟩
    · intro _
      refine ⟨rfl, ?_⟩
      rw [not_or, not_or, Nat.not_le, Nat.not_le, Nat.not_le] at hroom
      exact hroom

/-- A session that is not in the store is not in the registry. -/
theorem SessionBroker.Sound.get?_eq_none (h : b.Sound config)
    (hfresh : b.store.sessions.get? k = none) :
  b.sessions.get? k = none
  := by
  cases hk : b.sessions.get? k with
  | none => rfl
  | some runtime =>
      have hstored := (h.wellformed k runtime hk).stored
      rw [show (b.focus runtime).runtime.session.id = k from h.id k runtime hk] at hstored
      cases hfresh.symm.trans hstored

/-- Nothing is owed to a session that is not in the registry. -/
theorem SessionBroker.Sound.owedIn_eq_nil (h : b.Sound config) (hk : b.sessions.get? k = none)
    (d : Text) :
  owedIn b.controls d k = []
  := by
  rw [owedIn]
  cases hd : b.controls.get? d with
  | none => rfl
  | some control =>
      rw [Option.map_some, Option.getD_some, ControlLane.owedTo, List.map_eq_nil_iff,
        List.filter_eq_nil_iff]
      intro command hcommand
      obtain ⟨runtime, hruntime, -⟩ := h.commands d control command hd hcommand
      rw [ControlCommand.isFor, decide_eq_true_eq]
      rintro rfl
      cases hk.symm.trans hruntime

/-- The record of a new session in the store changes nothing for the sessions of the
registry. -/
theorem evolves_withRow {R : Text → View → View → Prop} (h : b.Sound config)
    (hfresh : b.store.sessions.get? k = none) (hR : ∀ k v, R k v v) :
  Evolves config R b (b.withRow request k now)
  := by
  have hne : ∀ k' runtime, b.sessions.get? k' = some runtime → k ≠ runtime.session.id := by
    rintro k' runtime hk' rfl
    have hstored : b.store.sessions.get? runtime.session.id = some runtime.session :=
      (h.wellformed k' runtime hk').stored
    cases hfresh.symm.trans hstored
  have hcontains : ∀ k', b.store.sessions.contains k' = true →
      (b.withRow request k now).store.sessions.contains k' = true := by
    intro k' hk'
    by_cases hkk : k = k'
    · subst hkk
      rw [Dict.contains, SessionBroker.withRow, Dict.get?_set_self]
      rfl
    · rw [Dict.contains, SessionBroker.withRow, Dict.get?_set_of_ne _ _ hkk]
      apply hk'
  have hsound : (b.withRow request k now).Sound config := by
    refine ⟨⟨?_, h.store.statementId, ?_, h.store.unique⟩, h.id, ?_, ?_, h.view, h.commands,
      h.statements, h.consoles, h.active, ?_⟩
    · intro k' session hk'
      by_cases hkk : k = k'
      · subst hkk
        rw [SessionBroker.withRow, Dict.get?_set_self] at hk'
        rw [← Option.some.inj hk']
        rfl
      · rw [SessionBroker.withRow, Dict.get?_set_of_ne _ _ hkk] at hk'
        apply h.store.sessionId k' session hk'
    · intro s statement hs
      apply hcontains _ (h.store.owned s statement hs)
    · intro k' runtime hk'
      obtain ⟨hstored, hkeyed, hmirrored, hcontrolled⟩ := h.wellformed k' runtime hk'
      refine ⟨?_, hkeyed, hmirrored, hcontrolled⟩
      apply (Dict.get?_set_of_ne _ _ (hne k' runtime hk')).trans hstored
    · intro k' runtime hk'
      obtain ⟨hlisted, hknown⟩ := h.requested k' runtime hk'
      exact ⟨hlisted, hknown⟩
    · intro point hpoint
      have hsound := h.attaching point hpoint
      cases point with
      | entered request => trivial
      | created request k => apply hsound
      | awaiting request k => apply hsound
  refine ⟨hsound, rfl, ?_, ?_, fun _ _ _ => Iff.rfl⟩
  · intro k' runtime hk'
    refine ⟨runtime, hk', ⟨rfl, rfl, rfl, rfl, rfl⟩, ?_, hR k' _⟩
    intro s statement hs
    exact ⟨statement, hs, rfl, rfl, rfl⟩
  · intro k' session _ hsession
    apply (Dict.get?_set_of_ne _ _ _).trans hsession
    rintro rfl
    cases hfresh.symm.trans hsession

/-- The registry with a new session: the others are as they were. -/
structure Creates (config : BrokerConfig) (k : Text) (b b' : SessionBroker) : Prop where
  sound : b'.Sound config
  new : b.store.sessions.get? k = none
  fresh : b.sessions.get? k = none
  keys : b'.sessions.keys = b.sessions.keys ++ [k]
  created : ∃ runtime, b'.sessions.get? k = some runtime ∧ (b'.focus runtime).view = {}
  sessions : ∀ k' runtime, b.sessions.get? k' = some runtime → b'.sessions.get? k' = some runtime
    ∧ (b'.focus runtime).view = (b.focus runtime).view
  before : ∀ k' runtime, b'.sessions.get? k' = some runtime →
    k' = k ∨ b.sessions.get? k' = some runtime
  foreignSessions : ∀ k' session, b.store.sessions.get? k' = some session →
    b'.store.sessions.get? k' = some session
  foreignStatements : b'.store.statements = b.store.statements

theorem create_get?_of_ne {k' : Text} (hne : k' ≠ k) :
  (b.create config request k now).sessions.get? k' = b.sessions.get? k'
  := Dict.get?_set_of_ne _ _ hne.symm

/-- The new session. -/
theorem create_get?_self :
  (b.create config request k now).sessions.get? k
    = some { session := b.newSession request k now
             idleDeadline := some (idleDeadlineAfter config now) }
  := Dict.get?_set_self _ _ _

/-- A session of the registry is the new one or was there before. -/
theorem create_get? {k' : Text} {runtime : SessionRuntime}
    (hk' : (b.create config request k now).sessions.get? k' = some runtime) :
  k' = k ∧ runtime = { session := b.newSession request k now
                       idleDeadline := some (idleDeadlineAfter config now) }
    ∨ k' ≠ k ∧ b.sessions.get? k' = some runtime
  := by
  by_cases hne : k' = k
  · subst hne
    rw [create_get?_self] at hk'
    exact .inl ⟨rfl, (Option.some.inj hk').symm⟩
  · rw [create_get?_of_ne hne] at hk'
    exact .inr ⟨hne, hk'⟩

/-- An active session of a console is its live session. -/
theorem SessionBroker.Sound.not_active_of_liveSession (h : b.Sound config)
    (hlive : b.liveSession request.consoleId = none) {k' : Text} {runtime : SessionRuntime}
    (hk' : b.sessions.get? k' = some runtime) (hactive : runtime.session.state.IsActive) :
  runtime.session.consoleId ≠ request.consoleId
  := by
  intro hconsole
  have hregistered := h.active k' runtime hk' hactive
  rw [SessionBroker.liveSession, ← hconsole, hregistered, Option.bind_some, hk'] at hlive
  dsimp only at hlive
  rw [if_pos hactive] at hlive
  cases hlive

theorem create_sound (h : b.Sound config) (hfresh : b.store.sessions.get? k = none)
    (hlive : b.liveSession request.consoleId = none) :
  (b.create config request k now).Sound config
  := by
  have hnone := h.get?_eq_none hfresh
  have hrow : (b.withRow request k now).Sound config :=
    (evolves_withRow h hfresh (fun _ v => (rfl : v = v))).sound
  have hkept : ∀ k' runtime, b.sessions.get? k' = some runtime →
      (b.create config request k now).sessions.get? k' = some runtime := by
    intro k' runtime hk'
    rw [create_get?_of_ne]
    · apply hk'
    · rintro rfl
      cases hnone.symm.trans hk'
  constructor
  · apply hrow.store
  · intro k' runtime hk'
    obtain ⟨rfl, rfl⟩ | ⟨-, hk'⟩ := create_get? hk'
    · rfl
    · apply h.id k' runtime hk'
  · intro k' runtime hk'
    obtain ⟨rfl, rfl⟩ | ⟨-, hk'⟩ := create_get? hk'
    · constructor
      · apply Dict.get?_set_self
      · intro s statement hs
        cases (Dict.get?_empty s).symm.trans hs
      · intro s statement
        constructor
        · intro hs
          cases (Dict.get?_empty s).symm.trans hs
        · rintro ⟨hs, hown⟩
          have howned := h.store.owned s statement hs
          rw [show statement.sessionId = k' from hown, Dict.contains, hfresh] at howned
          cases howned
      · intro hlane
        exact (hlane rfl).elim
    · apply hrow.wellformed k' runtime hk'
  · intro k' runtime hk'
    obtain ⟨rfl, rfl⟩ | ⟨-, hk'⟩ := create_get? hk'
    · constructor
      · intro s statement hs
        cases (Dict.get?_empty s).symm.trans hs
      · intro r s hr
        cases (Dict.get?_empty r).symm.trans hr
    · apply hrow.requested k' runtime hk'
  · intro k' runtime hk'
    obtain ⟨rfl, rfl⟩ | ⟨-, hk'⟩ := create_get? hk'
    · apply (View.sound_initial config.mailboxSize).owing
    · apply hrow.view k' runtime hk'
  · intro d control command hd hcommand
    obtain ⟨runtime, hk', hds⟩ := h.commands d control command hd hcommand
    exact ⟨runtime, hkept _ runtime hk', hds⟩
  · intro s k' hs
    obtain ⟨runtime, hk', hcontains⟩ := h.statements s k' hs
    exact ⟨runtime, hkept k' runtime hk', hcontains⟩
  · intro consoleId k' hconsole
    by_cases hne : request.consoleId = consoleId
    · subst hne
      rw [SessionBroker.create, Dict.get?_set_self] at hconsole
      obtain rfl := Option.some.inj hconsole
      exact ⟨_, create_get?_self, rfl⟩
    · rw [SessionBroker.create, Dict.get?_set_of_ne _ _ hne] at hconsole
      obtain ⟨runtime, hk', hsession⟩ := h.consoles consoleId k' hconsole
      exact ⟨runtime, hkept k' runtime hk', hsession⟩
  · intro k' runtime hk' hactive
    obtain ⟨rfl, rfl⟩ | ⟨-, hk'⟩ := create_get? hk'
    · apply Dict.get?_set_self
    · rw [SessionBroker.create, Dict.get?_set_of_ne]
      · apply h.active k' runtime hk' hactive
      · apply (h.not_active_of_liveSession hlive hk' hactive).symm
  · intro point hpoint
    obtain rfl := Option.some.inj hpoint
    exact ⟨_, create_get?_self, rfl, rfl, rfl⟩

theorem creates_create (h : b.Sound config) (hfresh : b.store.sessions.get? k = none)
    (hlive : b.liveSession request.consoleId = none) :
  Creates config k b (b.create config request k now)
  := by
  have hnone := h.get?_eq_none hfresh
  refine ⟨create_sound h hfresh hlive, hfresh, hnone, ?_, ⟨_, create_get?_self, ?_⟩, ?_, ?_, ?_, rfl⟩
  · simp only [SessionBroker.create, Dict.keys, Dict.items_set_of_get?_none _ hnone, List.map_append,
      List.map_cons, List.map_nil]
  · show SessionRuntime.view _ (owedIn b.controls request.datasourceId k) = {}
    rw [h.owedIn_eq_nil hnone]
    rfl
  · intro k' runtime hk'
    refine ⟨?_, rfl⟩
    rw [create_get?_of_ne]
    · apply hk'
    · rintro rfl
      cases hnone.symm.trans hk'
  · intro k' runtime hk'
    exact (create_get? hk').imp And.left And.right
  · intro k' session hsession
    apply (Dict.get?_set_of_ne _ _ _).trans hsession
    rintro rfl
    cases hfresh.symm.trans hsession

end Create

/-! ### The steps of an attachment -/

/-- What an attachment may do, other than to make a session. -/
inductive Attaches (config : BrokerConfig) (b : SessionBroker) : SessionBroker → Prop
  | enters (request : AttachRequest) (h : b.attaching = none) :
      Attaches config b (b.attachAt (some (.entered request)))
  | fails : Attaches config b (b.attachAt none)
  | failsWithRow (request : AttachRequest) (k : Text) (now : ℤ) :
      Attaches config b ((b.withRow request k now).attachAt none)
  | failsWithControl (d : Text) : Attaches config b ((b.putControl d {}).attachAt none)
  | reuses {request : AttachRequest} {k runtime} (now : ℤ) (hk : b.sessions.get? k = some runtime)
      (hconsole : runtime.session.consoleId = request.consoleId) :
      Attaches config b (((b.unfocus k ((b.focus runtime).reattach config request.consoleId
        now)).attachAt none).noting (b.history.attach request.consoleId
          (b.store.nextEpoch request.consoleId)))
  | awaits {request k b'} (hpoint : b.attaching = some (.created request k))
      (h : b' = b ∨ b' = b.putControl request.datasourceId {}) :
      Attaches config b (b'.attachAt (some (.awaiting request k)))
  | finishes {request : AttachRequest} {k runtime c} (hpoint : b.attaching = some (.awaiting request k))
      (hk : b.sessions.get? k = some runtime) (hepochs : c.store.epochs = b.store.epochs)
      (hepoch : c.runtime.session.epoch = runtime.session.epoch)
      (hconsole : runtime.session.consoleId = request.consoleId) :
      Attaches config b (((b.unfocus k c).attachAt none).noting
        (b.history.attach request.consoleId runtime.session.epoch))

/-- The action is a part of an attachment. -/
def Action.IsAttach : Action → Prop
  | .attachEnter _ => True
  | .attachSerial _ _ _ => True
  | .attachControl _ _ => True
  | .attachReady _ => True
  | .attachTimeout => True
  | _ => False

section AttachSteps

variable {config : BrokerConfig} {b : SessionBroker} {request : AttachRequest} {k : Text}
  {now : ℤ}

/-- A datasource may get a control lane. -/
theorem evolves_newControl {R : Text → View → View → Prop} (h : b.Sound config) {d : Text}
    (hd : b.controls.contains d = false) (hR : ∀ k v, R k v v) :
  Evolves config R b (b.putControl d {})
  := by
  have hnone : b.controls.get? d = none := by
    rw [Dict.contains, Option.isSome_eq_false_iff, Option.isNone_iff_eq_none] at hd
    apply hd
  have hother : ∀ d' control, b.controls.get? d' = some control →
      (b.putControl d {}).controls.get? d' = some control := by
    intro d' control hd'
    apply (Dict.get?_set_of_ne _ _ _).trans hd'
    rintro rfl
    cases hnone.symm.trans hd'
  have hcontains : ∀ d', b.controls.contains d' = true →
      (b.putControl d {}).controls.contains d' = true := by
    intro d' hd'
    obtain ⟨control, hcontrol⟩ := Option.isSome_iff_exists.mp hd'
    exact Option.isSome_iff_exists.mpr ⟨control, hother d' control hcontrol⟩
  have hview : ∀ runtime, ((b.putControl d {}).focus runtime).view = (b.focus runtime).view := by
    intro runtime
    rw [Focus.view, Focus.view, Focus.owed, Focus.owed]
    congr 1
    show owedIn (b.controls.set d {}) runtime.session.datasourceId runtime.session.id
      = owedIn b.controls runtime.session.datasourceId runtime.session.id
    rw [owedIn, owedIn]
    by_cases hne : d = runtime.session.datasourceId
    · subst hne
      rw [Dict.get?_set_self, hnone]
      rfl
    · rw [Dict.get?_set_of_ne _ _ hne]
  refine ⟨⟨h.store, h.id, ?_, ?_, ?_, ?_, h.statements, h.consoles, h.active, ?_⟩, rfl, ?_,
    fun _ _ _ hk => hk, fun _ _ _ => Iff.rfl⟩
  · intro k' runtime hk'
    obtain ⟨hstored, hkeyed, hmirrored, hcontrolled⟩ := h.wellformed k' runtime hk'
    exact ⟨hstored, hkeyed, hmirrored, fun hlane => hcontains _ (hcontrolled hlane)⟩
  · intro k' runtime hk'
    obtain ⟨hlisted, hknown⟩ := h.requested k' runtime hk'
    exact ⟨hlisted, hknown⟩
  · intro k' runtime hk'
    rw [hview]
    apply h.view k' runtime hk'
  · intro d' control command hd' hcommand
    by_cases hne : d = d'
    · subst hne
      rw [SessionBroker.putControl, Dict.get?_set_self] at hd'
      obtain rfl := Option.some.inj hd'
      cases hcommand
    · rw [SessionBroker.putControl, Dict.get?_set_of_ne _ _ hne] at hd'
      apply h.commands d' control command hd' hcommand
  · intro point hpoint
    have hsound := h.attaching point hpoint
    cases point with
    | entered request => trivial
    | created request k => apply hsound
    | awaiting request k => exact ⟨hsound.1, hcontains _ hsound.2⟩
  · intro k' runtime hk'
    refine ⟨runtime, hk', ⟨rfl, rfl, rfl, rfl, rfl⟩, ?_, ?_⟩
    · intro s statement hs
      exact ⟨statement, hs, rfl, rfl, rfl⟩
    · rw [hview]
      apply hR

/-- A session may stay as it is while an attachment goes on. -/
theorem bears_refl_of_attach {action : Action} (haction : action.IsAttach) (k : Text) (v : View) :
  Bears config b action k v v
  := by
  apply Bears.moves _ (Moves.refl v)
  rintro (⟨input, now, rfl⟩ | ⟨d, now, control, command, failed, rfl, -⟩)
  · exact haction
  · exact haction

/-- The attachment goes on, and the registry evolves. -/
def Attached (config : BrokerConfig) (b : SessionBroker) (action : Action) (b' : SessionBroker) :
    Prop :=
  Evolves config (Bears config b action) b b' ∧ Attaches config b b'

theorem attached_fails (h : b.Sound config) {action : Action} (haction : action.IsAttach) :
  Attached config b action (b.attachAt none)
  := by
  refine ⟨?_, .fails⟩
  apply evolves_attachAt h
  · intro point hpoint
    cases hpoint
  · intro k' v
    apply bears_refl_of_attach haction

/-- The first part of an attachment finds the live session of the console, or makes one. -/
theorem attachSerial_spec {raises : Bool} (h : b.Sound config)
    (hfresh : b.store.sessions.get? k = none) :
  Ensures (onAttach (attachSerial config request k raises now)) b
    (fun _ b' => Attached config b (.attachSerial k raises now) b'
      ∨ Creates config k b b' ∧ b' = b.create config request k now ∧ b.Roomy config request)
    (fun e b' => e.IsRefusal ∧ Attached config b (.attachSerial k raises now) b')
  := by
  have hrefl : ∀ k' v, Bears config b (.attachSerial k raises now) k' v v :=
    bears_refl_of_attach trivial
  rw [onAttach, ensures_onRaise, attachSerial, ensures_bind, ensures_get]
  cases hlive : b.liveSession request.consoleId with
  | some runtime =>
      obtain ⟨k', hk', hconsole⟩ := h.exists_of_liveSession hlive
      apply (attachReuse_spec request h hk').mono
      · rintro _ b' rfl
        left
        rw [hconsole]
        refine ⟨?_, .reuses now hk' hconsole⟩
        apply (evolves_reattach h hk' request.consoleId _).mono
        · rintro k'' v w - rfl
          apply hrefl
        · apply h
      · intro e b' hfalse
        apply hfalse.elim
  | none =>
      apply (attachCreate_spec raises).mono
      · rintro _ b' ⟨rfl, hroom⟩
        exact .inr ⟨creates_create h hfresh hlive, rfl, hroom⟩
      · rintro e b' ⟨he, rfl | rfl⟩
        · exact ⟨he, attached_fails h trivial⟩
        · refine ⟨he, ?_, .failsWithRow request k now⟩
          apply (evolves_withRow h hfresh hrefl).attachAt
          intro point hpoint
          cases hpoint

/-- The second part of an attachment sees to the control lane of the datasource. -/
theorem ensureControlLane_spec {raises startRaises : Bool} (h : b.Sound config)
    (hpoint : b.attaching = some (.created request k)) :
  Ensures (onAttach (ensureControlLane request k raises startRaises)) b
    (fun _ b' => Attached config b (.attachControl raises startRaises) b')
    (fun e b' => e.IsRefusal ∧ Attached config b (.attachControl raises startRaises) b')
  := by
  have hprepared : b.Prepared request k := h.attaching _ hpoint
  have hrefl : ∀ k' v, Bears config b (.attachControl raises startRaises) k' v v :=
    bears_refl_of_attach trivial
  simp only [onAttach, ensures_onRaise, ensureControlLane, ensures_bind, ensures_get, ensures_when,
    ensures_throw, ensures_modify]
  constructor
  · intro hnone
    refine ⟨fun _ => ⟨trivial, attached_fails h trivial⟩, fun _ => ⟨fun _ => ?_, fun _ => ?_⟩⟩
    · refine ⟨.inr (.inr rfl), ?_, .failsWithControl request.datasourceId⟩
      apply (evolves_newControl h hnone hrefl).attachAt
      intro point hover
      cases hover
    · refine ⟨?_, .awaits hpoint (.inr rfl)⟩
      apply (evolves_newControl h hnone hrefl).attachAt
      intro point hawaiting
      obtain rfl := Option.some.inj hawaiting
      refine ⟨hprepared, ?_⟩
      rw [Dict.contains, SessionBroker.putControl, Dict.get?_set_self]
      rfl
  · intro hsome
    refine ⟨?_, .awaits hpoint (.inl rfl)⟩
    apply evolves_attachAt h
    · intro point hawaiting
      obtain rfl := Option.some.inj hawaiting
      exact ⟨hprepared, (Bool.not_eq_false _).mp hsome⟩
    · apply hrefl

/-- The last part of an attachment starts the lane of the session it has made. -/
theorem attachFinish_spec {support : ServerCancelState} (h : b.Sound config)
    (hpoint : b.attaching = some (.awaiting request k)) :
  Ensures (onAttach (attachFinish k support false)) b
    (fun _ b' => Attached config b (.attachReady false) b')
    (fun _ _ => False)
  := by
  obtain ⟨⟨runtime, hk, hlane, hconsole, hds⟩, hcontrol⟩ := h.attaching _ hpoint
  have hwf := h.wellformed k runtime hk
  have hv := h.view k runtime hk
  have hrefl : ∀ k' v, Bears config b (.attachReady false) k' v v :=
    bears_refl_of_attach trivial
  have hover : (b.attachAt none).Sound config := by
    apply h.attachAt
    intro point hnone
    cases hnone
  rw [onAttach, ensures_onRaise, attachFinish, ensures_bind, ensures_onRuntime hk]
  apply (startLane_spec hwf hv hlane (by
    rw [show (b.focus runtime).runtime.session.datasourceId = _ from hds]
    apply hcontrol)).mono
  · rintro session c ⟨rfl, hkept, hstep⟩
    rw [returnAttached, ensures_modify, hkept.session.consoleId, hkept.session.epoch]
    have hevolves : Evolves config (Bears config b (.attachReady false)) (b.attachAt none)
        ((b.attachAt none).unfocus k c) := by
      apply evolves_unfocus hover hk (hkept.served hwf (h.requested k runtime hk))
      · apply hstep.sound hv
      · apply (hstep.sessionEdge hv).isActive
      · exact .inl rfl
      · exact .start hlane hstep
      · intro k' v _
        apply hrefl
    constructor
    · exact ⟨hevolves.sound.noting _, hevolves.keys, hevolves.sessions, hevolves.foreignSessions,
        hevolves.foreignStatements⟩
    · rw [show (b.focus runtime).runtime.session.consoleId = _ from hconsole]
      exact .finishes hpoint hk hkept.epochs hkept.session.epoch hconsole
  · intro e c hfalse
    apply hfalse

end AttachSteps

end Broker

import DataOpsStudio.Broker.Lane
import DataOpsStudio.Broker.Clients

/-!
# The registry

What holds of a broker at any time: the store and the registry agree, every session is sound,
control commands are for sessions of their datasource, and a console leads to its active
session.  A program on one session of the registry leaves the others as they are.
-/

namespace Broker

open Text Program

/-! ### What a program on a session leaves to the others -/

/-- What a program on a session leaves: records of the same session and statements, and the
records of other sessions as they were. -/
structure Served (c c' : Focus) : Prop where
  wellformed : c'.Wellformed
  requested : c'.Requested
  session : c.runtime.session.Kin c'.runtime.session
  same : ∀ k statement, c.runtime.statements.get? k = some statement →
    ∃ statement', c'.runtime.statements.get? k = some statement' ∧ statement.Same statement'
  sessions : ∀ k, k ≠ c.runtime.session.id → c'.store.sessions.get? k = c.store.sessions.get? k
  statements : ∀ k statement, statement.sessionId ≠ c.runtime.session.id →
    (c'.store.statements.get? k = some statement ↔ c.store.statements.get? k = some statement)
  posted : Posted c.runtime.session.datasourceId c.runtime.session.id c.controls c'.controls

theorem Kept.served {c c' : Focus} (h : Kept c c') (hc : c.Wellformed) (hr : c.Requested) :
  Served c c'
  := by
  refine ⟨h.wellformed, h.requested hr, h.session.kin, h.same, h.sessions, ?_, h.posted⟩
  intro k statement hne
  cases hk : c.runtime.statements.get? k with
  | none => rw [h.statements k hk]
  | some own =>
      -- the statement under the key belongs to the session, before and after
      obtain ⟨own', hk', -⟩ := h.same k own hk
      obtain ⟨hstored, hown⟩ := (hc.mirrored k own).mp hk
      obtain ⟨hstored', hown'⟩ := (h.wellformed.mirrored k own').mp hk'
      rw [hstored, hstored']
      constructor
      · intro heq
        obtain rfl := Option.some.inj heq
        exact (hne (hown'.trans h.session.id)).elim
      · intro heq
        obtain rfl := Option.some.inj heq
        exact (hne hown).elim

theorem Focus.IsNew.served {c : Focus} {statement : ConsoleStatement} (hnew : c.IsNew statement)
    (hc : c.Wellformed) (hr : c.Requested) :
  Served c (c.record statement)
  := by
  have hrefl := Kept.refl hc
  refine ⟨hnew.wellformed hc, hnew.requested hc hr, hrefl.session.kin, ?_, hrefl.sessions, ?_,
    hrefl.posted⟩
  · intro k other hk
    refine ⟨other, ?_, rfl, rfl, rfl⟩
    rw [Focus.record, Dict.get?_set_of_ne]
    · apply hk
    · rintro rfl
      rw [hnew.get?_eq_none hc] at hk
      cases hk
  · intro k other hne
    by_cases hid : statement.id = k
    · subst hid
      rw [Focus.record, Dict.get?_set_self, hnew.fresh]
      constructor
      · intro heq
        obtain rfl := Option.some.inj heq
        exact (hne hnew.own).elim
      · simp
    · rw [Focus.record, Dict.get?_set_of_ne _ _ hid]

namespace Served

variable {a c c' : Focus}

theorem trans (hac : Served a c) (hcc : Served c c') :
  Served a c'
  := by
  constructor
  · apply hcc.wellformed
  · apply hcc.requested
  · apply hac.session.trans hcc.session
  · intro k statement hk
    obtain ⟨statement', hk', hsame⟩ := hac.same k statement hk
    obtain ⟨statement'', hk'', hsame'⟩ := hcc.same k statement' hk'
    exact ⟨statement'', hk'', hsame.trans hsame'⟩
  · intro k hk
    rw [hcc.sessions k (by rw [hac.session.id]; exact hk), hac.sessions k hk]
  · intro k statement hne
    rw [hcc.statements k statement (by rw [hac.session.id]; exact hne),
      hac.statements k statement hne]
  · have h := hcc.posted
    rw [hac.session.datasourceId, hac.session.id] at h
    apply hac.posted.trans h

/-- Another session still agrees with the store. -/
theorem wellformed_other (h : Served c c') {other : SessionRuntime}
    (hne : other.session.id ≠ c.runtime.session.id)
    (hother : ({ c with runtime := other } : Focus).Wellformed) :
  ({ c' with runtime := other } : Focus).Wellformed
  := by
  obtain ⟨hstored, hkeyed, hmirrored, hcontrolled⟩ := hother
  constructor
  · rw [h.sessions _ hne]
    apply hstored
  · apply hkeyed
  · intro k statement
    rw [hmirrored k statement]
    constructor
    · rintro ⟨hk, hsession⟩
      exact ⟨(h.statements k statement (by rw [hsession]; exact hne)).mpr hk, hsession⟩
    · rintro ⟨hk, hsession⟩
      exact ⟨(h.statements k statement (by rw [hsession]; exact hne)).mp hk, hsession⟩
  · rw [h.posted.contains]
    apply hcontrolled

/-- Another session looks as before. -/
theorem view_other (h : Served c c') {other : SessionRuntime}
    (hne : other.session.id ≠ c.runtime.session.id) :
  ({ c' with runtime := other } : Focus).view = ({ c with runtime := other } : Focus).view
  := by
  rw [Focus.view, Focus.view, Focus.owed, Focus.owed]
  congr 1
  apply h.posted.owedIn _ hne

end Served

/-! ### The invariant -/

/-- The records of the store stand under their identifiers, statements belong to sessions that
are there, and a session has one statement for a client request. -/
structure MemoryBrokerStore.Sound (store : MemoryBrokerStore) : Prop where
  sessionId : ∀ k session, store.sessions.get? k = some session → session.id = k
  statementId : ∀ k statement, store.statements.get? k = some statement → statement.id = k
  owned : ∀ k statement, store.statements.get? k = some statement →
    store.sessions.contains statement.sessionId = true
  unique : ∀ k k' statement statement', store.statements.get? k = some statement →
    store.statements.get? k' = some statement' → statement.sessionId = statement'.sessionId →
    statement.clientRequestId = statement'.clientRequestId → k = k'

/-- The session an attachment has made waits for its lane to be started. -/
def SessionBroker.Prepared (b : SessionBroker) (request : AttachRequest) (sessionId : Text) :
    Prop :=
  ∃ runtime, b.sessions.get? sessionId = some runtime ∧ runtime.lane = .unstarted
    ∧ runtime.session.consoleId = request.consoleId
    ∧ runtime.session.datasourceId = request.datasourceId

/-- What the point of an attachment says about the registry. -/
def AttachPoint.Sound (b : SessionBroker) : AttachPoint → Prop
  | .entered _ => True
  | .created request sessionId => b.Prepared request sessionId
  | .awaiting request sessionId => b.Prepared request sessionId
      ∧ b.controls.contains request.datasourceId = true

/-- What holds of a broker at any time. -/
structure SessionBroker.Sound (config : BrokerConfig) (b : SessionBroker) : Prop where
  store : b.store.Sound
  id : ∀ k runtime, b.sessions.get? k = some runtime → runtime.session.id = k
  wellformed : ∀ k runtime, b.sessions.get? k = some runtime → (b.focus runtime).Wellformed
  requested : ∀ k runtime, b.sessions.get? k = some runtime → (b.focus runtime).Requested
  view : ∀ k runtime, b.sessions.get? k = some runtime →
    (b.focus runtime).view.Sound config.mailboxSize
  commands : ∀ d control command, b.controls.get? d = some control → command ∈ control.commands →
    ∃ runtime, b.sessions.get? command.sessionId = some runtime
      ∧ runtime.session.datasourceId = d
  statements : ∀ s k, b.statementSessions.get? s = some k →
    ∃ runtime, b.sessions.get? k = some runtime ∧ runtime.statements.contains s = true
  consoles : ∀ consoleId k, b.consoleSessions.get? consoleId = some k →
    ∃ runtime, b.sessions.get? k = some runtime ∧ runtime.session.consoleId = consoleId
  active : ∀ k runtime, b.sessions.get? k = some runtime → runtime.session.state.IsActive →
    b.consoleSessions.get? runtime.session.consoleId = some k
  attaching : ∀ point, b.attaching = some point → point.Sound b

/-! ### Programs on a session of the registry -/

section Unfocus

variable {config : BrokerConfig} {b : SessionBroker} {k : Text} {runtime : SessionRuntime}
  {c : Focus}

@[simp]
theorem unfocus_get?_self :
  (b.unfocus k c).sessions.get? k = some c.runtime
  := Dict.get?_set_self _ _ _

theorem unfocus_get?_of_ne {k' : Text} (h : k' ≠ k) :
  (b.unfocus k c).sessions.get? k' = b.sessions.get? k'
  := Dict.get?_set_of_ne _ _ h.symm

/-- A session keeps its place in the registry. -/
theorem unfocus_get? (hk : b.sessions.get? k = some runtime) {k' : Text}
    {runtime' : SessionRuntime} (hk' : (b.unfocus k c).sessions.get? k' = some runtime') :
  k' = k ∧ runtime' = c.runtime ∨ k' ≠ k ∧ b.sessions.get? k' = some runtime'
  := by
  by_cases hne : k' = k
  · subst hne
    rw [unfocus_get?_self] at hk'
    exact .inl ⟨rfl, (Option.some.inj hk').symm⟩
  · rw [unfocus_get?_of_ne hne] at hk'
    exact .inr ⟨hne, hk'⟩

/-- The store is sound after a program on a session. -/
theorem Served.storeSound {c c' : Focus} (h : Served c c') (hstore : c.store.Sound) :
  c'.store.Sound
  := by
  have hid := h.session.id
  constructor
  · intro k session hk
    by_cases hne : k = c.runtime.session.id
    · rw [hne, ← hid, h.wellformed.stored] at hk
      rw [← Option.some.inj hk, hne, hid]
    · rw [h.sessions k hne] at hk
      apply hstore.sessionId k session hk
  · intro k statement hk
    by_cases hne : statement.sessionId = c.runtime.session.id
    · apply h.wellformed.keyed k
      exact (h.wellformed.mirrored k statement).mpr ⟨hk, hne.trans hid.symm⟩
    · apply hstore.statementId k
      exact (h.statements k statement hne).mp hk
  · intro k statement hk
    by_cases hne : statement.sessionId = c.runtime.session.id
    · rw [hne, ← hid]
      apply h.wellformed.sessionStored
    · rw [Dict.contains, h.sessions _ hne]
      apply hstore.owned k statement
      exact (h.statements k statement hne).mp hk
  · intro k k' statement statement' hk hk' hsession hrequest
    by_cases hne : statement.sessionId = c.runtime.session.id
    · have hown := (h.wellformed.mirrored k statement).mpr ⟨hk, hne.trans hid.symm⟩
      have hown' := (h.wellformed.mirrored k' statement').mpr
        ⟨hk', (hsession.symm.trans hne).trans hid.symm⟩
      have hlisted := h.requested.listed k statement hown
      rw [hrequest, h.requested.listed k' statement' hown'] at hlisted
      exact (Option.some.inj hlisted).symm
    · apply hstore.unique k k' statement statement' _ _ hsession hrequest
      · exact (h.statements k statement hne).mp hk
      · exact (h.statements k' statement' (by rw [← hsession]; exact hne)).mp hk'

/-- Every session of the registry is there after a program on one of them, and it is the
same. -/
theorem Served.exists_unfocus (hk : b.sessions.get? k = some runtime)
    (hserved : Served (b.focus runtime) c) {k' : Text} {runtime' : SessionRuntime}
    (hk' : b.sessions.get? k' = some runtime') :
  ∃ runtime'', (b.unfocus k c).sessions.get? k' = some runtime''
    ∧ runtime'.session.Kin runtime''.session
    ∧ ∀ s statement, runtime'.statements.get? s = some statement →
      ∃ statement', runtime''.statements.get? s = some statement' ∧ statement.Same statement'
  := by
  by_cases hne : k' = k
  · subst hne
    obtain rfl := Option.some.inj (hk.symm.trans hk')
    exact ⟨c.runtime, unfocus_get?_self, hserved.session, hserved.same⟩
  · refine ⟨runtime', (unfocus_get?_of_ne hne).trans hk', ⟨rfl, rfl, rfl, rfl, rfl⟩, ?_⟩
    intro s statement hs
    exact ⟨statement, hs, rfl, rfl, rfl⟩

/-- The commands of the control lanes are for sessions of the registry. -/
theorem Served.commands (hid : runtime.session.id = k)
    (hserved : Served (b.focus runtime) c) {d : Text} {control : ControlLane}
    {command : ControlCommand} (hd : c.controls.get? d = some control)
    (hcommand : command ∈ control.commands) :
  (∃ control', b.controls.get? d = some control' ∧ command ∈ control'.commands)
    ∨ command.sessionId = k ∧ runtime.session.datasourceId = d
  := by
  by_cases hds : d = runtime.session.datasourceId
  · subst hds
    cases hold : b.controls.get? runtime.session.datasourceId with
    | none =>
        cases (hserved.posted.absent hold).symm.trans hd
    | some old =>
        obtain ⟨posted, hnew, hown⟩ := hserved.posted.extended old hold
        obtain rfl := Option.some.inj (hnew.symm.trans hd)
        rw [ControlLane.commands, List.filterMap_append, ← List.append_assoc] at hcommand
        obtain hcommand | hcommand := List.mem_append.mp hcommand
        · exact .inl ⟨old, rfl, hcommand⟩
        · right
          rw [List.filterMap_map] at hcommand
          have hmem : command ∈ posted := by simpa using hcommand
          exact ⟨(hown command hmem).trans hid, rfl⟩
  · left
    rw [hserved.posted.other d hds] at hd
    exact ⟨control, hd, hcommand⟩

/-- The registry is sound after a program on one of its sessions. -/
theorem SessionBroker.Sound.unfocus (h : b.Sound config) (hk : b.sessions.get? k = some runtime)
    (hserved : Served (b.focus runtime) c) (hview : c.view.Sound config.mailboxSize)
    (hactive : c.runtime.session.state.IsActive → runtime.session.state.IsActive)
    (hlane : b.attaching = none ∨ (runtime.lane = .unstarted → c.runtime.lane = .unstarted)) :
  (b.unfocus k c).Sound config
  := by
  have hid : runtime.session.id = k := h.id k runtime hk
  have hother : ∀ k' runtime', k' ≠ k → b.sessions.get? k' = some runtime' →
      runtime'.session.id ≠ (b.focus runtime).runtime.session.id := by
    intro k' runtime' hne hk'
    rw [h.id k' runtime' hk', show (b.focus runtime).runtime.session.id = k from hid]
    apply hne
  constructor
  · apply hserved.storeSound h.store
  · intro k' runtime' hk'
    obtain ⟨rfl, rfl⟩ | ⟨hne, hk'⟩ := unfocus_get? hk hk'
    · rw [hserved.session.id]
      apply hid
    · apply h.id k' runtime' hk'
  · intro k' runtime' hk'
    obtain ⟨rfl, rfl⟩ | ⟨hne, hk'⟩ := unfocus_get? hk hk'
    · apply hserved.wellformed
    · apply hserved.wellformed_other (hother k' runtime' hne hk')
      apply h.wellformed k' runtime' hk'
  · intro k' runtime' hk'
    obtain ⟨rfl, rfl⟩ | ⟨hne, hk'⟩ := unfocus_get? hk hk'
    · apply hserved.requested
    · obtain ⟨hlisted, hknown⟩ := h.requested k' runtime' hk'
      exact ⟨hlisted, hknown⟩
  · intro k' runtime' hk'
    obtain ⟨rfl, rfl⟩ | ⟨hne, hk'⟩ := unfocus_get? hk hk'
    · apply hview
    · have hsame := hserved.view_other (hother k' runtime' hne hk')
      rw [show ((b.unfocus k c).focus runtime').view = _ from hsame]
      apply h.view k' runtime' hk'
  · intro d control command hd hcommand
    obtain ⟨control', hd', hcommand'⟩ | ⟨hown, hds⟩ := hserved.commands hid hd hcommand
    · obtain ⟨runtime', hk', hds⟩ := h.commands d control' command hd' hcommand'
      obtain ⟨runtime'', hk'', hsame, -⟩ := hserved.exists_unfocus hk hk'
      exact ⟨runtime'', hk'', hsame.datasourceId.trans hds⟩
    · refine ⟨c.runtime, ?_, hserved.session.datasourceId.trans hds⟩
      rw [hown]
      apply unfocus_get?_self
  · intro s k' hs
    obtain ⟨runtime', hk', hcontains⟩ := h.statements s k' hs
    obtain ⟨runtime'', hk'', -, hsame⟩ := hserved.exists_unfocus hk hk'
    obtain ⟨statement, hstatement⟩ := Option.isSome_iff_exists.mp hcontains
    obtain ⟨statement', hstatement', -⟩ := hsame s statement hstatement
    exact ⟨runtime'', hk'', Option.isSome_iff_exists.mpr ⟨statement', hstatement'⟩⟩
  · intro consoleId k' hconsole
    obtain ⟨runtime', hk', hsession⟩ := h.consoles consoleId k' hconsole
    obtain ⟨runtime'', hk'', hsame, -⟩ := hserved.exists_unfocus hk hk'
    exact ⟨runtime'', hk'', hsame.consoleId.trans hsession⟩
  · intro k' runtime' hk' hstate
    obtain ⟨rfl, rfl⟩ | ⟨hne, hk'⟩ := unfocus_get? hk hk'
    · rw [hserved.session.consoleId]
      apply h.active k' runtime hk (hactive hstate)
    · apply h.active k' runtime' hk' hstate
  · intro point hpoint
    have hprepared : ∀ request sessionId, b.Prepared request sessionId →
        (b.unfocus k c).Prepared request sessionId := by
      rintro request sessionId ⟨runtime', hk', hunstarted, hconsole, hds⟩
      obtain ⟨runtime'', hk'', hsame, -⟩ := hserved.exists_unfocus hk hk'
      refine ⟨runtime'', hk'', ?_, hsame.consoleId.trans hconsole, hsame.datasourceId.trans hds⟩
      obtain ⟨rfl, rfl⟩ | ⟨hne, hold⟩ := unfocus_get? hk hk''
      · obtain rfl := Option.some.inj (hk.symm.trans hk')
        apply hlane.resolve_left (by rw [show b.attaching = some point from hpoint]; nofun)
        apply hunstarted
      · obtain rfl := Option.some.inj (hold.symm.trans hk')
        apply hunstarted
    have hsound := h.attaching point hpoint
    cases point with
    | entered request => trivial
    | created request sessionId => apply hprepared request sessionId hsound
    | awaiting request sessionId =>
        refine ⟨hprepared request sessionId hsound.1, ?_⟩
        rw [show (b.unfocus k c).controls = c.controls from rfl, hserved.posted.contains]
        apply hsound.2

end Unfocus

end Broker

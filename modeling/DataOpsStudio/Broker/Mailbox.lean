import DataOpsStudio.Broker.Epochs

/-!
# The mailbox of a session

The commands in the mailbox are counted, so that there is room for every statement that is
accepted.  A session that is asked to close keeps the command to close, in the mailbox or beside
it, until its lane takes it up.
-/

namespace Broker

open Text Program

/-! ### Sessions that are asked to close -/

/-- The session has been asked to close: the command is in the mailbox or beside it, or the lane
has taken it up. -/
def View.Asked (v : View) : Prop :=
  (∃ r, .close r ∈ v.mailbox) ∨ v.closePending ≠ none ∨ v.lane.IsClosing ∨ v.lane = .exited

section Asked

variable {size : ℕ} {v w : View} {label : Label}

/-- A session that has been asked to close stays so. -/
theorem Step.asked (h : Step size v label w) (hv : v.Asked) :
  w.Asked
  := by
  rw [View.Asked] at hv ⊢
  cases h <;> grind

/-- A session that accepts statements goes on to do so, or is asked to close. -/
theorem Step.accepting_or_asked (h : Step size v .plain w) (hv : v.accepting = true ∨ v.Asked) :
  w.accepting = true ∨ w.Asked
  := by
  obtain hv | hv := hv
  · cases h with
    | putClose r =>
        right
        left
        exact ⟨r, by simp⟩
    | noteClose r =>
        right
        right
        left
        nofun
    | _ => exact .inl hv
  · exact .inr (h.asked hv)

/-- A lane that has taken up the command to close does nothing else. -/
theorem Step.isClosing (h : Step size v label w) (hv : v.lane.IsClosing ∨ v.lane = .exited) :
  w.lane.IsClosing ∨ w.lane = .exited
  := by
  cases h <;> grind

theorem Moves.asked (h : Moves size v w) (hv : v.Asked) :
  w.Asked
  := by
  have hpath := h.path
  clear h
  induction hpath with
  | refl => apply hv
  | tail _ hstep ih => apply hstep.asked ih

theorem Moves.accepting_or_asked (h : Moves size v w) (hv : v.accepting = true) :
  w.accepting = true ∨ w.Asked
  := by
  have hpath := h.path
  clear h
  induction hpath with
  | refl => exact .inl hv
  | tail _ hstep ih => apply hstep.accepting_or_asked ih

theorem Bears.asked {config : BrokerConfig} {b : SessionBroker} {action : Action} {k : Text}
    (h : Bears config b action k v w) (hv : v.Asked) :
  w.Asked
  := by
  cases h with
  | moves _ h => apply h.asked hv
  | lane _ _ _ h => apply h.asked hv
  | control _ _ _ _ h => apply h.asked hv
  | start _ h => apply h.asked hv

theorem Bears.isClosing {config : BrokerConfig} {b : SessionBroker} {action : Action} {k : Text}
    (h : Bears config b action k v w) (hv : v.lane.IsClosing ∨ v.lane = .exited) :
  w.lane.IsClosing ∨ w.lane = .exited
  := by
  cases h with
  | moves _ h =>
      rw [h.lane]
      apply hv
  | lane _ _ _ h => apply h.isClosing hv
  | control _ _ _ _ h => apply h.isClosing hv
  | start _ h => apply h.isClosing hv

end Asked

/-! ### What stays true of a session -/

section Later

variable {config : BrokerConfig} {b b' : SessionBroker} {action : Action} {k : Text}
  {P : View → Prop}

/-- A session that is there has a property, and it is not made anew. -/
def SessionBroker.Has (b : SessionBroker) (k : Text) (P : View → Prop) : Prop :=
  b.store.sessions.contains k = true
    ∧ ∀ runtime, b.sessions.get? k = some runtime → P (b.focus runtime).view

theorem SessionBroker.Sound.has {runtime : SessionRuntime} (hb : b.Sound config)
    (hk : b.sessions.get? k = some runtime) (hP : P (b.focus runtime).view) :
  b.Has k P
  := by
  constructor
  · rw [Dict.contains, hb.stored hk]
    rfl
  · intro runtime' hk'
    obtain rfl := Option.some.inj (hk.symm.trans hk')
    apply hP

/-- What every action keeps of a session, as far as it bears on it. -/
theorem Becomes.has (hb : b.Sound config) (h : Becomes config b action b')
    (hP : ∀ v w, v.Sound config.mailboxSize → Bears config b action k v w → P v → P w)
    (hhas : b.Has k P) :
  b'.Has k P
  := by
  obtain ⟨hstored, hview⟩ := hhas
  obtain ⟨session, hsession⟩ := Option.isSome_iff_exists.mp hstored
  obtain ⟨session', hsession', -⟩ := h.exists_session hb hsession
  refine ⟨Option.isSome_iff_exists.mpr ⟨session', hsession'⟩, ?_⟩
  intro runtime' hk'
  have hevolves : Evolves config (Bears config b action) b b' → P (b'.focus runtime').view := by
    intro h
    obtain ⟨runtime, hk⟩ := h.exists_before hk'
    obtain ⟨runtime'', hk'', -, -, hbears⟩ := h.sessions k runtime hk
    obtain rfl := Option.some.inj (hk'.symm.trans hk'')
    apply hP _ _ (hb.view k runtime hk) hbears (hview runtime hk)
  cases h with
  | goesOn h => apply hevolves h
  | attaches h => apply hevolves h
  | creates _ h =>
      obtain rfl | hold := h.before k runtime' hk'
      · cases h.new.symm.trans hsession
      · rw [(h.sessions k runtime' hold).2]
        apply hview runtime' hold
  | restarts => cases (Dict.get?_empty k).symm.trans hk'

/-- All sessions of the registry have a property. -/
def SessionBroker.All (b : SessionBroker) (P : View → Prop) : Prop :=
  ∀ k runtime, b.sessions.get? k = some runtime → P (b.focus runtime).view

/-- What an action keeps of every session, and what a new session has. -/
theorem Becomes.all (h : Becomes config b action b') (hinitial : P {})
    (hP : ∀ k runtime w, b.sessions.get? k = some runtime →
      Bears config b action k (b.focus runtime).view w → P (b.focus runtime).view → P w)
    (hall : b.All P) :
  b'.All P
  := by
  intro k runtime' hk'
  have hevolves : Evolves config (Bears config b action) b b' → P (b'.focus runtime').view := by
    intro h
    obtain ⟨runtime, hk⟩ := h.exists_before hk'
    obtain ⟨runtime'', hk'', -, -, hbears⟩ := h.sessions k runtime hk
    obtain rfl := Option.some.inj (hk'.symm.trans hk'')
    apply hP k runtime _ hk hbears (hall k runtime hk)
  cases h with
  | goesOn h => apply hevolves h
  | attaches h => apply hevolves h
  | creates _ h =>
      obtain rfl | hold := h.before k runtime' hk'
      · obtain ⟨runtime, hk, hview⟩ := h.created
        obtain rfl := Option.some.inj (hk'.symm.trans hk)
        rw [hview]
        apply hinitial
      · rw [(h.sessions k runtime' hold).2]
        apply hall k runtime' hold
  | restarts => cases (Dict.get?_empty k).symm.trans hk'

/-- What every action keeps of a session holds of it later. -/
theorem has_later (hb : b.Sound config)
    (hP : ∀ b action v w, v.Sound config.mailboxSize → Bears config b action k v w → P v → P w)
    (hhas : b.Has k P) (hlater : (brokerSystem config).Later b b') :
  b'.Has k P
  := by
  have hboth := TransitionSystem.Later.invariant (T := brokerSystem config)
    (I := SessionBroker.Sound config) (P := fun b => b.Has k P)
    (fun b action b' hb hstep => step_sound hb hstep)
    (fun b action b' hb hhas hstep => (becomes_of_step hb hstep).has hb (hP b action) hhas)
    hb hhas hlater
  apply hboth.2

end Later

/-! ### Accounting -/

/-- The actions in which a session may be asked to close. -/
def Action.MayClose : Action → Prop
  | .close _ _ _ _ => True
  | .timer _ => True
  | .shutdown _ => True
  | _ => False

section Mailbox

variable {config : BrokerConfig} {b b' : SessionBroker} {action : Action} {k : Text}
  {runtime : SessionRuntime}

/-- An action in which a session may be asked to close moves it. -/
theorem Bears.moves_of_mayClose {v w : View} (h : Bears config b action k v w)
    (haction : action.MayClose) :
  Moves config.mailboxSize v w
  := by
  cases h with
  | moves _ h => apply h
  | lane => cases haction
  | control => cases haction
  | start => cases haction

/-- A session that no longer accepts statements after such an action has been asked to close. -/
theorem Becomes.asked (hb' : b'.Sound config) (h : Becomes config b action b') (haction : action.MayClose)
    (hk : b.sessions.get? k = some runtime) (haccepting : runtime.accepting = true)
    {runtime' : SessionRuntime} (hk' : b'.sessions.get? k = some runtime')
    (haccepting' : runtime'.accepting = false) :
  b'.Has k View.Asked
  := by
  have hevolves : Evolves config (Bears config b action) b b' → b'.Has k View.Asked := by
    intro h
    obtain ⟨runtime'', hk'', -, -, hbears⟩ := h.sessions k runtime hk
    obtain rfl := Option.some.inj (hk'.symm.trans hk'')
    apply hb'.has hk'
    apply ((hbears.moves_of_mayClose haction).accepting_or_asked haccepting).resolve_left
    show ¬ runtime'.accepting = true
    rw [haccepting']
    nofun
  cases h with
  | goesOn h => apply hevolves h
  | attaches h => apply hevolves h
  | creates _ h =>
      obtain rfl := Option.some.inj (hk'.symm.trans (h.sessions k runtime hk).1)
      cases haccepting.symm.trans haccepting'
  | restarts => cases (Dict.get?_empty k).symm.trans hk'

/-- A client with the epoch of the session makes it accept no more statements. -/
theorem close_spec (reason : Text) (now : ℤ) (hb : b.Sound config)
    (hk : b.sessions.get? k = some runtime) :
  Ensures (close config k runtime.session.epoch reason now) b
    (fun _ b' => ∃ runtime', b'.sessions.get? k = some runtime' ∧ runtime'.accepting = false)
    (fun _ _ => False)
  := by
  rw [close, requireRuntime, ensures_bind, ensures_bind, ensures_get, hk, demand_some, ensures_pure,
    ensures_bind, requireEpoch, ensures_when]
  refine ⟨fun hne => (hne rfl).elim, fun _ => ?_⟩
  rw [ensures_onRuntime hk]
  apply (queueCloseLocked_spec (hb.wellformed k runtime hk) (hb.view k runtime hk)).mono
  · rintro _ c ⟨-, -, haccepting⟩
    exact ⟨c.runtime, unfocus_get?_self, haccepting⟩
  · intro e c hfalse
    apply hfalse

/-- The commands to execute that are in the mailbox are counted, and the count is within the
size of the mailbox. -/
theorem View.Sound.counts {size : ℕ} {v : View} (hv : v.Sound size) :
  (v.mailbox.countP LaneCommand.isExecute : ℤ) ≤ v.pending ∧ 0 ≤ v.pending ∧ v.pending ≤ size
  := by
  have hcounted := hv.counted
  have hbounded := hv.bounded
  have huncounted := LanePoint.uncounted_nonneg v.lane
  omega

/-- In every run: the commands to execute that are in the mailbox of a session are counted, the
count is within the size of the mailbox, and no submission finds the mailbox full; a client with
the epoch of a session makes it accept no more statements; a session that was made to accept no
more statements by a client, the timer or a shutdown has the command to close in its mailbox or
beside it until its lane takes it up; and a lane that has taken it up does nothing but close. -/
theorem mailbox_accounting (h : (brokerSystem config).Reachable b) :
  (∀ k runtime, b.sessions.get? k = some runtime →
      (runtime.mailbox.countP LaneCommand.isExecute : ℤ) ≤ runtime.pendingCount
        ∧ 0 ≤ runtime.pendingCount ∧ runtime.pendingCount ≤ config.mailboxSize)
    ∧ (∀ request s resultSetId now, b.store.statements.get? s = none →
      raised ((submit config request s resultSetId now).run b)
        ≠ some (.runtimeError "broker mailbox accounting diverged".toList))
    ∧ (∀ k runtime reason now, b.sessions.get? k = some runtime →
      ∃ runtime', (stateOf ((close config k runtime.session.epoch reason now).run b)).sessions.get? k
        = some runtime' ∧ runtime'.accepting = false)
    ∧ (∀ action b' k runtime runtime', (brokerSystem config).step b action b' → action.MayClose →
      b.sessions.get? k = some runtime → runtime.accepting = true →
      b'.sessions.get? k = some runtime' → runtime'.accepting = false →
      ∀ b'' runtime'', (brokerSystem config).Later b' b'' → b''.sessions.get? k = some runtime'' →
        (∃ reason, .close reason ∈ runtime''.mailbox) ∨ runtime''.closeReasonPending ≠ none
          ∨ runtime''.lane.IsClosing ∨ runtime''.lane = .exited)
    ∧ (∀ b' k runtime runtime', (brokerSystem config).Later b b' →
      b.sessions.get? k = some runtime → b'.sessions.get? k = some runtime' →
      runtime.lane.IsClosing ∨ runtime.lane = .exited →
      runtime'.lane.IsClosing ∨ runtime'.lane = .exited)
  := by
  have hb := reachable_sound h
  refine ⟨?_, ?_, ?_, ?_, ?_⟩
  · intro k runtime hk
    apply (hb.view k runtime hk).counts
  · intro request s resultSetId now hfresh hraised
    obtain ⟨hrefusal, -⟩ := (submit_calms hb hfresh).of_raised hraised
    obtain hmessage | hmessage := hrefusal
    · revert hmessage
      decide
    · revert hmessage
      decide
  · intro k runtime reason now hk
    exact (close_spec reason now hb hk).stateOf_of_ok
  · intro action b' k runtime runtime' hstep haction hk haccepting hk' haccepting' b'' runtime''
      hlater hk''
    have hb' := step_sound hb hstep
    have hasked := (becomes_of_step hb hstep).asked hb' haction hk haccepting hk' haccepting'
    apply (has_later hb' _ hasked hlater).2 runtime'' hk''
    intro b action v w _ hbears hv
    apply hbears.asked hv
  · intro b' k runtime runtime' hlater hk hk' hclosing
    have hhas : b.Has k (fun v => v.lane.IsClosing ∨ v.lane = .exited) := hb.has hk hclosing
    apply (has_later hb _ hhas hlater).2 runtime' hk'
    intro b action v w _ hbears hv
    apply hbears.isClosing hv

end Mailbox

/-- A client attaches, and closes the session once it is open. -/
def closedByClient : List Action :=
  [.attachEnter ⟨"c".toList, "d".toList, "u".toList⟩,
   .attachSerial "s".toList false 0,
   .attachControl false false,
   .control "d".toList (.opened (some .available)) 0,
   .attachReady false,
   .lane "s".toList (.opened "m".toList) 0,
   .close "s".toList 1 "user".toList 0]

theorem mailbox_accounting_closedByClient :
  ∃ b, runOf {} "b".toList closedByClient = some b
    ∧ (b.sessions.get? "s".toList).map SessionRuntime.mailbox = some [.close "user".toList]
    ∧ ∀ k runtime, b.sessions.get? k = some runtime → 0 ≤ runtime.pendingCount
  := by
  obtain ⟨b, hb⟩ := Option.isSome_iff_exists.mp
    (by rfl : (runOf {} "b".toList closedByClient).isSome = true)
  have hseen : (runOf {} "b".toList closedByClient).map (fun b =>
      (b.sessions.get? "s".toList).map SessionRuntime.mailbox)
      = some (some [.close "user".toList]) := by
    rfl
  rw [hb] at hseen
  refine ⟨b, hb, Option.some.inj hseen, ?_⟩
  intro k runtime hk
  apply ((mailbox_accounting (reachable_of_runOf hb)).1 k runtime hk).2.1

/-- When the lane has taken up the command to close, the command is neither in the mailbox nor
beside it, and the lane has not come to its end. -/
theorem close_taken_up :
  ∃ b b' runtime, runOf {} "b".toList closedByClient = some b
    ∧ (brokerSystem {}).Reachable b
    ∧ (b.sessions.get? "s".toList).map SessionRuntime.mailbox = some [.close "user".toList]
    ∧ (brokerSystem {}).Later b b' ∧ b'.sessions.get? "s".toList = some runtime
    ∧ (∀ reason, .close reason ∉ runtime.mailbox) ∧ runtime.closeReasonPending = none
    ∧ runtime.lane ≠ .exited
  := by
  obtain ⟨b, hb⟩ := Option.isSome_iff_exists.mp
    (by rfl : (runOf {} "b".toList closedByClient).isSome = true)
  have hasked : (runOf {} "b".toList closedByClient).map (fun b =>
      (b.sessions.get? "s".toList).map SessionRuntime.mailbox)
      = some (some [.close "user".toList]) := by
    rfl
  have hnext : ((runOf {} "b".toList closedByClient).bind (fun b =>
      b.next {} (.lane "s".toList .proceed 0))).bind (fun b =>
        (b.sessions.get? "s".toList).map (fun runtime =>
          (runtime.mailbox, runtime.closeReasonPending, runtime.lane)))
      = some ([], none, .closeFenced "user".toList) := by
    rfl
  rw [hb] at hasked hnext
  obtain ⟨b', hb', hnext⟩ := Option.bind_eq_some_iff.mp hnext
  obtain ⟨runtime, hk, hseen⟩ := Option.map_eq_some_iff.mp hnext
  obtain ⟨hmailbox, hseen⟩ := Prod.mk.inj hseen
  obtain ⟨hpending, hlane⟩ := Prod.mk.inj hseen
  refine ⟨b, b', runtime, hb, reachable_of_runOf hb, Option.some.inj hasked, ?_, hk, ?_, hpending,
    ?_⟩
  · exact .single ⟨_, step_of_next hb'⟩
  · rw [hmailbox]
    nofun
  · rw [hlane]
    nofun

end Broker

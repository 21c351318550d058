import DataOpsStudio.Broker.Limits

/-!
# Epochs, and execution at most once

A client that does not know the epoch of the last attachment changes nothing.  A client request
leads to one statement, however often it is made; a statement is handed to `connection.execute`
at most once, and not at all if it was cancelled before it was started; and the epochs of the
attachments to a console increase.
-/

namespace Broker

open Text Program

/-! ### Requests with another epoch -/

section Stale

variable {config : BrokerConfig} {b : SessionBroker} {now : ℤ}

/-- The broker is as it was, and an exception is raised. -/
def Refuses {α : Type} (m : BrokerM α) (b : SessionBroker) : Prop :=
  Ensures m b (fun _ _ => False) (fun _ b' => b' = b)

/-- A program of a client that does not know the epoch of the session is refused. -/
theorem refuses_of_stale {α : Type} {k : Text} {epoch : ℤ} {f : SessionRuntime → BrokerM α}
    (hstale : ∀ runtime, b.sessions.get? k = some runtime → runtime.session.epoch ≠ epoch) :
  Refuses (do
    let runtime ← requireRuntime k
    requireEpoch runtime epoch
    f runtime) b
  := by
  simp only [Refuses, requireRuntime, requireEpoch, ensures_bind, ensures_get]
  cases hk : b.sessions.get? k with
  | none => rfl
  | some runtime =>
      rw [demand_some, ensures_pure, ensures_when]
      refine ⟨fun _ => rfl, fun hsame => ?_⟩
      exact (hsame (hstale runtime hk).symm).elim

theorem submit_refuses {request : SubmitRequest} {statementId : Text} {resultSetId : Option Text}
    (hstale : ∀ runtime, b.sessions.get? request.sessionId = some runtime →
      runtime.session.epoch ≠ request.epoch) :
  Refuses (submit config request statementId resultSetId now) b
  := by
  have hvalidate : Ensures (validateSubmit request) b (fun _ b' => b' = b) (fun _ b' => b' = b) := by
    simp only [validateSubmit, ensures_bind, ensures_when, ensures_throw, implies_true, and_self]
  rw [submit, Refuses, ensures_bind]
  apply hvalidate.mono
  · rintro _ b' rfl
    apply refuses_of_stale hstale
  · intro e b' heq
    apply heq

theorem cancel_refuses {s : Text} {epoch : ℤ}
    (hstale : ∀ k runtime, b.statementSessions.get? s = some k → b.sessions.get? k = some runtime →
      runtime.session.epoch ≠ epoch) :
  Refuses (cancel config s epoch now) b
  := by
  rw [cancel, Refuses, ensures_bind, runtimeForStatement, ensures_bind, ensures_get]
  cases hs : b.statementSessions.get? s with
  | none => rfl
  | some k =>
      rw [demand_some]
      apply refuses_of_stale
      intro runtime hk
      apply hstale k runtime hs hk

theorem close_refuses {k reason : Text} {epoch : ℤ}
    (hstale : ∀ runtime, b.sessions.get? k = some runtime → runtime.session.epoch ≠ epoch) :
  Refuses (close config k epoch reason now) b
  := by
  rw [close]
  apply refuses_of_stale hstale

end Stale

/-! ### Statements that are handed over -/

/-- Only a statement that has not been started can come to be prepared. -/
theorem Step.lane_preparing {size : ℕ} {v w : View} {label : Label} (h : Step size v label w)
    {s : Text} (hlane : w.lane = .preparing s) :
  v.lane = .preparing s ∨ v.statements s = some .accepted ∧ w.statements s = some .executing
  := by
  cases h with
  | start h hstate hfence hs =>
      cases hlane
      exact .inr ⟨hs, by simp⟩
  | accept => exact .inl hlane
  | refuse => exact .inl hlane
  | cancelQueued => exact .inl hlane
  | beginCancel => exact .inl hlane
  | sendDestroy => exact .inl hlane
  | putClose => exact .inl hlane
  | noteClose => exact .inl hlane
  | reportIgnored => exact .inl hlane
  | reportCancel => exact .inl hlane
  | reportReleasing => exact .inl hlane
  | reportAfterLoss => exact .inl hlane
  | reportLosing => exact .inl hlane
  | _ => cases hlane

theorem Bears.lane_preparing {config : BrokerConfig} {b : SessionBroker} {action : Action}
    {k s : Text} {v w : View} (h : Bears config b action k v w) (hlane : w.lane = .preparing s) :
  v.lane = .preparing s ∨ v.statements s = some .accepted ∧ w.statements s = some .executing
  := by
  cases h with
  | moves _ h => exact .inl (h.lane.symm.trans hlane)
  | lane _ _ _ h => apply h.lane_preparing hlane
  | control _ _ _ _ h => apply h.lane_preparing hlane
  | start _ h => apply h.lane_preparing hlane

/-- A statement that is prepared has been started. -/
theorem View.Sound.of_preparing {size : ℕ} {v : View} (h : v.Sound size) {s : Text}
    (hlane : v.lane = .preparing s) :
  ∃ x, v.statements s = some x ∧ x ≠ .accepted
  := by
  have hstarted : v.InFlight s ∨ v.Ended s := by
    obtain hcurrent | ⟨-, hended⟩ := h.current s (by rw [hlane]; rfl)
    · exact .inl ((h.inFlight_iff s).mpr hcurrent)
    · exact .inr hended
  obtain (hs | hs) | ⟨hknown, haccepted, -⟩ := hstarted
  · exact ⟨.executing, hs, nofun⟩
  · exact ⟨.streaming, hs, nofun⟩
  · obtain ⟨x, hx⟩ := Option.ne_none_iff_exists'.mp hknown
    refine ⟨x, hx, ?_⟩
    rintro rfl
    exact haccepted hx

/-- A statement of the store that has been started or has come to an end, and that no lane is
about to hand over. -/
def SessionBroker.Past (b : SessionBroker) (s : Text) : Prop :=
  ∃ statement, b.store.statements.get? s = some statement ∧ statement.state ≠ .accepted
    ∧ ∀ runtime, b.sessions.get? statement.sessionId = some runtime →
      runtime.lane ≠ .preparing s

section Handed

variable {config : BrokerConfig} {b b' : SessionBroker} {action : Action} {s : Text}

/-- What an action hands over. -/
theorem Becomes.executed (h : Becomes config b action b') :
  b'.history.executed = b.history.executed
    ∨ ∃ s k now runtime, b'.history.executed = b.history.executed ++ [s]
      ∧ action = .lane k .proceed now ∧ b.sessions.get? k = some runtime
      ∧ runtime.lane = .preparing s ∧ Evolves config (Bears config b action) b b'
  := by
  cases h with
  | goesOn h hleaves =>
      rw [hleaves.history]
      show (b.historyAfter action).executed = _ ∨ ∃ s k now runtime,
        (b.historyAfter action).executed = _ ∧ _
      cases action with
      | lane k input now =>
          cases hk : b.sessions.get? k with
          | none =>
              left
              rw [SessionBroker.historyAfter, hk]
          | some runtime =>
              by_cases hcase : ∃ s, runtime.lane = .preparing s ∧ input = .proceed
              · obtain ⟨s, hlane, rfl⟩ := hcase
                refine .inr ⟨s, k, now, runtime, ?_, rfl, hk, hlane, h⟩
                rw [SessionBroker.historyAfter, hk]
                show b.history.executed ++ runtime.handed .proceed = _
                unfold SessionRuntime.handed
                rw [hlane]
              · left
                rw [SessionBroker.historyAfter, hk]
                show b.history.executed ++ runtime.handed input = _
                unfold SessionRuntime.handed
                split
                · rename_i s hlane
                  exact (hcase ⟨s, hlane, rfl⟩).elim
                · apply List.append_nil
      | control d input now =>
          left
          rw [SessionBroker.historyAfter]
          split
          · rfl
          · unfold ControlLane.historyAfter History.report
            split
            · split
              · rfl
              · rfl
            · rfl
      | _ => exact .inl rfl
  | attaches h hattach =>
      left
      cases hattach with
      | awaits _ hcontrol =>
          obtain rfl | rfl := hcontrol
          · rfl
          · rfl
      | _ => rfl
  | creates => exact .inl rfl
  | restarts => exact .inl rfl

/-- A session whose lane prepares a statement was there before, and its lane prepared the
statement already or has started it. -/
theorem Becomes.lane_preparing (h : Becomes config b action b') {k : Text}
    {runtime' : SessionRuntime} (hk' : b'.sessions.get? k = some runtime')
    (hpreparing : runtime'.lane = .preparing s) :
  ∃ runtime, b.sessions.get? k = some runtime
    ∧ (runtime.lane = .preparing s ∨ statesOf runtime.statements s = some .accepted
      ∧ statesOf runtime'.statements s = some .executing)
  := by
  have hevolves : Evolves config (Bears config b action) b b' → ∃ runtime,
      b.sessions.get? k = some runtime
        ∧ (runtime.lane = .preparing s ∨ statesOf runtime.statements s = some .accepted
          ∧ statesOf runtime'.statements s = some .executing) := by
    intro h
    obtain ⟨runtime, hk⟩ := h.exists_before hk'
    obtain ⟨runtime'', hk'', -, -, hview⟩ := h.sessions _ runtime hk
    obtain rfl := Option.some.inj (hk'.symm.trans hk'')
    exact ⟨runtime, hk, hview.lane_preparing hpreparing⟩
  cases h with
  | goesOn h => apply hevolves h
  | attaches h => apply hevolves h
  | creates _ h =>
      obtain rfl | hold := h.before _ runtime' hk'
      · obtain ⟨runtime, hk, hview⟩ := h.created
        obtain rfl := Option.some.inj (hk'.symm.trans hk)
        have hunstarted : runtime'.lane = .unstarted := congrArg View.lane hview
        rw [hunstarted] at hpreparing
        cases hpreparing
      · exact ⟨runtime', hold, .inl hpreparing⟩
  | restarts => cases (Dict.get?_empty _).symm.trans hk'

/-- What is past stays past. -/
theorem Becomes.past (hb : b.Sound config) (h : Becomes config b action b') (hs : b.Past s) :
  b'.Past s
  := by
  obtain ⟨statement, hs, hstarted, hlane⟩ := hs
  obtain ⟨statement', hs', hsame, hedge⟩ := h.exists_statement hb hs
  refine ⟨statement', hs', ?_, ?_⟩
  · intro haccepted
    rw [haccepted] at hedge
    exact hstarted hedge.eq_of_accepted
  · intro runtime' hk' hpreparing
    rw [hsame.sessionId] at hk'
    obtain ⟨runtime, hk, hbefore | ⟨haccepted, -⟩⟩ := h.lane_preparing hk' hpreparing
    · apply hlane runtime hk hbefore
    · rw [statesOf, (hb.mirrored hk).mpr ⟨hs, rfl⟩] at haccepted
      exact hstarted (Option.some.inj haccepted)

/-- A statement that is past is not handed over. -/
theorem Becomes.not_executed (hb : b.Sound config) (h : Becomes config b action b')
    (hpast : b.Past s) (hs : s ∉ b.history.executed) :
  s ∉ b'.history.executed
  := by
  obtain hsame | ⟨s', k, now, runtime, hmore, -, hk, hpreparing, -⟩ := h.executed
  · rw [hsame]
    apply hs
  · rw [hmore, List.mem_append, List.mem_singleton]
    rintro (hmem | rfl)
    · apply hs hmem
    · obtain ⟨statement, hstored, -, hlane⟩ := hpast
      obtain ⟨x, hx, -⟩ := (hb.view k runtime hk).of_preparing hpreparing
      have hx' : statesOf runtime.statements s = some x := hx
      obtain ⟨own, hown, -⟩ := Option.map_eq_some_iff.mp hx'
      obtain ⟨hstored', rfl⟩ := (hb.mirrored hk).mp hown
      obtain rfl := Option.some.inj (hstored.symm.trans hstored')
      apply hlane runtime hk hpreparing

/-- The statements handed over are different ones, and all of them are past. -/
structure SessionBroker.Handed (b : SessionBroker) : Prop where
  nodup : b.history.executed.Nodup
  past : ∀ s ∈ b.history.executed, b.Past s

theorem Becomes.handed (hb : b.Sound config) (h : Becomes config b action b')
    (hhanded : b.Handed) :
  b'.Handed
  := by
  have hold : ∀ s ∈ b.history.executed, b'.Past s := fun s hs => h.past hb (hhanded.past s hs)
  obtain hsame | ⟨s, k, now, runtime, hmore, rfl, hk, hlane, hevolves⟩ := h.executed
  · constructor
    · rw [hsame]
      apply hhanded.nodup
    · rw [hsame]
      apply hold
  · have hv := hb.view k runtime hk
    -- the statement is one of the session, and the lane leaves the point where it was prepared
    obtain ⟨x, hx, hstarted⟩ := hv.of_preparing hlane
    have hx' : statesOf runtime.statements s = some x := hx
    obtain ⟨statement, hown, rfl⟩ := Option.map_eq_some_iff.mp hx'
    obtain ⟨hs, hsession⟩ := (hb.mirrored hk).mp hown
    have hfresh : s ∉ b.history.executed := by
      intro hmem
      obtain ⟨statement', hs', -, hpast⟩ := hhanded.past s hmem
      obtain rfl := Option.some.inj (hs.symm.trans hs')
      exact hpast runtime (by rw [hsession]; exact hk) hlane
    have hpast : b'.Past s := by
      obtain ⟨statement', hs', hsame, hedge⟩ := h.exists_statement hb hs
      refine ⟨statement', hs', ?_, ?_⟩
      · intro haccepted
        rw [haccepted] at hedge
        exact hstarted hedge.eq_of_accepted
      · rw [hsame.sessionId, hsession]
        intro runtime' hk' hpreparing
        obtain ⟨runtime'', hk'', -, -, hview⟩ := hevolves.sessions k runtime hk
        obtain rfl := Option.some.inj (hk'.symm.trans hk'')
        cases hview with
        | moves hidle => exact hidle (.inl ⟨.proceed, now, rfl⟩)
        | lane _ hhand _ _ =>
            have hexecuting : runtime'.lane = .executing s := hhand s hlane rfl
            rw [hexecuting] at hpreparing
            cases hpreparing
    constructor
    · rw [hmore, List.nodup_append]
      refine ⟨hhanded.nodup, List.pairwise_singleton _ s, ?_⟩
      rintro s' hs' s'' hs'' rfl
      rw [List.mem_singleton.mp hs''] at hs'
      exact hfresh hs'
    · rw [hmore]
      intro s' hs'
      obtain hs' | hs' := List.mem_append.mp hs'
      · apply hold s' hs'
      · rw [List.mem_singleton.mp hs']
        apply hpast

end Handed

/-! ### The epochs of attachments -/

/-- The session an attachment has made. -/
def AttachPoint.made : AttachPoint → Option (AttachRequest × Text)
  | .entered _ => none
  | .created request k => some (request, k)
  | .awaiting request k => some (request, k)

/-- The epoch of the last attachment to a console. -/
def MemoryBrokerStore.epochOf (store : MemoryBrokerStore) (consoleId : Text) : ℤ :=
  (store.epochs.get? consoleId).getD 0

/-- The epochs that have been returned increase, and the epoch of a session that an attachment
has made is above them. -/
structure SessionBroker.Dated (b : SessionBroker) : Prop where
  increasing : b.history.attached.Pairwise (fun x y => x.1 = y.1 → x.2 < y.2)
  attached : ∀ consoleId epoch, (consoleId, epoch) ∈ b.history.attached →
    epoch ≤ b.store.epochOf consoleId
  attaching : ∀ point request k, b.attaching = some point → point.made = some (request, k) →
    ∃ runtime, b.sessions.get? k = some runtime
      ∧ runtime.session.epoch ≤ b.store.epochOf request.consoleId
      ∧ ∀ epoch, (request.consoleId, epoch) ∈ b.history.attached → epoch < runtime.session.epoch

section Dated

variable {config : BrokerConfig} {b b' : SessionBroker} {action : Action}

/-- Only attachments note epochs. -/
theorem historyAfter_attached (b : SessionBroker) (action : Action) :
  (b.historyAfter action).attached = b.history.attached
  := by
  unfold SessionBroker.historyAfter
  split
  · split
    · rfl
    · rfl
  · split
    · rfl
    · unfold ControlLane.historyAfter History.report
      split
      · split
        · rfl
        · rfl
      · rfl
  · rfl

/-- The epochs of the consoles after one of them has been attached to. -/
theorem epochOf_next {store : MemoryBrokerStore} {consoleId consoleId' : Text}
    {sessions : Dict Text ConsoleSession} :
  ({ store with
      epochs := store.epochs.set consoleId (store.nextEpoch consoleId)
      sessions := sessions } : MemoryBrokerStore).epochOf consoleId'
    = if consoleId' = consoleId then store.epochOf consoleId + 1 else store.epochOf consoleId'
  := by
  rw [MemoryBrokerStore.epochOf]
  split
  · rename_i heq
    rw [heq, Dict.get?_set_self]
    rfl
  · rename_i hne
    rw [Dict.get?_set_of_ne _ _ (Ne.symm hne)]
    rfl

/-- The attached epochs stay below those of their consoles when one of these grows. -/
theorem attached_le_next {store : MemoryBrokerStore} {attached : List (Text × ℤ)}
    {consoleId : Text} {sessions : Dict Text ConsoleSession}
    (h : ∀ consoleId epoch, (consoleId, epoch) ∈ attached → epoch ≤ store.epochOf consoleId)
    {consoleId' : Text} {epoch : ℤ} (hmem : (consoleId', epoch) ∈ attached) :
  epoch ≤ ({ store with
      epochs := store.epochs.set consoleId (store.nextEpoch consoleId)
      sessions := sessions } : MemoryBrokerStore).epochOf consoleId'
  := by
  have hle := h consoleId' epoch hmem
  rw [epochOf_next]
  split
  · rename_i heq
    rw [heq] at hle
    omega
  · apply hle

/-- A list of attachments may be extended by one whose epoch is above those of its console. -/
theorem pairwise_attach {attached : List (Text × ℤ)} {consoleId : Text} {epoch : ℤ}
    (h : attached.Pairwise (fun x y => x.1 = y.1 → x.2 < y.2))
    (habove : ∀ epoch', (consoleId, epoch') ∈ attached → epoch' < epoch) :
  (attached ++ [(consoleId, epoch)]).Pairwise (fun x y => x.1 = y.1 → x.2 < y.2)
  := by
  rw [List.pairwise_append]
  refine ⟨h, List.pairwise_singleton _ _, ?_⟩
  rintro ⟨consoleId', epoch'⟩ hmem ⟨consoleId'', epoch''⟩ hmem' heq
  obtain ⟨rfl, rfl⟩ := Prod.mk.inj (List.mem_singleton.mp hmem')
  obtain rfl : consoleId' = consoleId'' := heq
  apply habove epoch' hmem

/-- A part of an attachment keeps the epochs in order. -/
theorem Attaches.dated (h : b.Dated) (hattach : Attaches config b b') :
  b'.Dated
  := by
  obtain ⟨hincreasing, hattached, hattaching⟩ := h
  cases hattach with
  | enters request _ =>
      refine ⟨hincreasing, hattached, ?_⟩
      intro point request' k hpoint hmade
      obtain rfl := Option.some.inj hpoint
      cases hmade
  | fails =>
      refine ⟨hincreasing, hattached, ?_⟩
      intro point request k hpoint
      cases hpoint
  | failsWithRow request k now =>
      refine ⟨hincreasing, ?_, ?_⟩
      · intro consoleId epoch hmem
        apply attached_le_next hattached hmem
      · intro point request k hpoint
        cases hpoint
  | failsWithControl d =>
      refine ⟨hincreasing, hattached, ?_⟩
      intro point request k hpoint
      cases hpoint
  | @reuses request k runtime now hk hconsole =>
      have habove : ∀ epoch, (request.consoleId, epoch) ∈ b.history.attached →
          epoch < b.store.nextEpoch request.consoleId := by
        intro epoch hmem
        have hle := hattached _ epoch hmem
        rw [MemoryBrokerStore.nextEpoch]
        rw [MemoryBrokerStore.epochOf] at hle
        omega
      refine ⟨pairwise_attach hincreasing habove, ?_, ?_⟩
      · intro consoleId epoch hmem
        obtain hmem | hmem := List.mem_append.mp hmem
        · apply attached_le_next hattached hmem
        · obtain ⟨rfl, rfl⟩ := Prod.mk.inj (List.mem_singleton.mp hmem)
          apply Int.le_of_eq
          apply Eq.symm
          apply epochOf_next.trans
          rw [if_pos rfl]
          rfl
      · intro point request k hpoint
        cases hpoint
  | @awaits request k b₁ hpoint h =>
      have hmade := hattaching _ request k hpoint rfl
      obtain rfl | rfl := h
      all_goals
        refine ⟨hincreasing, hattached, ?_⟩
        intro point request' k' hpoint' hmade'
        obtain rfl := Option.some.inj hpoint'
        obtain ⟨rfl, rfl⟩ := Prod.mk.inj (Option.some.inj hmade')
        apply hmade
  | @finishes request k runtime c hpoint hk hepochs hepoch hconsole =>
      obtain ⟨runtime', hk', hle, habove⟩ := hattaching _ request k hpoint rfl
      obtain rfl := Option.some.inj (hk.symm.trans hk')
      refine ⟨pairwise_attach hincreasing habove, ?_, ?_⟩
      · intro consoleId epoch hmem
        show epoch ≤ (c.store.epochs.get? consoleId).getD 0
        rw [hepochs]
        obtain hmem | hmem := List.mem_append.mp hmem
        · apply hattached consoleId epoch hmem
        · obtain ⟨rfl, rfl⟩ := Prod.mk.inj (List.mem_singleton.mp hmem)
          apply hle
      · intro point request k hpoint
        cases hpoint

/-- Every action keeps the epochs in order. -/
theorem Becomes.dated (h : Becomes config b action b') (hdated : b.Dated) :
  b'.Dated
  := by
  cases h with
  | goesOn _ hleaves =>
      have hstore : ∀ consoleId, b'.store.epochOf consoleId = b.store.epochOf consoleId := by
        intro consoleId
        rw [MemoryBrokerStore.epochOf, hleaves.epochs]
        rfl
      have hhistory : b'.history.attached = b.history.attached := by
        rw [hleaves.history]
        apply historyAfter_attached
      obtain ⟨hincreasing, hattached, hattaching⟩ := hdated
      constructor
      · rw [hhistory]
        apply hincreasing
      · rw [hhistory]
        intro consoleId epoch hmem
        rw [hstore]
        apply hattached consoleId epoch hmem
      · intro point request k hpoint hmade
        rw [hleaves.attaching] at hpoint
        obtain ⟨runtime, hk, hle, habove⟩ := hattaching point request k hpoint hmade
        obtain ⟨runtime', hk', hepoch⟩ := hleaves.epoch k runtime hk
        refine ⟨runtime', hk', ?_, ?_⟩
        · rw [hepoch, hstore]
          apply hle
        · rw [hepoch, hhistory]
          apply habove
  | attaches _ hattach => apply hattach.dated hdated
  | @creates request k now _ _ _ =>
      obtain ⟨hincreasing, hattached, -⟩ := hdated
      refine ⟨hincreasing, ?_, ?_⟩
      · intro consoleId epoch hmem
        apply attached_le_next hattached hmem
      · intro point request' k' hpoint hmade
        obtain rfl := Option.some.inj hpoint
        obtain ⟨rfl, rfl⟩ := Prod.mk.inj (Option.some.inj hmade)
        refine ⟨_, create_get?_self, ?_, ?_⟩
        · apply Int.le_of_eq
          apply Eq.symm
          apply epochOf_next.trans
          rw [if_pos rfl]
          rfl
        · intro epoch hmem
          have hle := hattached _ epoch hmem
          show epoch < b.store.nextEpoch request.consoleId
          rw [MemoryBrokerStore.nextEpoch]
          rw [MemoryBrokerStore.epochOf] at hle
          omega
  | restarts =>
      obtain ⟨hincreasing, hattached, -⟩ := hdated
      refine ⟨hincreasing, hattached, ?_⟩
      intro point request k hpoint
      cases hpoint

end Dated

/-! ### Every run -/

section Reachable

variable {config : BrokerConfig} {b : SessionBroker}

theorem reachable_handed (h : (brokerSystem config).Reachable b) :
  b.Handed
  := by
  have hboth : b.Sound config ∧ b.Handed := by
    apply h.invariant
    · rintro b ⟨bootId, rfl⟩
      exact ⟨initial_sound config bootId, List.Pairwise.nil, nofun⟩
    · rintro b action b' ⟨hb, hhanded⟩ hstep
      exact ⟨step_sound hb hstep, (becomes_of_step hb hstep).handed hb hhanded⟩
  apply hboth.2

theorem reachable_dated (h : (brokerSystem config).Reachable b) :
  b.Dated
  := by
  have hboth : b.Sound config ∧ b.Dated := by
    apply h.invariant
    · rintro b ⟨bootId, rfl⟩
      refine ⟨initial_sound config bootId, List.Pairwise.nil, nofun, ?_⟩
      intro point request k hpoint
      cases hpoint
    · rintro b action b' ⟨hb, hdated⟩ hstep
      exact ⟨step_sound hb hstep, (becomes_of_step hb hstep).dated hdated⟩
  apply hboth.2

/-- A statement that was cancelled before it was started is never handed over. -/
theorem not_executed_of_cancelled {b' b'' : SessionBroker} {action : Action} {s : Text}
    {statement statement' : ConsoleStatement} (h : (brokerSystem config).Reachable b)
    (hstep : (brokerSystem config).step b action b')
    (hs : b.store.statements.get? s = some statement) (haccepted : statement.state = .accepted)
    (hs' : b'.store.statements.get? s = some statement') (hcancelled : statement'.state = .cancelled)
    (hlater : (brokerSystem config).Later b' b'') :
  s ∉ b''.history.executed
  := by
  have hb := reachable_sound h
  have hbecomes := becomes_of_step hb hstep
  have hnot : s ∉ b.history.executed := by
    intro hmem
    obtain ⟨statement'', hs'', hstarted, -⟩ := (reachable_handed h).past s hmem
    obtain rfl := Option.some.inj (hs.symm.trans hs'')
    exact hstarted haccepted
  -- no lane was about to hand the statement over, and none has started it
  have hlane : ∀ k runtime, b.sessions.get? k = some runtime → runtime.lane ≠ .preparing s := by
    intro k runtime hk hpreparing
    obtain ⟨x, hx, hstarted⟩ := (hb.view k runtime hk).of_preparing hpreparing
    have hx' : statesOf runtime.statements s = some x := hx
    obtain ⟨own, hown, rfl⟩ := Option.map_eq_some_iff.mp hx'
    obtain rfl := Option.some.inj (hs.symm.trans ((hb.mirrored hk).mp hown).1)
    exact hstarted haccepted
  have hpast : b'.Past s := by
    refine ⟨statement', hs', ?_, ?_⟩
    · rw [hcancelled]
      nofun
    · intro runtime' hk' hpreparing
      obtain ⟨runtime, hk, hbefore | ⟨-, hexecuting⟩⟩ := hbecomes.lane_preparing hk' hpreparing
      · apply hlane _ runtime hk hbefore
      · rw [statesOf, ((step_sound hb hstep).mirrored hk').mpr ⟨hs', rfl⟩] at hexecuting
        cases hcancelled.symm.trans (Option.some.inj hexecuting)
  have hnot' : s ∉ b'.history.executed := by
    obtain hsame | ⟨s', k, now, runtime, hmore, -, hk, hpreparing, -⟩ := hbecomes.executed
    · rw [hsame]
      apply hnot
    · rw [hmore, List.mem_append, List.mem_singleton]
      rintro (hmem | rfl)
      · apply hnot hmem
      · apply hlane k runtime hk hpreparing
  have hboth := TransitionSystem.Later.invariant (T := brokerSystem config)
    (I := SessionBroker.Sound config)
    (P := fun b => b.Past s ∧ s ∉ b.history.executed)
    (fun b action b' hb hstep => step_sound hb hstep)
    (by
      rintro b action b' hb ⟨hpast, hnot⟩ hstep
      have hbecomes := becomes_of_step hb hstep
      exact ⟨hbecomes.past hb hpast, hbecomes.not_executed hb hpast hnot⟩)
    (step_sound hb hstep) ⟨hpast, hnot'⟩ hlater
  apply hboth.2.2

/-- In every run: a client with another epoch is refused and changes nothing; a session has one
statement for a client request; a statement is handed to `connection.execute` at most once, and
never after it was cancelled before it was started; and the epochs returned by the attachments
to a console increase. -/
theorem epochs_and_execution (h : (brokerSystem config).Reachable b) :
  (∀ request statementId resultSetId now,
      (∀ runtime, b.sessions.get? request.sessionId = some runtime →
        runtime.session.epoch ≠ request.epoch) →
      Refuses (submit config request statementId resultSetId now) b)
    ∧ (∀ s epoch now,
      (∀ k runtime, b.statementSessions.get? s = some k → b.sessions.get? k = some runtime →
        runtime.session.epoch ≠ epoch) →
      Refuses (cancel config s epoch now) b)
    ∧ (∀ k epoch reason now,
      (∀ runtime, b.sessions.get? k = some runtime → runtime.session.epoch ≠ epoch) →
      Refuses (close config k epoch reason now) b)
    ∧ (∀ s s' statement statement', b.store.statements.get? s = some statement →
      b.store.statements.get? s' = some statement' → statement.sessionId = statement'.sessionId →
      statement.clientRequestId = statement'.clientRequestId → s = s')
    ∧ b.history.executed.Nodup
    ∧ (∀ action b' b'' s statement statement', (brokerSystem config).step b action b' →
      b.store.statements.get? s = some statement → statement.state = .accepted →
      b'.store.statements.get? s = some statement' → statement'.state = .cancelled →
      (brokerSystem config).Later b' b'' → s ∉ b''.history.executed)
    ∧ b.history.attached.Pairwise (fun x y => x.1 = y.1 → x.2 < y.2)
  := by
  refine ⟨?_, ?_, ?_, ?_, (reachable_handed h).nodup, ?_, (reachable_dated h).increasing⟩
  · intro request statementId resultSetId now hstale
    apply submit_refuses hstale
  · intro s epoch now hstale
    apply cancel_refuses hstale
  · intro k epoch reason now hstale
    apply close_refuses hstale
  · intro s s' statement statement' hs hs' hsession hrequest
    apply (reachable_sound h).store.unique s s' statement statement' hs hs' hsession hrequest
  · intro action b' b'' s statement statement' hstep hs haccepted hs' hcancelled hlater
    apply not_executed_of_cancelled h hstep hs haccepted hs' hcancelled hlater

end Reachable

/-- The request is made once more, another statement is submitted and cancelled before it is
started, and a client attaches to the session once more. -/
def retriedRequest : List Action :=
  oneStatement ++
    [.submit (requestOf "1".toList) "2".toList (some "r".toList) 0,
     .submit (requestOf "3".toList) "3".toList (some "r".toList) 0,
     .cancel "3".toList 1 0,
     .attachEnter ⟨"c".toList, "d".toList, "u".toList⟩,
     .attachSerial "t".toList false 0]

theorem epochs_and_execution_retriedRequest :
  ∃ b, runOf {} "b".toList retriedRequest = some b
    ∧ b.store.statements.keys = ["1".toList, "3".toList]
    ∧ b.history.attached = [("c".toList, 1), ("c".toList, 2)]
    ∧ b.history.executed.Nodup
    ∧ Refuses (close {} "s".toList 1 [] 0) b
  := by
  obtain ⟨b, hb⟩ := Option.isSome_iff_exists.mp
    (by rfl : (runOf {} "b".toList retriedRequest).isSome = true)
  have hseen : (runOf {} "b".toList retriedRequest).map (fun b =>
      (b.store.statements.keys, b.history.attached,
        (b.sessions.get? "s".toList).map (fun runtime => runtime.session.epoch)))
      = some (["1".toList, "3".toList], [("c".toList, 1), ("c".toList, 2)], some 2) := by
    rfl
  rw [hb] at hseen
  obtain ⟨hkeys, hseen⟩ := Prod.mk.inj (Option.some.inj hseen)
  obtain ⟨hattached, hepoch⟩ := Prod.mk.inj hseen
  obtain ⟨-, -, hclose, -, hnodup, -⟩ := epochs_and_execution (reachable_of_runOf hb)
  refine ⟨b, hb, hkeys, hattached, hnodup, ?_⟩
  apply hclose
  intro runtime hk
  rw [hk] at hepoch
  have htwo : runtime.session.epoch = 2 := Option.some.inj hepoch
  rw [htwo]
  decide

end Broker

import DataOpsStudio.Scheduler.Ticks
import Mathlib.Data.List.Pairwise

/-!
# The anchors of the triggers

Whatever a tick or a check has read, its claim is guarded by the anchor that the row has when it is
claimed, and moves it to a later time.  So the anchors only grow, the runs of a schedule have
increasing fire points, and the runs of a sensor are further apart than the cooldown.

The decision whether to seed the schedule or to fire it goes by the row that was read.  A tick
that has read no anchor seeds, also when another tick has put one there in the meantime, and the
fire point it claims is then passed over.
-/

namespace Scheduler

open Text

section Anchors

variable {Zone : Type} {mostRecentFire : Text → ℤ → Zone → Option ℤ}

/-! ### What a step does to the row -/

/-- The row is the old one, up to what the triggers do not guard. -/
structure WorkflowRow.SameAnchors (row row' : WorkflowRow) : Prop where
  scheduleLastFiredAt : row'.scheduleLastFiredAt = row.scheduleLastFiredAt
  sensorLastTriggeredAt : row'.sensorLastTriggeredAt = row.sensorLastTriggeredAt

variable (mostRecentFire) in
/-- What a step can do to the anchors, and the runs that it enqueues then.  A fire point is claimed
without a run if the workflow has no owner or the tick has decided to seed. -/
inductive Moves (s : State Zone) (a : Action Zone) (t : State Zone) : Prop where
  | deleted (hrow : t.row = none) (hruns : t.runs = s.runs)
  | kept (row row' : WorkflowRow) (hrow : s.row = some row) (hrow' : t.row = some row')
      (hsame : row.SameAnchors row') (hruns : t.runs = s.runs)
  | claimed (row : WorkflowRow) (fireAt : ℤ) (added : List WorkflowRun) (hrow : s.row = some row)
      (hrow' : t.row = some { row with scheduleLastFiredAt := some fireAt })
      (hguard : ∀ before, row.scheduleLastFiredAt = some before → before < fireAt)
      (hruns : t.runs = s.runs ++ added) (hone : added.length ≤ 1)
      (hadded : ∀ run ∈ added, run.trigger = .schedule ∧ run.now = fireAt)
      (hsilent : added = [] → row.owner = none ∨ ∃ tick committed read,
        a = .processRow tick committed ∧ s.scheduleTicks tick = some read ∧
        read.decision mostRecentFire = .seed fireAt)
  | triggered (row : WorkflowRow) (run : WorkflowRun) (cooldownSeconds : ℕ)
      (hrow : s.row = some row)
      (hrow' : t.row = some { row with sensorLastTriggeredAt := some run.now })
      (hguard : ∀ before, row.sensorLastTriggeredAt = some before →
        before < run.now - seconds cooldownSeconds)
      (hruns : t.runs = s.runs ++ [run]) (htrigger : run.trigger = .sensor cooldownSeconds)

/-- A step that does nothing to the row and the runs. -/
theorem Moves.of_eq {s t : State Zone} {a : Action Zone} (hrow : t.row = s.row)
    (hruns : t.runs = s.runs) :
  Moves mostRecentFire s a t
  := by
  cases h : s.row with
  | none => exact .deleted (hrow.trans h) hruns
  | some row => exact .kept row row h (hrow.trans h) ⟨rfl, rfl⟩ hruns

/-- An edit keeps the anchors. -/
theorem Moves.of_map {s t : State Zone} {a : Action Zone} {edit : WorkflowRow → WorkflowRow}
    (hrow : t.row = s.row.map edit) (hedit : ∀ row : WorkflowRow, row.SameAnchors (edit row))
    (hruns : t.runs = s.runs) :
  Moves mostRecentFire s a t
  := by
  cases h : s.row with
  | none =>
      rw [h] at hrow
      exact .deleted hrow hruns
  | some row =>
      rw [h] at hrow
      exact .kept row (edit row) h hrow (hedit row) hruns

/-- What the guard of a claim says. -/
theorem lt_of_admitsFire {row : WorkflowRow} {fireAt : ℤ} (h : row.admitsFire fireAt = true)
    (before : ℤ) (hbefore : row.scheduleLastFiredAt = some before) :
  before < fireAt
  := by
  rw [WorkflowRow.admitsFire, hbefore, Bool.and_eq_true] at h
  exact of_decide_eq_true h.2

/-- A claim leaves the row, or moves the anchor of the schedule. -/
theorem claimFirePoint_cases {seed : Bool} {fireAt : ℤ} {row row' : WorkflowRow}
    {runs : List WorkflowRun} (h : claimFirePoint seed fireAt row = some (row', runs)) :
  (row' = row ∧ runs = []) ∨
    row.admitsFire fireAt = true ∧ row' = { row with scheduleLastFiredAt := some fireAt } ∧
      (runs = [] ∧ (seed = true ∨ row.owner = none) ∨ ∃ ownerUserId spec,
        runs = [{ trigger := .schedule, now := fireAt, ownerUserId, spec }])
  := by
  rw [claimFirePoint] at h
  split at h
  case isFalse =>
      obtain ⟨rfl, rfl⟩ := Prod.mk.inj (Option.some.inj h)
      exact .inl ⟨rfl, rfl⟩
  case isTrue hguard =>
      refine .inr ⟨hguard, ?_⟩
      dsimp only at h
      split at h
      case isTrue hseed =>
          obtain ⟨rfl, rfl⟩ := Prod.mk.inj (Option.some.inj h)
          exact ⟨rfl, .inl ⟨rfl, .inl hseed⟩⟩
      case isFalse =>
          split at h
          case h_1 howner =>
              obtain ⟨rfl, rfl⟩ := Prod.mk.inj (Option.some.inj h)
              exact ⟨rfl, .inl ⟨rfl, .inr howner⟩⟩
          case h_2 ownerUserId howner =>
              obtain ⟨spec, -, hspec⟩ := Option.map_eq_some_iff.mp h
              obtain ⟨rfl, rfl⟩ := Prod.mk.inj hspec
              exact ⟨rfl, .inr ⟨ownerUserId, spec, rfl⟩⟩

/-- A tick claims the fire point it has decided on, or nothing. -/
theorem processRow_cases {tick : Tick Zone} {row row' : WorkflowRow} {runs : List WorkflowRun}
    (h : processRow mostRecentFire tick row = some (row', runs)) :
  (row' = row ∧ runs = []) ∨
    ∃ fireAt, row.admitsFire fireAt = true ∧
      row' = { row with scheduleLastFiredAt := some fireAt } ∧
      (runs = [] ∧ (tick.decision mostRecentFire = .seed fireAt ∨ row.owner = none) ∨
        ∃ ownerUserId spec, runs = [{ trigger := .schedule, now := fireAt, ownerUserId, spec }])
  := by
  rw [processRow] at h
  split at h
  case h_1 =>
      obtain ⟨rfl, rfl⟩ := Prod.mk.inj (Option.some.inj h)
      exact .inl ⟨rfl, rfl⟩
  case h_2 fireAt hdecision =>
      refine (claimFirePoint_cases h).imp_right fun ⟨hguard, hrow, hruns⟩ =>
        ⟨fireAt, hguard, hrow, hruns.imp_left fun ⟨hruns, _⟩ => ⟨hruns, .inl hdecision⟩⟩
  case h_3 fireAt hdecision =>
      refine (claimFirePoint_cases h).imp_right fun ⟨hguard, hrow, hruns⟩ =>
        ⟨fireAt, hguard, hrow, hruns.imp_left fun ⟨hruns, hwhy⟩ => ⟨hruns, .inr ?_⟩⟩
      exact hwhy.resolve_left nofun

/-- A check only moves the anchor that no run depends on. -/
theorem claimSensorCheck_same {prevChecked : Option ℤ} {now : ℤ} {row row' : WorkflowRow}
    {checks : List SensorCheck}
    (h : claimSensorCheck prevChecked now row = some (row', checks)) :
  row.SameAnchors row'
  := by
  rw [claimSensorCheck] at h
  split at h
  case isFalse =>
      obtain ⟨rfl, -⟩ := Prod.mk.inj (Option.some.inj h)
      exact ⟨rfl, rfl⟩
  case isTrue =>
      obtain ⟨spec, -, hspec⟩ := Option.map_eq_some_iff.mp h
      have hrow : row' = { row with sensorLastCheckedAt := some now } := by
        split at hspec
        · exact (Prod.mk.inj hspec).1.symm
        · split at hspec
          · exact (Prod.mk.inj hspec).1.symm
          · split at hspec <;> exact (Prod.mk.inj hspec).1.symm
      rw [hrow]
      exact ⟨rfl, rfl⟩

theorem processSensorRow_same {tick : Tick Zone} {row row' : WorkflowRow}
    {checks : List SensorCheck} (h : processSensorRow tick row = some (row', checks)) :
  row.SameAnchors row'
  := by
  rw [processSensorRow] at h
  split at h
  case h_1 => cases h
  case h_2 =>
      split at h
      case h_1 =>
          obtain ⟨rfl, -⟩ := Prod.mk.inj (Option.some.inj h)
          exact ⟨rfl, rfl⟩
      case h_2 =>
          split at h
          case isTrue => exact claimSensorCheck_same h
          case isFalse =>
              obtain ⟨rfl, -⟩ := Prod.mk.inj (Option.some.inj h)
              exact ⟨rfl, rfl⟩

/-- A worker that triggers the workflow finds it triggered longer ago than the cooldown. -/
theorem claimTriggerAndEnqueue_cases (check : SensorCheck) (now : ℤ) (row : WorkflowRow) :
  claimTriggerAndEnqueue check now row = (row, []) ∨
    (∀ before, row.sensorLastTriggeredAt = some before →
      before < now - seconds check.cooldownSeconds) ∧
    claimTriggerAndEnqueue check now row = ({ row with sensorLastTriggeredAt := some now },
      [{ trigger := .sensor check.cooldownSeconds, now, ownerUserId := check.ownerUserId,
         spec := check.spec }])
  := by
  rw [claimTriggerAndEnqueue]
  split
  case isFalse => exact .inl rfl
  case isTrue hguard =>
      refine .inr ⟨fun before hbefore => ?_, rfl⟩
      rw [hbefore, Bool.and_eq_true] at hguard
      exact of_decide_eq_true hguard.2

/-- A transaction that may enqueue runs is committed or does nothing. -/
theorem commitRuns_cases (s : State Zone) (committed : Bool)
    (outcome : Option (WorkflowRow × List WorkflowRun)) :
  s.commitRuns committed outcome = s ∨ ∃ row runs, outcome = some (row, runs) ∧
    s.commitRuns committed outcome = { s with row := some row, runs := s.runs ++ runs }
  := by
  obtain _ | ⟨row, runs⟩ := outcome
  · exact .inl rfl
  · cases committed with
    | false => exact .inl rfl
    | true => exact .inr ⟨row, runs, rfl, rfl⟩

/-- A transaction that may enqueue checks is committed or does nothing. -/
theorem commitChecks_cases (s : State Zone) (committed : Bool)
    (outcome : Option (WorkflowRow × List SensorCheck)) :
  s.commitChecks committed outcome = s ∨ ∃ row checks, outcome = some (row, checks) ∧
    s.commitChecks committed outcome = { s with row := some row, checks := s.checks ++ checks }
  := by
  obtain _ | ⟨row, checks⟩ := outcome
  · exact .inl rfl
  · cases committed with
    | false => exact .inl rfl
    | true => exact .inr ⟨row, checks, rfl, rfl⟩

/-- What can happen in a step. -/
theorem moves_of_perform {s t : State Zone} {a : Action Zone}
    (h : perform mostRecentFire s a = some t) :
  Moves mostRecentFire s a t
  := by
  cases a with
  | readCandidate tick now timezone =>
      obtain ⟨row, -, h⟩ := Option.bind_eq_some_iff.mp h
      split at h
      · obtain rfl := Option.some.inj h
        exact .of_eq rfl rfl
      · cases h
  | processRow tick committed =>
      obtain ⟨read, hread, rfl⟩ := Option.map_eq_some_iff.mp h
      dsimp only
      split
      case h_1 => exact .of_eq rfl rfl
      case h_2 row hrow =>
          obtain hs | ⟨row', runs, houtcome, hs⟩ := commitRuns_cases
            { s with scheduleTicks := Function.update s.scheduleTicks tick none } committed
            (processRow mostRecentFire read row)
          · rw [hs]
            exact .of_eq rfl rfl
          · rw [hs]
            obtain ⟨rfl, rfl⟩ | ⟨fireAt, hguard, rfl, hruns⟩ := processRow_cases houtcome
            · exact .kept row' row' hrow rfl ⟨rfl, rfl⟩ (List.append_nil _)
            · refine .claimed row fireAt runs hrow rfl (lt_of_admitsFire hguard) rfl ?_ ?_ ?_
              · obtain ⟨rfl, -⟩ | ⟨ownerUserId, spec, rfl⟩ := hruns <;> simp
              · obtain ⟨rfl, -⟩ | ⟨ownerUserId, spec, rfl⟩ := hruns <;> simp
              · obtain ⟨-, hseed | hnone⟩ | ⟨ownerUserId, spec, rfl⟩ := hruns
                · exact fun _ => .inr ⟨tick, committed, read, rfl, hread, hseed⟩
                · exact fun _ => .inl hnone
                · nofun
  | readSensorCandidate tick now timezone =>
      obtain ⟨row, -, h⟩ := Option.bind_eq_some_iff.mp h
      split at h
      · obtain rfl := Option.some.inj h
        exact .of_eq rfl rfl
      · cases h
  | processSensorRow tick committed =>
      obtain ⟨read, -, rfl⟩ := Option.map_eq_some_iff.mp h
      dsimp only
      split
      case h_1 => exact .of_eq rfl rfl
      case h_2 row hrow =>
          obtain hs | ⟨row', checks, houtcome, hs⟩ := commitChecks_cases
            { s with sensorTicks := Function.update s.sensorTicks tick none } committed
            (processSensorRow read row)
          · rw [hs]
            exact .of_eq rfl rfl
          · rw [hs]
            exact .kept row row' hrow rfl (processSensorRow_same houtcome) rfl
  | executeSensorCheck index now truthy committed =>
      obtain ⟨check, -, rfl⟩ := Option.map_eq_some_iff.mp h
      split
      case h_1 => exact .of_eq rfl rfl
      case h_2 row hrow =>
          split
          case isFalse => exact .of_eq rfl rfl
          case isTrue =>
              obtain hs | ⟨row', runs, houtcome, hs⟩ := commitRuns_cases s committed
                (some (claimTriggerAndEnqueue check now row))
              · rw [hs]
                exact .of_eq rfl rfl
              · rw [hs]
                have hclaimed := Option.some.inj houtcome
                obtain hclaim | ⟨hguard, hclaim⟩ := claimTriggerAndEnqueue_cases check now row
                · obtain ⟨rfl, rfl⟩ := Prod.mk.inj (hclaim.symm.trans hclaimed)
                  exact .kept row row hrow rfl ⟨rfl, rfl⟩ (List.append_nil _)
                · obtain ⟨rfl, rfl⟩ := Prod.mk.inj (hclaim.symm.trans hclaimed)
                  exact .triggered row _ check.cooldownSeconds hrow rfl hguard rfl rfl
  | updateProjectWorkflow spec enabled =>
      obtain rfl := Option.some.inj h
      exact .of_map rfl (fun _ => ⟨rfl, rfl⟩) rfl
  | persistWorkflowNotifications spec =>
      obtain rfl := Option.some.inj h
      exact .of_map rfl (fun _ => ⟨rfl, rfl⟩) rfl
  | deleteOwner =>
      obtain rfl := Option.some.inj h
      exact .of_map rfl (fun _ => ⟨rfl, rfl⟩) rfl
  | deleteProjectWorkflow =>
      obtain rfl := Option.some.inj h
      exact .deleted rfl rfl

/-! ### Once for every fire point -/

/-- A run is later than an earlier one of the same schedule, and than an earlier one of the sensor
by more than its own cooldown. -/
def WorkflowRun.Follows (run earlier : WorkflowRun) : Prop :=
  (earlier.trigger = .schedule → run.trigger = .schedule → earlier.now < run.now) ∧
    ∀ cooldown cooldownSeconds, earlier.trigger = .sensor cooldown →
      run.trigger = .sensor cooldownSeconds → earlier.now + seconds cooldownSeconds < run.now

/-- The anchors of the row have reached what a run was enqueued for. -/
def WorkflowRow.Covers (row : WorkflowRow) (run : WorkflowRun) : Prop :=
  (run.trigger = .schedule → ∃ anchor, row.scheduleLastFiredAt = some anchor ∧ run.now ≤ anchor) ∧
    ∀ cooldownSeconds, run.trigger = .sensor cooldownSeconds →
      ∃ anchor, row.sensorLastTriggeredAt = some anchor ∧ run.now ≤ anchor

/-- The runs follow each other, and the row covers them. -/
structure State.Ordered (s : State Zone) : Prop where
  follows : s.runs.Pairwise fun earlier run => run.Follows earlier
  covers : ∀ row, s.row = some row → ∀ run ∈ s.runs, row.Covers run

/-- The claim of a fire point later than the anchor covers what was covered. -/
theorem covers_claimed {row : WorkflowRow} {run : WorkflowRun} {fireAt : ℤ}
    (hguard : ∀ before, row.scheduleLastFiredAt = some before → before < fireAt)
    (h : row.Covers run) :
  { row with scheduleLastFiredAt := some fireAt }.Covers run
  := by
  refine ⟨fun hschedule => ⟨fireAt, rfl, ?_⟩, h.2⟩
  obtain ⟨anchor, hanchor, hle⟩ := h.1 hschedule
  exact hle.trans (hguard anchor hanchor).le

/-- So does a trigger after the cooldown. -/
theorem covers_triggered {row : WorkflowRow} {run : WorkflowRun} {now : ℤ} {cooldownSeconds : ℕ}
    (hguard : ∀ before, row.sensorLastTriggeredAt = some before →
      before < now - seconds cooldownSeconds)
    (h : row.Covers run) :
  { row with sensorLastTriggeredAt := some now }.Covers run
  := by
  refine ⟨h.1, fun cooldown hsensor => ⟨now, rfl, ?_⟩⟩
  obtain ⟨anchor, hanchor, hle⟩ := h.2 cooldown hsensor
  have hlt := hguard anchor hanchor
  have hseconds : 0 ≤ seconds cooldownSeconds := by
    apply Int.mul_nonneg (Int.natCast_nonneg _) (by decide)
  omega

/-- Every step keeps the runs in order. -/
theorem Moves.ordered {s t : State Zone} {a : Action Zone} (h : Moves mostRecentFire s a t)
    (hs : s.Ordered) :
  t.Ordered
  := by
  cases h with
  | deleted hrow hruns =>
      constructor
      · rw [hruns]
        exact hs.follows
      · intro row hrow'
        cases hrow.symm.trans hrow'
  | kept row row' hrow hrow' hsame hruns =>
      constructor
      · rw [hruns]
        exact hs.follows
      · intro row'' hrow'' run hrun
        obtain rfl := Option.some.inj (hrow'.symm.trans hrow'')
        rw [WorkflowRow.Covers, hsame.scheduleLastFiredAt, hsame.sensorLastTriggeredAt]
        exact hs.covers row hrow run (hruns ▸ hrun)
  | claimed row fireAt added hrow hrow' hguard hruns hone hadded _ =>
      constructor
      · rw [hruns, List.pairwise_append]
        refine ⟨hs.follows, ?_, ?_⟩
        · match added, hone with
          | [], _ => exact .nil
          | [_], _ => exact List.pairwise_singleton _ _
        · intro earlier hearlier run hrun
          obtain ⟨htrigger, hnow⟩ := hadded run hrun
          refine ⟨fun hschedule _ => ?_, fun _ _ _ hsensor => ?_⟩
          · obtain ⟨anchor, hanchor, hle⟩ := (hs.covers row hrow earlier hearlier).1 hschedule
            rw [hnow]
            exact hle.trans_lt (hguard anchor hanchor)
          · cases htrigger.symm.trans hsensor
      · intro row' hrow'' run hrun
        obtain rfl := Option.some.inj (hrow'.symm.trans hrow'')
        rw [hruns, List.mem_append] at hrun
        obtain hrun | hrun := hrun
        · exact covers_claimed hguard (hs.covers row hrow run hrun)
        · obtain ⟨htrigger, hnow⟩ := hadded run hrun
          refine ⟨fun _ => ⟨fireAt, rfl, hnow.le⟩, fun _ hsensor => ?_⟩
          cases htrigger.symm.trans hsensor
  | triggered row new cooldownSeconds hrow hrow' hguard hruns htrigger =>
      constructor
      · rw [hruns, List.pairwise_append]
        refine ⟨hs.follows, List.pairwise_singleton _ _, ?_⟩
        intro earlier hearlier run hrun
        obtain rfl := List.mem_singleton.mp hrun
        refine ⟨fun _ hschedule => ?_, fun cooldown _ hearlierSensor hsensor => ?_⟩
        · cases htrigger.symm.trans hschedule
        · obtain ⟨rfl⟩ := htrigger.symm.trans hsensor
          obtain ⟨anchor, hanchor, hle⟩ :=
            (hs.covers row hrow earlier hearlier).2 cooldown hearlierSensor
          have hlt := hguard anchor hanchor
          omega
      · intro row' hrow'' run hrun
        obtain rfl := Option.some.inj (hrow'.symm.trans hrow'')
        rw [hruns, List.mem_append, List.mem_singleton] at hrun
        obtain hrun | rfl := hrun
        · exact covers_triggered hguard (hs.covers row hrow run hrun)
        · refine ⟨fun hschedule => ?_, fun _ _ => ⟨_, rfl, le_rfl⟩⟩
          cases htrigger.symm.trans hschedule

theorem ordered_of_reachable {s : State Zone} (hs : (triggerSystem mostRecentFire).Reachable s) :
  s.Ordered
  := by
  apply hs.invariant
  · rintro s ⟨-, -, hruns, -⟩
    constructor
    · rw [hruns]
      exact .nil
    · intro row _ run hrun
      rw [hruns] at hrun
      cases hrun
  · intro s a t hs h
    exact (moves_of_perform h).ordered hs

/-- The anchor of the schedule is never set back. -/
theorem Moves.anchor_le {s t : State Zone} {a : Action Zone} (h : Moves mostRecentFire s a t)
    {before : ℤ} {row : WorkflowRow}
    (hbefore : s.anchor = some before) (hrow : t.row = some row) :
  ∃ after, row.scheduleLastFiredAt = some after ∧ before ≤ after
  := by
  obtain ⟨old, hold, hbefore⟩ := Option.bind_eq_some_iff.mp hbefore
  cases h with
  | deleted hdeleted _ => cases hdeleted.symm.trans hrow
  | kept row₀ row' hrow₀ hrow' hsame _ =>
      obtain rfl := Option.some.inj (hrow₀.symm.trans hold)
      obtain rfl := Option.some.inj (hrow'.symm.trans hrow)
      exact ⟨before, hsame.scheduleLastFiredAt.trans hbefore, le_rfl⟩
  | claimed row₀ fireAt added hrow₀ hrow' hguard _ _ _ _ =>
      obtain rfl := Option.some.inj (hrow₀.symm.trans hold)
      obtain rfl := Option.some.inj (hrow'.symm.trans hrow)
      exact ⟨fireAt, rfl, (hguard before hbefore).le⟩
  | triggered row₀ run cooldownSeconds hrow₀ hrow' _ _ _ =>
      obtain rfl := Option.some.inj (hrow₀.symm.trans hold)
      obtain rfl := Option.some.inj (hrow'.symm.trans hrow)
      exact ⟨before, hbefore, le_rfl⟩

/-- A step enqueues a run of the schedule only if it moves the anchor to its fire point. -/
def MovesWithRuns (s t : State Zone) : Prop :=
  ∃ added, t.runs = s.runs ++ added ∧ ∀ run ∈ added, run.trigger = .schedule →
    (∀ before, s.anchor = some before → before < run.now) ∧ t.anchor = some run.now

theorem Moves.movesWithRuns {s t : State Zone} {a : Action Zone} (h : Moves mostRecentFire s a t) :
  MovesWithRuns s t
  := by
  cases h with
  | deleted hrow hruns => exact ⟨[], by rw [hruns, List.append_nil], nofun⟩
  | kept row row' hrow hrow' hsame hruns => exact ⟨[], by rw [hruns, List.append_nil], nofun⟩
  | claimed row fireAt added hrow hrow' hguard hruns hone hadded _ =>
      refine ⟨added, hruns, fun run hrun _ => ?_⟩
      obtain ⟨-, rfl⟩ := hadded run hrun
      rw [State.anchor, State.anchor, hrow, hrow']
      exact ⟨hguard, rfl⟩
  | triggered row new cooldownSeconds hrow hrow' hguard hruns htrigger =>
      refine ⟨[new], hruns, fun run hrun hschedule => ?_⟩
      obtain rfl := List.mem_singleton.mp hrun
      cases htrigger.symm.trans hschedule

/-- The runs of the schedule for one fire point. -/
def State.runsAt (s : State Zone) (fireAt : ℤ) : List WorkflowRun :=
  s.runs.filter fun run => run.trigger = .schedule ∧ run.now = fireAt

theorem length_runsAt_le {s : State Zone} (hs : s.Ordered) (fireAt : ℤ) :
  (s.runsAt fireAt).length ≤ 1
  := by
  have hpairwise := hs.follows.filter fun run => run.trigger = .schedule ∧ run.now = fireAt
  have hmem : ∀ run ∈ s.runsAt fireAt, run.trigger = .schedule ∧ run.now = fireAt := by
    intro run hrun
    exact of_decide_eq_true (List.mem_filter.mp hrun).2
  change (s.runsAt fireAt).Pairwise _ at hpairwise
  match s.runsAt fireAt, hpairwise, hmem with
  | [], _, _ => exact Nat.zero_le 1
  | [_], _, _ => exact le_rfl
  | first :: second :: rest, hpairwise, hmem =>
      obtain ⟨hfirst, hfirstAt⟩ := hmem first List.mem_cons_self
      obtain ⟨hsecond, hsecondAt⟩ := hmem second (List.mem_cons_of_mem _ List.mem_cons_self)
      have hlt := (List.rel_of_pairwise_cons hpairwise List.mem_cons_self).1 hfirst hsecond
      omega

/-- In every run of the ticks, the checks and the edits, a fire point gets one run at most, the
anchor of the schedule is never set back, a run of the schedule is enqueued by the transaction that
moves the anchor to its fire point, and a run of the sensor is later than every earlier one by more
than its cooldown. -/
theorem triggers_fire_once {s : State Zone} (hs : (triggerSystem mostRecentFire).Reachable s) :
  (∀ fireAt, (s.runsAt fireAt).length ≤ 1) ∧
  (∀ a t, (triggerSystem mostRecentFire).step s a t →
    (∀ before row, s.anchor = some before → t.row = some row →
      ∃ after, row.scheduleLastFiredAt = some after ∧ before ≤ after) ∧ MovesWithRuns s t) ∧
  s.runs.Pairwise fun earlier run => ∀ cooldown cooldownSeconds,
    earlier.trigger = .sensor cooldown → run.trigger = .sensor cooldownSeconds →
    seconds cooldownSeconds < run.now - earlier.now
  := by
  have hordered := ordered_of_reachable hs
  refine ⟨length_runsAt_le hordered, fun a t h => ?_, ?_⟩
  · have hmoves := moves_of_perform h
    exact ⟨fun before row hbefore hrow => hmoves.anchor_le hbefore hrow, hmoves.movesWithRuns⟩
  · refine hordered.follows.imp fun hfollows cooldown cooldownSeconds hearlier hrun => ?_
    have hlt := hfollows.2 cooldown cooldownSeconds hearlier hrun
    omega

/-! ### No fire point is passed over -/

/-- The workflow is enabled and has an owner. -/
def State.Staffed (s : State Zone) : Prop :=
  ∃ row owner, s.row = some row ∧ row.enabled = true ∧ row.owner = some owner

/-- If the step moves the anchor to a later fire point, it enqueues a run for it. -/
def Announced (s t : State Zone) : Prop :=
  ∀ before after, s.anchor = some before → t.anchor = some after → before < after →
    ∃ run, t.runs = s.runs ++ [run] ∧ run.trigger = .schedule ∧ run.now = after

variable (mostRecentFire) in
/-- The triggers of a workflow that stays enabled and has an owner, with steps that are fine. -/
def staffedSystem (fine : State Zone → Action Zone → Prop) :
    TransitionSystem (State Zone) (Action Zone) :=
  (triggerSystem mostRecentFire).restrict fun s a => s.Staffed ∧ fine s a

variable (mostRecentFire) in
/-- A tick that has read no anchor finds none when it claims the row, or one that is not earlier
than its fire point. -/
def SeedsOnce (s : State Zone) : Action Zone → Prop
  | .processRow tick _ =>
      ∀ read fireAt, s.scheduleTicks tick = some read → read.row.scheduleLastFiredAt = none →
        (∃ cron, read.row.scheduleCron = some cron ∧
          mostRecentFire cron read.now read.timezone = some fireAt) →
        ∀ before, s.anchor = some before → fireAt ≤ before
  | _ => True

/-- Only a tick that has read no anchor seeds. -/
theorem evaluateSchedule_eq_seed {enabled scheduleEnabled : Bool} {cron : Option Text} {now : ℤ}
    {lastFired : Option ℤ} {timezone : Zone} {fireAt : ℤ}
    (h : evaluateSchedule mostRecentFire enabled scheduleEnabled cron now lastFired timezone
      = .seed fireAt) :
  lastFired = none ∧ ∃ text, cron = some text ∧ mostRecentFire text now timezone = some fireAt
  := by
  rw [evaluateSchedule.eq_def] at h
  split at h
  case h_1 => cases h
  case h_2 text =>
      split at h
      case isTrue => cases h
      case isFalse =>
          split at h
          case h_1 => cases h
          case h_2 at' hat =>
              split at h
              case h_1 =>
                  obtain ⟨rfl⟩ := h
                  exact ⟨rfl, text, rfl, hat⟩
              case h_2 => split at h <;> cases h

/-- A step that keeps the anchor has nothing to announce. -/
theorem announced_of_anchor_eq {s t : State Zone} (h : t.anchor = s.anchor) :
  Announced s t
  := by
  intro before after hbefore hafter hlt
  rw [h, hbefore] at hafter
  obtain rfl := Option.some.inj hafter
  exact absurd hlt (lt_irrefl _)

/-- A fire point is announced when the workflow has an owner and the schedule is not seeded a
second time. -/
theorem Moves.announced {s t : State Zone} {a : Action Zone} (h : Moves mostRecentFire s a t)
    (hstaffed : s.Staffed) (hseeds : SeedsOnce mostRecentFire s a) :
  Announced s t
  := by
  obtain ⟨staffed, owner, hstaffed, -, howner⟩ := hstaffed
  cases h with
  | deleted hrow hruns =>
      intro before after _ hafter
      rw [State.anchor, hrow] at hafter
      cases hafter
  | kept row row' hrow hrow' hsame hruns =>
      apply announced_of_anchor_eq
      rw [State.anchor, State.anchor, hrow, hrow']
      exact hsame.scheduleLastFiredAt
  | triggered row run cooldownSeconds hrow hrow' hguard hruns htrigger =>
      apply announced_of_anchor_eq
      rw [State.anchor, State.anchor, hrow, hrow']
      rfl
  | claimed row fireAt added hrow hrow' hguard hruns hone hadded hsilent =>
      obtain rfl := Option.some.inj (hrow.symm.trans hstaffed)
      intro before after hbefore hafter hlt
      rw [State.anchor, hrow'] at hafter
      obtain rfl : fireAt = after := Option.some.inj hafter
      match added, hone with
      | [run], _ =>
          obtain ⟨htrigger, hnow⟩ := hadded run List.mem_cons_self
          exact ⟨run, hruns, htrigger, hnow⟩
      | [], _ =>
          obtain hnone | ⟨tick, committed, read, rfl, hread, hseed⟩ := hsilent rfl
          · cases howner.symm.trans hnone
          · obtain ⟨hnull, hfire⟩ := evaluateSchedule_eq_seed hseed
            have hle := hseeds read fireAt hread hnull hfire before hbefore
            omega

/-- No fire point is passed over in a run in which the schedule is seeded once. -/
theorem fire_points_announced {s t : State Zone} {a : Action Zone}
    (_hs : (staffedSystem mostRecentFire (SeedsOnce mostRecentFire)).Reachable s)
    (h : (staffedSystem mostRecentFire (SeedsOnce mostRecentFire)).step s a t) :
  Announced s t
  := by
  obtain ⟨h, hstaffed, hseeds⟩ := h
  exact (moves_of_perform h).announced hstaffed hseeds

end Anchors

/-! ### Two instances -/

/-- The fire points of a schedule that fires every minute. -/
def everyMinute (_ : Text) (now : ℤ) (_ : Unit) : Option ℤ :=
  some ((now - 1) / seconds 60 * seconds 60)

/-- An enabled workflow with an owner, that has a schedule and a sensor and was never triggered. -/
def freshRow : WorkflowRow where
  dagJsonb := some
    { schedule := some { cron := "* * * * *".toList }
      sensor := some { sql := "select 1".toList, datasourceId := "ds".toList,
                       checkIntervalSeconds := 60, cooldownSeconds := 90 } }
  scheduleCron := some "* * * * *".toList
  scheduleEnabled := true
  sensorEnabled := true
  createdBy := some "owner".toList

/-- The state of a fresh row. -/
def freshState : State Unit where
  row := some freshRow

theorem freshState_reachable : (triggerSystem everyMinute).Reachable freshState :=
  .initial ⟨fun _ => rfl, fun _ => rfl, rfl, rfl⟩

/-- The schedule is seeded and then fired by another instance, and the sensor triggers the workflow
twice. -/
def busyActions : List (Action Unit) :=
  [.readCandidate 0 (seconds 100) (), .readSensorCandidate 0 (seconds 100) (),
    .processRow 0 true, .processSensorRow 0 true, .readCandidate 1 (seconds 130) (),
    .executeSensorCheck 0 (seconds 110) true true, .processRow 1 true,
    .executeSensorCheck 0 (seconds 201) true true]

theorem triggers_fire_once_busy :
  ∃ s, (triggerSystem everyMinute).Reachable s ∧ s.runs.length = 3 ∧
    (s.runsAt (seconds 120)).length ≤ 1
  := by
  obtain ⟨s, hs⟩ := Option.isSome_iff_exists.mp
    (by rfl : (busyActions.foldlM (perform everyMinute) freshState).isSome = true)
  have hseen : (busyActions.foldlM (perform everyMinute) freshState).map (·.runs.length)
      = some 3 := by
    rfl
  rw [hs] at hseen
  have hreachable := freshState_reachable.later
    (TransitionSystem.later_of_foldlM (fun _ _ _ h => h) hs)
  exact ⟨s, hreachable, Option.some.inj hseen, (triggers_fire_once hreachable).1 _⟩

/-- The state of a row whose schedule was seeded with the first minute. -/
def seededState : State Unit where
  row := some { freshRow with scheduleLastFiredAt := some (seconds 60) }

/-- The seeded state, with a tick that has read it after the second minute. -/
def dueState : State Unit :=
  { seededState with
    scheduleTicks := Function.update (fun _ => none) 0
      (some { now := seconds 130, timezone := (),
              row := { freshRow with scheduleLastFiredAt := some (seconds 60) } }) }

theorem fire_points_announced_due :
  ∃ t run,
    (staffedSystem everyMinute (SeedsOnce everyMinute)).step dueState (.processRow 0 true) t ∧
    t.runs = [run] ∧ run.trigger = .schedule ∧ run.now = seconds 120
  := by
  have hstaffed : seededState.Staffed := ⟨_, "owner".toList, rfl, rfl, by decide⟩
  have hread : (staffedSystem everyMinute (SeedsOnce everyMinute)).step seededState
      (.readCandidate 0 (seconds 130) ()) dueState :=
    ⟨rfl, hstaffed, trivial⟩
  have hdue : dueState.Staffed := ⟨_, "owner".toList, rfl, rfl, by decide⟩
  have hseeds : SeedsOnce everyMinute dueState (.processRow 0 true) := by
    intro read fireAt hread hnull
    obtain rfl := Option.some.inj hread
    cases hnull
  obtain ⟨t, ht⟩ := Option.isSome_iff_exists.mp
    (by rfl : (perform everyMinute dueState (.processRow 0 true)).isSome = true)
  have hanchor : (perform everyMinute dueState (.processRow 0 true)).map (·.anchor)
      = some (some (seconds 120)) := by
    rfl
  rw [ht] at hanchor
  obtain ⟨run, hruns, htrigger, hnow⟩ := fire_points_announced
    (.step (.initial ⟨fun _ => rfl, fun _ => rfl, rfl, rfl⟩) hread) ⟨ht, hdue, hseeds⟩
    (seconds 60) (seconds 120) rfl (Option.some.inj hanchor) (by decide)
  exact ⟨t, run, ⟨ht, hdue, hseeds⟩, hruns, htrigger, hnow⟩

/-- Two instances read the fresh row, one before and one after the second minute, and the earlier
one seeds the schedule. -/
def straddlingActions : List (Action Unit) :=
  [.readCandidate 0 (seconds 100) (), .readCandidate 1 (seconds 130) (), .processRow 0 true]

/-- Is the workflow enabled, and does it have an owner? -/
def State.isStaffed (s : State Unit) : Bool :=
  s.row.any fun row => row.enabled && row.owner.isSome

theorem staffed_of_isStaffed {s : State Unit} (h : s.isStaffed = true) :
  s.Staffed
  := by
  obtain ⟨row, hrow, h⟩ := (Option.any_eq_true _ _).mp h
  obtain ⟨henabled, howner⟩ := Bool.and_eq_true_iff.mp h
  obtain ⟨owner, howner⟩ := Option.isSome_iff_exists.mp howner
  exact ⟨row, owner, hrow, henabled, howner⟩

/-- The second instance moves the anchor from the first minute to the second one and enqueues
nothing. -/
theorem not_fire_points_announced_straddling :
  ¬ ∀ s a t, (staffedSystem everyMinute fun _ _ => True).Reachable s →
    (staffedSystem everyMinute fun _ _ => True).step s a t → Announced s t
  := by
  intro hannounced
  let next (s : State Unit) (a : Action Unit) : Option (State Unit) :=
    if s.isStaffed then perform everyMinute s a else none
  have hnext : ∀ s a t, next s a = some t →
      (staffedSystem everyMinute fun _ _ => True).step s a t := by
    intro s a t h
    simp only [next] at h
    split at h
    case isTrue hstaffed => exact ⟨h, staffed_of_isStaffed hstaffed, trivial⟩
    case isFalse => cases h
  obtain ⟨s, hs⟩ := Option.isSome_iff_exists.mp
    (by rfl : (straddlingActions.foldlM next freshState).isSome = true)
  obtain ⟨t, ht⟩ := Option.isSome_iff_exists.mp
    (by rfl : ((straddlingActions.foldlM next freshState).bind
      (next · (.processRow 1 true))).isSome = true)
  have hseen : ((straddlingActions.foldlM next freshState).bind fun s =>
      (next s (.processRow 1 true)).map fun t => (s.anchor, t.anchor, t.runs.length))
      = some (some (seconds 60), some (seconds 120), 0) := by
    rfl
  rw [hs] at ht hseen
  replace ht : next s (.processRow 1 true) = some t := ht
  replace hseen : (next s (.processRow 1 true)).map (fun t => (s.anchor, t.anchor, t.runs.length))
      = some (some (seconds 60), some (seconds 120), 0) := hseen
  rw [ht] at hseen
  obtain ⟨hbefore, hseen⟩ := Prod.mk.inj (Option.some.inj hseen)
  obtain ⟨hafter, hruns⟩ := Prod.mk.inj hseen
  have hfresh : (staffedSystem everyMinute fun _ _ => True).Reachable freshState :=
    .initial ⟨fun _ => rfl, fun _ => rfl, rfl, rfl⟩
  have hreachable := hfresh.later (TransitionSystem.later_of_foldlM hnext hs)
  obtain ⟨run, hrun, -, -⟩ := hannounced s _ t hreachable (hnext _ _ _ ht) (seconds 60)
    (seconds 120) hbefore hafter (by decide)
  rw [hrun, List.length_append] at hruns
  cases hruns

end Scheduler

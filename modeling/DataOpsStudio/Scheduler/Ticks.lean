import DataOpsStudio.Library.Text
import DataOpsStudio.Library.TransitionSystem
import Mathlib.Algebra.Order.Ring.Int
import Mathlib.Data.Option.Basic

/-!
# The triggers of a workflow

Every instance of the server has a thread that looks at the workflows from time to time.  A look is
called a tick: it reads the rows that may be due, decides for each of them by the row it has read
and its own clock, and claims the row in a transaction that looks at the row again.  A workflow is
due when its cron expression has a fire point that is later than the last one that was fired, or
when its sensor is to be checked; the check is a job, and the worker that carries it out claims the
row once more before it enqueues a run.

Both claims move an anchor in the row, under a guard on its old value.  The state below is that of
one row, with the ticks that have read it and not yet claimed it, the checks that were enqueued,
and the runs.
-/

namespace Scheduler

open Text

/-! ### Rows -/

/-- A cron schedule. -/
structure CronSchedule where
  cron : Text
  enabled : Bool := true

/-- A sensor, whose query is to be run every so often. -/
structure SensorTrigger where
  sql : Text
  datasourceId : Text
  checkIntervalSeconds : ℕ
  cooldownSeconds : ℕ
  enabled : Bool := true

/-- What the triggers read of the definition of a workflow. -/
structure Definition where
  schedule : Option CronSchedule := none
  sensor : Option SensorTrigger := none

/-- A row of the table `workflows`.  The stored definition is `none` when it no longer validates.
Times are in microseconds. -/
structure WorkflowRow where
  dagJsonb : Option Definition
  scheduleCron : Option Text := none
  scheduleEnabled : Bool := false
  scheduleLastFiredAt : Option ℤ := none
  sensorEnabled : Bool := false
  sensorLastCheckedAt : Option ℤ := none
  sensorLastTriggeredAt : Option ℤ := none
  enabled : Bool := true
  createdBy : Option Text := none

/-- The difference of two times that are some seconds apart. -/
def seconds (n : ℕ) : ℤ := n * 1000000

/-- What has triggered a run.  A sensor goes by the cooldown of the check. -/
inductive RunTrigger where
  | schedule
  | sensor (cooldownSeconds : ℕ)
deriving DecidableEq

/-- A job that runs the workflow, with the time at which its built-in variables are frozen. -/
structure WorkflowRun where
  trigger : RunTrigger
  now : ℤ
  ownerUserId : Text
  spec : Definition

/-- A job that checks the sensor. -/
structure SensorCheck where
  ownerUserId : Text
  datasourceId : Text
  sensorSql : Text
  cooldownSeconds : ℕ
  spec : Definition

/-! ### Decisions -/

/-- What is to be done about a schedule. -/
inductive ScheduleDecision where
  | skip
  | seed (fireAt : ℤ)
  | fire (fireAt : ℤ)

section Decisions

variable {Zone : Type} (mostRecentFire : Text → ℤ → Zone → Option ℤ)

def evaluateSchedule (enabled scheduleEnabled : Bool) (cron : Option Text) (now : ℤ)
    (lastFired : Option ℤ) (timezone : Zone) : ScheduleDecision :=
  match cron with
  | none => .skip
  | some cron =>
      if !enabled || !scheduleEnabled || cron.isEmpty then .skip
      else
        match mostRecentFire cron now timezone with
        | none => .skip
        | some fireAt =>
            match lastFired with
            | none => .seed fireAt
            | some lastFired => if lastFired < fireAt then .fire fireAt else .skip

end Decisions

/-- Should the sensor be checked? -/
def evaluateSensor (enabled sensorEnabled : Bool) (now : ℤ) (lastChecked : Option ℤ)
    (checkIntervalSeconds : ℕ) (lastTriggered : Option ℤ) (cooldownSeconds : ℕ) : Bool :=
  enabled && sensorEnabled
    && !lastTriggered.any (fun triggered => now - triggered < seconds cooldownSeconds)
    && !lastChecked.any (fun checked => now - checked < seconds checkIntervalSeconds)

/-! ### Transactions

Each of them holds the lock of the row from its first statement to its commit.  It gives the row as
it leaves it with the jobs it enqueues, or `none` when it raises and is rolled back. -/

/-- The owner of the jobs that a trigger enqueues. -/
def WorkflowRow.owner (row : WorkflowRow) : Option Text :=
  row.createdBy.filter (fun owner => !owner.isEmpty)

/-- The guard under which a fire point is claimed. -/
def WorkflowRow.admitsFire (row : WorkflowRow) (fireAt : ℤ) : Bool :=
  row.enabled && row.scheduleEnabled && row.scheduleLastFiredAt.all (· < fireAt)

/-- The anchor is moved, and a run is enqueued unless the schedule is only seeded or has no
owner. -/
def claimFirePoint (seed : Bool) (fireAt : ℤ) (row : WorkflowRow) :
    Option (WorkflowRow × List WorkflowRun) :=
  if row.admitsFire fireAt then
    let claimed := { row with scheduleLastFiredAt := some fireAt }
    if seed then some (claimed, [])
    else
      match claimed.owner with
      | none => some (claimed, [])
      | some ownerUserId =>
          claimed.dagJsonb.map fun spec =>
            (claimed, [{ trigger := .schedule, now := fireAt, ownerUserId, spec }])
  else some (row, [])

section Ticks

variable {Zone : Type} (mostRecentFire : Text → ℤ → Zone → Option ℤ)

/-- A tick of an instance, which has read a row. -/
structure Tick (Zone : Type) where
  now : ℤ
  timezone : Zone
  row : WorkflowRow

/-- What a tick decides about the schedule of the row it has read. -/
def Tick.decision (tick : Tick Zone) : ScheduleDecision :=
  evaluateSchedule mostRecentFire tick.row.enabled tick.row.scheduleEnabled tick.row.scheduleCron
    tick.now tick.row.scheduleLastFiredAt tick.timezone

def processRow (tick : Tick Zone) (row : WorkflowRow) : Option (WorkflowRow × List WorkflowRun) :=
  match tick.decision mostRecentFire with
  | .skip => some (row, [])
  | .seed fireAt => claimFirePoint true fireAt row
  | .fire fireAt => claimFirePoint false fireAt row

end Ticks

/-- The transaction that claims a check, by the time of the last check that the tick has read. -/
def claimSensorCheck (prevChecked : Option ℤ) (now : ℤ) (row : WorkflowRow) :
    Option (WorkflowRow × List SensorCheck) :=
  if row.enabled && row.sensorEnabled && row.sensorLastCheckedAt == prevChecked then
    let claimed := { row with sensorLastCheckedAt := some now }
    claimed.dagJsonb.map fun spec =>
      match spec.sensor with
      | none => (claimed, [])
      | some sensor =>
          match claimed.owner with
          | none => (claimed, [])
          | some ownerUserId =>
              if sensor.enabled then
                (claimed, [{ ownerUserId, datasourceId := sensor.datasourceId,
                             sensorSql := sensor.sql, cooldownSeconds := sensor.cooldownSeconds,
                             spec }])
              else (claimed, [])
  else some (row, [])

def processSensorRow {Zone : Type} (tick : Tick Zone) (row : WorkflowRow) :
    Option (WorkflowRow × List SensorCheck) :=
  match tick.row.dagJsonb with
  | none => none
  | some spec =>
      match spec.sensor with
      | none => some (row, [])
      | some sensor =>
          if sensor.enabled
              && evaluateSensor tick.row.enabled tick.row.sensorEnabled tick.now
                tick.row.sensorLastCheckedAt sensor.checkIntervalSeconds
                tick.row.sensorLastTriggeredAt sensor.cooldownSeconds then
            claimSensorCheck tick.row.sensorLastCheckedAt tick.now row
          else some (row, [])

/-- The transaction of a worker that has found the condition of a sensor to be true. -/
def claimTriggerAndEnqueue (check : SensorCheck) (now : ℤ) (row : WorkflowRow) :
    WorkflowRow × List WorkflowRun :=
  if row.enabled && row.sensorEnabled
      && row.sensorLastTriggeredAt.all (· < now - seconds check.cooldownSeconds) then
    ({ row with sensorLastTriggeredAt := some now },
      [{ trigger := .sensor check.cooldownSeconds, now, ownerUserId := check.ownerUserId,
         spec := check.spec }])
  else (row, [])

/-- The edit of a workflow. -/
def updateProjectWorkflow (spec : Definition) (enabled : Option Bool) (row : WorkflowRow) :
    WorkflowRow :=
  { row with
    dagJsonb := some spec
    scheduleCron := spec.schedule.map (·.cron)
    scheduleEnabled := spec.schedule.any (·.enabled)
    sensorEnabled := spec.sensor.any (·.enabled)
    enabled := enabled.getD row.enabled }

/-! ### The system -/

/-- The row, the ticks that have read it, and the jobs that were enqueued. -/
structure State (Zone : Type) where
  row : Option WorkflowRow
  scheduleTicks : ℕ → Option (Tick Zone) := fun _ => none
  sensorTicks : ℕ → Option (Tick Zone) := fun _ => none
  runs : List WorkflowRun := []
  checks : List SensorCheck := []

/-- What the threads, the workers and the users do.  A transaction that is not committed is rolled
back. -/
inductive Action (Zone : Type) where
  | readCandidate (tick : ℕ) (now : ℤ) (timezone : Zone)
  | processRow (tick : ℕ) (committed : Bool)
  | readSensorCandidate (tick : ℕ) (now : ℤ) (timezone : Zone)
  | processSensorRow (tick : ℕ) (committed : Bool)
  | executeSensorCheck (index : ℕ) (now : ℤ) (truthy committed : Bool)
  | updateProjectWorkflow (spec : Definition) (enabled : Option Bool)
  | persistWorkflowNotifications (spec : Definition)
  | deleteOwner
  | deleteProjectWorkflow

section System

variable {Zone : Type} (mostRecentFire : Text → ℤ → Zone → Option ℤ)

/-- The anchor of the schedule. -/
def State.anchor (s : State Zone) : Option ℤ := s.row.bind (·.scheduleLastFiredAt)

/-- The state after a transaction that may enqueue runs. -/
def State.commitRuns (s : State Zone) (committed : Bool)
    (outcome : Option (WorkflowRow × List WorkflowRun)) : State Zone :=
  match outcome with
  | some (row, runs) => if committed then { s with row := some row, runs := s.runs ++ runs } else s
  | none => s

/-- The state after a transaction that may enqueue checks. -/
def State.commitChecks (s : State Zone) (committed : Bool)
    (outcome : Option (WorkflowRow × List SensorCheck)) : State Zone :=
  match outcome with
  | some (row, checks) =>
      if committed then { s with row := some row, checks := s.checks ++ checks } else s
  | none => s

/-- The state after an action, or `none` when it cannot be taken.  A tick reads only rows that
its query selects, and is done when it has processed what it has read. -/
def perform (s : State Zone) : Action Zone → Option (State Zone)
  | .readCandidate tick now timezone =>
      s.row.bind fun row =>
        if row.enabled && row.scheduleEnabled && row.scheduleCron.isSome then
          some { s with
            scheduleTicks := Function.update s.scheduleTicks tick (some { now, timezone, row }) }
        else none
  | .processRow tick committed =>
      (s.scheduleTicks tick).map fun read =>
        let s := { s with scheduleTicks := Function.update s.scheduleTicks tick none }
        match s.row with
        | none => s
        | some row => s.commitRuns committed (processRow mostRecentFire read row)
  | .readSensorCandidate tick now timezone =>
      s.row.bind fun row =>
        if row.enabled && row.sensorEnabled then
          some { s with
            sensorTicks := Function.update s.sensorTicks tick (some { now, timezone, row }) }
        else none
  | .processSensorRow tick committed =>
      (s.sensorTicks tick).map fun read =>
        let s := { s with sensorTicks := Function.update s.sensorTicks tick none }
        match s.row with
        | none => s
        | some row => s.commitChecks committed (processSensorRow read row)
  | .executeSensorCheck index now truthy committed =>
      s.checks[index]?.map fun check =>
        match s.row with
        | none => s
        | some row =>
            if truthy then s.commitRuns committed (some (claimTriggerAndEnqueue check now row))
            else s
  | .updateProjectWorkflow spec enabled =>
      some { s with row := s.row.map (Scheduler.updateProjectWorkflow spec enabled) }
  | .persistWorkflowNotifications spec =>
      some { s with row := s.row.map fun row => { row with dagJsonb := some spec } }
  | .deleteOwner => some { s with row := s.row.map fun row => { row with createdBy := none } }
  | .deleteProjectWorkflow => some { s with row := none }

/-- The triggers of a workflow that has not been triggered yet. -/
def triggerSystem : TransitionSystem (State Zone) (Action Zone) where
  initial := fun s =>
    (∀ tick, s.scheduleTicks tick = none) ∧ (∀ tick, s.sensorTicks tick = none) ∧ s.runs = []
      ∧ s.checks = []
  step := fun s a t => perform mostRecentFire s a = some t

end System

end Scheduler

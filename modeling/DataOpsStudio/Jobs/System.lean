import DataOpsStudio.Jobs.Table
import DataOpsStudio.Library.TransitionSystem

/-!
# Workers and reapers

Any number of workers, reapers and other parties use the table at the same time, each through
transactions of its own.  A worker holds one job at a time: it claims a job, and acts on it until it
lets go of it, however much later that is and whatever has become of the job meanwhile.  A reaper
goes through three transactions, one after the other, and anything may happen in between.

The claims that were made are kept in a list, the latest first, so that it can be said which of them
the row of a job belongs to.
-/

namespace Jobs

open Text Workflow

/-! ### States -/

/-- A worker has taken up a job.  No two claims have the same number. -/
structure Claim where
  number : ℕ
  jobId : Text
  workerId : Text
deriving DecidableEq

/-- The transaction that a reaper comes to next. -/
inductive ReapPhase where
  | requeueWorkflowRuns
  | requeueJobs
  | failJobs
deriving DecidableEq

/-- A reaper on its round.  When it has requeued stale jobs it is noted at what time that was, and
which rows were locked then. -/
structure Reaper where
  heartbeatTimeoutSeconds : ℤ
  jobDefaultMaxRetries : ℕ
  remainingLimit : ℕ
  phase : ReapPhase := .requeueWorkflowRuns
  requeue : Option (ℤ × List Text) := none
deriving DecidableEq

/-- The table with its workers and reapers, by name. -/
structure State where
  tables : JobTables := {}
  now : ℤ := 0
  claims : List Claim := []
  holding : Text → Option Claim := fun _ => none
  reapers : Text → Option Reaper := fun _ => none

namespace State

/-- The latest claim of a job. -/
def latestClaim (s : State) (jobId : Text) : Option Claim :=
  s.claims.find? fun claim => claim.jobId = jobId

/-- The claim is the attempt that is being made at its job. -/
def IsCurrent (s : State) (claim : Claim) : Prop :=
  (s.tables.jobs.get? claim.jobId).map JobRow.status = some .running
    ∧ s.latestClaim claim.jobId = some claim

instance (s : State) (claim : Claim) : Decidable (s.IsCurrent claim) :=
  inferInstanceAs (Decidable (_ ∧ _))

end State

/-! ### Actions -/

/-- What a worker does to the job that it holds. -/
inductive WorkerOp where
  | updateResultRef (result : ResultRef)
  | complete (result : ResultRef)
  | fail (error : Text)
  | markCancelled (reason : Text)
  | requeueWorkflowRun (availableAt : Option ℤ)

/-- The transaction of a worker on a job. -/
def WorkerOp.run (op : WorkerOp) (tables : JobTables) (now : ℤ) (jobId workerId : Text) :
    JobTables :=
  match op with
  | updateResultRef result => tables.updateResultRef jobId workerId result
  | complete result => tables.complete now jobId workerId result
  | fail error => tables.fail now jobId workerId error
  | markCancelled reason => tables.markCancelled now jobId workerId reason
  | requeueWorkflowRun availableAt => tables.requeueWorkflowRun now jobId workerId availableAt

/-- What the transaction of a worker sets in the row. -/
def WorkerOp.values (op : WorkerOp) (now : ℤ) (row : JobRow) : JobRow :=
  match op with
  | updateResultRef result => { row with resultRef := some result }
  | complete result => row.completed result now
  | fail error => row.failed error now
  | markCancelled reason => row.cancelled reason now
  | requeueWorkflowRun availableAt => { row.yielded with availableAt := availableAt.getD now }

/-- What can happen.  A transaction that selects rows comes with the order in which the rows are
read and with the rows that other transactions have locked. -/
inductive Action where
  | tick (elapsed : ℕ)
  | enqueue (job : Job)
  | claimNext (workerId : Text) (scan locked : List Text)
  | act (workerId : Text) (op : WorkerOp)
  | release (workerId : Text)
  | heartbeat (jobId workerId : Text)
  | requestCancel (jobId : Text)
  | retryWorkflowNode (jobId : Text)
  | cancelPendingJob (jobId reason : Text)
  | reapStaleRunningJobs (reaper : Text) (heartbeatTimeoutSeconds limit : ℤ)
      (jobDefaultMaxRetries : ℕ)
  | requeueStaleWorkflowRuns (reaper : Text) (scan locked : List Text)
  | requeueStaleJobs (reaper : Text) (scan locked : List Text)
  | failStaleJobs (reaper : Text) (scan locked : List Text)

/-- The round after the first transaction: the second is left out when no job may be tried again,
and the round is over when the limit has been reached. -/
def Reaper.afterWorkflowRuns (reaper : Reaper) (resumed : ℕ) : Option Reaper :=
  let remaining := reaper.remainingLimit - resumed
  if remaining = 0 then none
  else if reaper.jobDefaultMaxRetries = 0 then
    some { reaper with remainingLimit := remaining, phase := .failJobs }
  else some { reaper with remainingLimit := remaining, phase := .requeueJobs }

/-- The round after the second transaction. -/
def Reaper.afterRequeue (reaper : Reaper) (now : ℤ) (locked : List Text) (requeued : ℕ) :
    Option Reaper :=
  let remaining := reaper.remainingLimit - requeued
  if remaining = 0 then none
  else
    some { reaper with
      remainingLimit := remaining
      phase := .failJobs
      requeue := some (now, locked) }

namespace State

variable (s : State)

/-- A worker that holds nothing asks for a job. -/
def claimNext (workerId : Text) (scan locked : List Text) : Option State :=
  if s.holding workerId = none ∧ scan.Perm s.tables.jobs.keys then
    match s.tables.nextJob s.now scan locked with
    | none => some s
    | some jobId =>
        let claim : Claim := ⟨s.claims.length, jobId, workerId⟩
        some { s with
          tables := s.tables.claim s.now jobId workerId
          claims := claim :: s.claims
          holding := Function.update s.holding workerId (some claim) }
  else none

/-- A reaper sets out.  The timeout and the limit have to be positive. -/
def reapStaleRunningJobs (reaper : Text) (heartbeatTimeoutSeconds limit : ℤ)
    (jobDefaultMaxRetries : ℕ) : Option State :=
  if s.reapers reaper = none ∧ 0 < heartbeatTimeoutSeconds ∧ 0 < limit then
    some { s with
      reapers := Function.update s.reapers reaper (some {
        heartbeatTimeoutSeconds := heartbeatTimeoutSeconds
        jobDefaultMaxRetries := jobDefaultMaxRetries
        remainingLimit := limit.toNat }) }
  else none

/-- The next transaction of a reaper: the jobs it selects, what it does to them, and how the round
goes on. -/
def reap (name : Text) (scan : List Text) (phase : ReapPhase) (select : Reaper → List Text)
    (run : List Text → JobTables) (next : Reaper → ℕ → Option Reaper) : Option State :=
  match s.reapers name with
  | none => none
  | some reaper =>
      if reaper.phase = phase ∧ scan.Perm s.tables.jobs.keys then
        some { s with
          tables := run (select reaper)
          reapers := Function.update s.reapers name (next reaper (select reaper).length) }
      else none

/-- The runs that a reaper requeues. -/
def resumedBy (scan locked : List Text) (reaper : Reaper) : List Text :=
  s.tables.staleWorkflowRuns s.now scan locked reaper.heartbeatTimeoutSeconds
    reaper.remainingLimit

/-- The jobs that a reaper requeues. -/
def requeuedBy (scan locked : List Text) (reaper : Reaper) : List Text :=
  s.tables.retryableStaleJobs s.now scan locked reaper.heartbeatTimeoutSeconds
    reaper.jobDefaultMaxRetries reaper.remainingLimit

/-- The jobs that a reaper fails. -/
def failedBy (scan locked : List Text) (reaper : Reaper) : List Text :=
  s.tables.staleJobs s.now scan locked reaper.heartbeatTimeoutSeconds reaper.remainingLimit

/-- What an action does.  A transaction that raises changes nothing, and is no step. -/
def perform : Action → Option State
  | .tick elapsed => some { s with now := s.now + elapsed }
  | .enqueue job =>
      match s.tables.enqueue s.now job with
      | .ok tables => some { s with tables := tables }
      | .error _ => none
  | .claimNext workerId scan locked => s.claimNext workerId scan locked
  | .act workerId op =>
      match s.holding workerId with
      | some claim => some { s with tables := op.run s.tables s.now claim.jobId workerId }
      | none => none
  | .release workerId => some { s with holding := Function.update s.holding workerId none }
  | .heartbeat jobId workerId =>
      some { s with tables := s.tables.heartbeat s.now jobId workerId }
  | .requestCancel jobId =>
      match s.tables.requestCancel jobId with
      | .ok tables => some { s with tables := tables }
      | .error _ => none
  | .retryWorkflowNode jobId =>
      some { s with tables := s.tables.retryWorkflowNode s.now jobId }
  | .cancelPendingJob jobId reason =>
      some { s with tables := s.tables.cancelPendingJob s.now jobId reason }
  | .reapStaleRunningJobs reaper heartbeatTimeoutSeconds limit jobDefaultMaxRetries =>
      s.reapStaleRunningJobs reaper heartbeatTimeoutSeconds limit jobDefaultMaxRetries
  | .requeueStaleWorkflowRuns reaper scan locked =>
      s.reap reaper scan .requeueWorkflowRuns (s.resumedBy scan locked)
        s.tables.requeueStaleWorkflowRuns Reaper.afterWorkflowRuns
  | .requeueStaleJobs reaper scan locked =>
      s.reap reaper scan .requeueJobs (s.requeuedBy scan locked) s.tables.requeueStaleJobs
        fun reaper => reaper.afterRequeue s.now locked
  | .failStaleJobs reaper scan locked =>
      s.reap reaper scan .failJobs (s.failedBy scan locked) (s.tables.failStaleJobs s.now)
        fun _ _ => none

end State

/-- The runs of the table, from an empty one. -/
def backendSystem : TransitionSystem State Action where
  initial := fun s => s = {}
  step := fun s a t => s.perform a = some t

/-- The runs of the table from any rows, while no reaper is on its round. -/
def tableSystem : TransitionSystem State Action where
  initial := fun s => s.reapers = fun _ => none
  step := fun s a t => s.perform a = some t

/-! ### What a step does to a row -/

/-- How an action may change the row of a job. -/
inductive Moved (s : State) (jobId : Text) (row : JobRow) : Action → JobRow → Prop
  | claimed {workerId : Text} {scan locked : List Text} (hpending : row.status = .pending) :
      Moved s jobId row (.claimNext workerId scan locked) (row.claimed workerId s.now)
  | acted {workerId : Text} {op : WorkerOp} {claim : Claim}
      (hholding : s.holding workerId = some claim) (hjob : claim.jobId = jobId)
      (howned : row.workerId = some workerId) (hrunning : row.status = .running) :
      Moved s jobId row (.act workerId op) (op.values s.now row)
  | heartbeat {workerId : Text} (hrunning : row.status = .running) :
      Moved s jobId row (.heartbeat jobId workerId) { row with lastHeartbeat := some s.now }
  | cancelRequested :
      Moved s jobId row (.requestCancel jobId)
        { row with cancelRequested := true, cancelReason := some "requested".toList }
  | retried (hended : row.status = .failed ∨ row.status = .timeout) :
      Moved s jobId row (.retryWorkflowNode jobId) (row.retried s.now)
  | cancelledPending {reason : Text} (hpending : row.status = .pending) :
      Moved s jobId row (.cancelPendingJob jobId reason) (row.cancelled reason s.now)
  | resumed {name : Text} {scan locked : List Text} (hrunning : row.status = .running)
      (hkind : row.kind = .workflowRun) :
      Moved s jobId row (.requeueStaleWorkflowRuns name scan locked) row.yielded
  | requeued {name : Text} {scan locked : List Text} {reaper : Reaper}
      (hreaper : s.reapers name = some reaper) (hselected : jobId ∈ s.requeuedBy scan locked reaper)
      (hrunning : row.status = .running) (hkind : row.kind ≠ .workflowRun) :
      Moved s jobId row (.requeueStaleJobs name scan locked) row.requeued
  | failed {name : Text} {scan locked : List Text} {reaper : Reaper}
      (hreaper : s.reapers name = some reaper) (hselected : jobId ∈ s.failedBy scan locked reaper)
      (hrunning : row.status = .running) (hkind : row.kind ≠ .workflowRun) :
      Moved s jobId row (.failStaleJobs name scan locked)
        (row.failed "worker heartbeat timed out".toList s.now)

/-- A row that goes on running: its worker, and what it runs, are the same, and there may be a sign
of life. -/
structure Continues (now : ℤ) (row row' : JobRow) : Prop where
  running : row.status = .running
  workerId : row'.workerId = row.workerId
  kind : row'.kind = row.kind
  payload : row'.payload = row.payload
  retryCount : row'.retryCount = row.retryCount
  heartbeat : row'.lastHeartbeat = row.lastHeartbeat ∨ row'.lastHeartbeat = some now

/-- A row that is running after a change has just been claimed, or it goes on. -/
theorem Moved.running {s : State} {jobId : Text} {row row' : JobRow} {a : Action}
    (h : Moved s jobId row a row') (hrunning : row'.status = .running) :
  (∃ workerId scan locked, a = .claimNext workerId scan locked ∧ row' = row.claimed workerId s.now)
    ∨ Continues s.now row row'
  := by
  cases h with
  | claimed hpending =>
      left
      exact ⟨_, _, _, rfl, rfl⟩
  | acted hholding hjob howned hrow =>
      rename_i workerId op claim
      cases op with
      | updateResultRef result =>
          right
          exact ⟨hrow, rfl, rfl, rfl, rfl, .inl rfl⟩
      | complete result => cases hrunning
      | fail error => cases hrunning
      | markCancelled reason => cases hrunning
      | requeueWorkflowRun availableAt => cases hrunning
  | heartbeat hrow =>
      right
      exact ⟨hrow, rfl, rfl, rfl, rfl, .inr rfl⟩
  | cancelRequested =>
      right
      exact ⟨hrunning, rfl, rfl, rfl, rfl, .inl rfl⟩
  | retried hended => cases hrunning
  | cancelledPending hpending => cases hrunning
  | resumed hrow hkind => cases hrunning
  | requeued hreaper hselected hrow hkind => cases hrunning
  | failed hreaper hselected hrow hkind => cases hrunning

/-- What becomes of the row of a job in a step: it stays, it changes, or it is new. -/
inductive RowStep (s t : State) (a : Action) (jobId : Text) : Prop
  | stays (h : t.tables.jobs.get? jobId = s.tables.jobs.get? jobId)
  | moves {row row' : JobRow} (hs : s.tables.jobs.get? jobId = some row)
      (ht : t.tables.jobs.get? jobId = some row') (h : Moved s jobId row a row')
  | enters {job : Job} (ha : a = .enqueue job) (hjob : job.id = jobId)
      (hs : s.tables.jobs.get? jobId = none)
      (ht : t.tables.jobs.get? jobId = some (job.row s.now))

/-- An update changes a row as an action does, if it does so where the row is selected. -/
theorem RowStep.of_update {s t : State} {a : Action} {jobIds : List Text}
    {values : JobRow → JobRow} {events : Text → List JobEvent} {jobId : Text}
    (ht : t.tables = s.tables.update jobIds values events)
    (h : ∀ row, s.tables.jobs.get? jobId = some row → jobId ∈ jobIds →
      Moved s jobId row a (values row)) :
  RowStep s t a jobId
  := by
  have hget : t.tables.jobs.get? jobId = (s.tables.jobs.get? jobId).map fun row =>
      if jobIds.contains jobId then values row else row := by
    rw [ht, JobTables.get?_update]
  cases hrow : s.tables.jobs.get? jobId with
  | none =>
      apply RowStep.stays
      rw [hget, hrow]
      rfl
  | some row =>
      rw [hrow, Option.map_some] at hget
      by_cases hmem : jobId ∈ jobIds
      · rw [if_pos (by simpa using hmem)] at hget
        apply RowStep.moves hrow hget (h row hrow hmem)
      · rw [if_neg (by simpa using hmem)] at hget
        apply RowStep.stays
        rw [hget, hrow]

/-- An update of one job changes its row as an action does, if it does so where the condition
holds. -/
theorem RowStep.of_whereId {s t : State} {a : Action} {updated jobId : Text}
    {condition : JobRow → Bool} {values : JobRow → JobRow} {events : Text → List JobEvent}
    (ht : t.tables = s.tables.update (s.tables.whereId updated condition) values events)
    (h : ∀ row, condition row = true → Moved s updated row a (values row)) :
  RowStep s t a jobId
  := by
  apply RowStep.of_update ht
  intro row hrow hmem
  obtain ⟨rfl, row', hrow', hcondition⟩ := JobTables.mem_whereId.mp hmem
  obtain rfl := Option.some.inj (hrow.symm.trans hrow')
  apply h row hcondition

theorem RowStep.of_same {s t : State} {a : Action} {jobId : Text} (h : t.tables = s.tables) :
  RowStep s t a jobId
  := by
  apply RowStep.stays
  rw [h]

namespace State

variable {s t : State}

/-- The transaction of a worker is an update of the row that is in its hands. -/
theorem run_eq_update (op : WorkerOp) (tables : JobTables) (now : ℤ) (jobId workerId : Text) :
  ∃ events, op.run tables now jobId workerId
    = tables.update (tables.whereId jobId (JobRow.ownedBy workerId)) (op.values now) events
  := by
  cases op with
  | updateResultRef result => exact ⟨_, rfl⟩
  | complete result => exact ⟨_, rfl⟩
  | fail error => exact ⟨_, rfl⟩
  | markCancelled reason => exact ⟨_, rfl⟩
  | requeueWorkflowRun availableAt => exact ⟨_, rfl⟩

theorem reap_eq_some {name : Text} {scan : List Text} {phase : ReapPhase}
    {select : Reaper → List Text} {run : List Text → JobTables}
    {next : Reaper → ℕ → Option Reaper} (h : s.reap name scan phase select run next = some t) :
  ∃ reaper, s.reapers name = some reaper ∧ reaper.phase = phase
    ∧ scan.Perm s.tables.jobs.keys
    ∧ t = { s with
        tables := run (select reaper)
        reapers := Function.update s.reapers name (next reaper (select reaper).length) }
  := by
  rw [reap] at h
  split at h
  · cases h
  · rename_i reaper hreaper
    split at h
    · rename_i hphase
      exact ⟨reaper, hreaper, hphase.1, hphase.2, (Option.some.inj h).symm⟩
    · cases h

/-- What `claimNext` does: there is no job, or one that waits is claimed. -/
theorem claimNext_eq_some {workerId : Text} {scan locked : List Text}
    (h : s.claimNext workerId scan locked = some t) :
  t = s ∨ s.holding workerId = none ∧ ∃ jobId row,
    s.tables.jobs.get? jobId = some row ∧ row.status = .pending
      ∧ t = { s with
          tables := s.tables.claim s.now jobId workerId
          claims := ⟨s.claims.length, jobId, workerId⟩ :: s.claims
          holding := Function.update s.holding workerId
            (some ⟨s.claims.length, jobId, workerId⟩) }
  := by
  rw [claimNext] at h
  split at h
  · rename_i hfree
    split at h
    · left
      exact (Option.some.inj h).symm
    · rename_i jobId hnext
      right
      obtain ⟨row, hrow, hcondition, -⟩ :=
        JobTables.of_mem_selectForUpdate (List.mem_of_mem_head? hnext)
      refine ⟨hfree.1, jobId, row, hrow, ?_, (Option.some.inj h).symm⟩
      exact (of_decide_eq_true hcondition).1
  · cases h

theorem of_mem_resumedBy {scan locked : List Text} {reaper : Reaper} {jobId : Text}
    (h : jobId ∈ s.resumedBy scan locked reaper) :
  ∃ row, s.tables.jobs.get? jobId = some row ∧ row.status = .running ∧ row.kind = .workflowRun
  := by
  rw [resumedBy, JobTables.staleWorkflowRuns] at h
  obtain ⟨row, hrow, hcondition, -⟩ := JobTables.of_mem_selectForUpdate h
  obtain ⟨hrunning, hkind, -⟩ := of_decide_eq_true hcondition
  exact ⟨row, hrow, hrunning, hkind⟩

theorem of_mem_requeuedBy {scan locked : List Text} {reaper : Reaper} {jobId : Text}
    (h : jobId ∈ s.requeuedBy scan locked reaper) :
  ∃ row, s.tables.jobs.get? jobId = some row ∧ row.status = .running ∧ row.kind ≠ .workflowRun
  := by
  rw [requeuedBy, JobTables.retryableStaleJobs] at h
  obtain ⟨row, hrow, hcondition, -⟩ := JobTables.of_mem_selectForUpdate h
  obtain ⟨hrunning, hkind, -⟩ := of_decide_eq_true hcondition
  exact ⟨row, hrow, hrunning, hkind⟩

theorem of_mem_failedBy {scan locked : List Text} {reaper : Reaper} {jobId : Text}
    (h : jobId ∈ s.failedBy scan locked reaper) :
  ∃ row, s.tables.jobs.get? jobId = some row ∧ row.status = .running ∧ row.kind ≠ .workflowRun
  := by
  rw [failedBy, JobTables.staleJobs] at h
  obtain ⟨row, hrow, hcondition, -⟩ := JobTables.of_mem_selectForUpdate h
  obtain ⟨hrunning, hkind, -⟩ := of_decide_eq_true hcondition
  exact ⟨row, hrow, hrunning, hkind⟩

/-- Every row changes as the action says. -/
theorem perform_row {a : Action} (h : s.perform a = some t) (jobId : Text) :
  RowStep s t a jobId
  := by
  cases a with
  | tick elapsed =>
      obtain rfl := Option.some.inj h
      exact .of_same rfl
  | enqueue job =>
      rw [perform] at h
      split at h
      · rename_i tables htables
        obtain rfl := Option.some.inj h
        obtain ⟨hfree, -, hset⟩ := JobTables.enqueue_eq_ok htables
        by_cases hjob : job.id = jobId
        · subst hjob
          apply RowStep.enters rfl rfl hfree
          rw [hset, Dict.get?_set_self]
        · apply RowStep.stays
          rw [hset, Dict.get?_set_of_ne _ _ hjob]
      · cases h
  | claimNext workerId scan locked =>
      obtain rfl | ⟨-, claimed, row, hrow, hpending, rfl⟩ := claimNext_eq_some h
      · exact .of_same rfl
      · apply RowStep.of_update rfl
        intro row' hrow' hmem
        obtain rfl := List.mem_singleton.mp hmem
        obtain rfl := Option.some.inj (hrow.symm.trans hrow')
        exact .claimed hpending
  | act workerId op =>
      rw [perform] at h
      split at h
      · rename_i claim hclaim
        obtain rfl := Option.some.inj h
        obtain ⟨events, hupdate⟩ := run_eq_update op s.tables s.now claim.jobId workerId
        apply RowStep.of_whereId hupdate
        intro row hcondition
        obtain ⟨howned, hrunning⟩ := of_decide_eq_true hcondition
        exact .acted hclaim rfl howned hrunning
      · cases h
  | release workerId =>
      obtain rfl := Option.some.inj h
      exact .of_same rfl
  | heartbeat heard workerId =>
      obtain rfl := Option.some.inj h
      apply RowStep.of_whereId rfl
      intro row hcondition
      exact .heartbeat (of_decide_eq_true hcondition).2
  | requestCancel cancelled =>
      rw [perform] at h
      split at h
      · rename_i tables htables
        obtain rfl := Option.some.inj h
        rw [JobTables.requestCancel] at htables
        split at htables
        · apply RowStep.of_update (Except.ok.inj htables).symm
          intro row _ hmem
          obtain rfl := List.mem_singleton.mp hmem
          exact .cancelRequested
        · cases htables
      · cases h
  | retryWorkflowNode retried =>
      obtain rfl := Option.some.inj h
      apply RowStep.of_whereId rfl
      intro row hcondition
      exact .retried (of_decide_eq_true hcondition)
  | cancelPendingJob cancelled reason =>
      obtain rfl := Option.some.inj h
      apply RowStep.of_whereId rfl
      intro row hcondition
      exact .cancelledPending (of_decide_eq_true hcondition)
  | reapStaleRunningJobs name heartbeatTimeoutSeconds limit jobDefaultMaxRetries =>
      rw [perform, reapStaleRunningJobs] at h
      split at h
      · obtain rfl := Option.some.inj h
        exact .of_same rfl
      · cases h
  | requeueStaleWorkflowRuns name scan locked =>
      rw [perform] at h
      obtain ⟨reaper, hreaper, -, -, rfl⟩ := reap_eq_some h
      apply RowStep.of_update rfl
      intro row hrow hmem
      obtain ⟨row', hrow', hrunning, hkind⟩ := of_mem_resumedBy hmem
      obtain rfl := Option.some.inj (hrow.symm.trans hrow')
      exact .resumed hrunning hkind
  | requeueStaleJobs name scan locked =>
      rw [perform] at h
      obtain ⟨reaper, hreaper, -, -, rfl⟩ := reap_eq_some h
      apply RowStep.of_update rfl
      intro row hrow hmem
      obtain ⟨row', hrow', hrunning, hkind⟩ := of_mem_requeuedBy hmem
      obtain rfl := Option.some.inj (hrow.symm.trans hrow')
      exact .requeued hreaper hmem hrunning hkind
  | failStaleJobs name scan locked =>
      rw [perform] at h
      obtain ⟨reaper, hreaper, -, -, rfl⟩ := reap_eq_some h
      apply RowStep.of_update rfl
      intro row hrow hmem
      obtain ⟨row', hrow', hrunning, hkind⟩ := of_mem_failedBy hmem
      obtain rfl := Option.some.inj (hrow.symm.trans hrow')
      exact .failed hreaper hmem hrunning hkind

/-- What a step does besides changing rows. -/
inductive Performed (s : State) : Action → State → Prop
  | tick (elapsed : ℕ) : Performed s (.tick elapsed) { s with now := s.now + elapsed }
  | idle (workerId : Text) (scan locked : List Text) :
      Performed s (.claimNext workerId scan locked) s
  | claims {workerId jobId : Text} {scan locked : List Text} {row : JobRow}
      (hfree : s.holding workerId = none) (hrow : s.tables.jobs.get? jobId = some row)
      (hpending : row.status = .pending) :
      Performed s (.claimNext workerId scan locked) { s with
        tables := s.tables.claim s.now jobId workerId
        claims := ⟨s.claims.length, jobId, workerId⟩ :: s.claims
        holding := Function.update s.holding workerId
          (some ⟨s.claims.length, jobId, workerId⟩) }
  | releases (workerId : Text) :
      Performed s (.release workerId)
        { s with holding := Function.update s.holding workerId none }
  | writes {a : Action} (ha : ∀ workerId scan locked, a ≠ .claimNext workerId scan locked)
      (tables : JobTables) : Performed s a { s with tables := tables }
  | starts {name : Text} {heartbeatTimeoutSeconds limit : ℤ} {jobDefaultMaxRetries : ℕ}
      (htimeout : 0 < heartbeatTimeoutSeconds) :
      Performed s
        (.reapStaleRunningJobs name heartbeatTimeoutSeconds limit jobDefaultMaxRetries)
        { s with
          reapers := Function.update s.reapers name (some {
            heartbeatTimeoutSeconds := heartbeatTimeoutSeconds
            jobDefaultMaxRetries := jobDefaultMaxRetries
            remainingLimit := limit.toNat }) }
  | resumes {name : Text} {scan locked : List Text} {reaper : Reaper}
      (hreaper : s.reapers name = some reaper) :
      Performed s (.requeueStaleWorkflowRuns name scan locked) { s with
        tables := s.tables.requeueStaleWorkflowRuns (s.resumedBy scan locked reaper)
        reapers := Function.update s.reapers name
          (reaper.afterWorkflowRuns (s.resumedBy scan locked reaper).length) }
  | requeues {name : Text} {scan locked : List Text} {reaper : Reaper}
      (hreaper : s.reapers name = some reaper) (hscan : scan.Perm s.tables.jobs.keys) :
      Performed s (.requeueStaleJobs name scan locked) { s with
        tables := s.tables.requeueStaleJobs (s.requeuedBy scan locked reaper)
        reapers := Function.update s.reapers name
          (reaper.afterRequeue s.now locked (s.requeuedBy scan locked reaper).length) }
  | fails {name : Text} {scan locked : List Text} {reaper : Reaper}
      (hreaper : s.reapers name = some reaper) (hphase : reaper.phase = .failJobs) :
      Performed s (.failStaleJobs name scan locked) { s with
        tables := s.tables.failStaleJobs s.now (s.failedBy scan locked reaper)
        reapers := Function.update s.reapers name none }

theorem performed {a : Action} (h : s.perform a = some t) :
  Performed s a t
  := by
  cases a with
  | tick elapsed =>
      obtain rfl := Option.some.inj h
      exact .tick elapsed
  | enqueue job =>
      rw [perform] at h
      split at h
      · obtain rfl := Option.some.inj h
        exact .writes (by nofun) _
      · cases h
  | claimNext workerId scan locked =>
      obtain rfl | ⟨hfree, jobId, row, hrow, hpending, rfl⟩ := claimNext_eq_some h
      · exact .idle workerId scan locked
      · exact .claims hfree hrow hpending
  | act workerId op =>
      rw [perform] at h
      split at h
      · obtain rfl := Option.some.inj h
        exact .writes (by nofun) _
      · cases h
  | release workerId =>
      obtain rfl := Option.some.inj h
      exact .releases workerId
  | heartbeat jobId workerId =>
      obtain rfl := Option.some.inj h
      exact .writes (by nofun) _
  | requestCancel jobId =>
      rw [perform] at h
      split at h
      · obtain rfl := Option.some.inj h
        exact .writes (by nofun) _
      · cases h
  | retryWorkflowNode jobId =>
      obtain rfl := Option.some.inj h
      exact .writes (by nofun) _
  | cancelPendingJob jobId reason =>
      obtain rfl := Option.some.inj h
      exact .writes (by nofun) _
  | reapStaleRunningJobs name heartbeatTimeoutSeconds limit jobDefaultMaxRetries =>
      rw [perform, reapStaleRunningJobs] at h
      split at h
      · rename_i hstart
        obtain rfl := Option.some.inj h
        exact .starts hstart.2.1
      · cases h
  | requeueStaleWorkflowRuns name scan locked =>
      rw [perform] at h
      obtain ⟨reaper, hreaper, -, -, rfl⟩ := reap_eq_some h
      exact .resumes hreaper
  | requeueStaleJobs name scan locked =>
      rw [perform] at h
      obtain ⟨reaper, hreaper, -, hscan, rfl⟩ := reap_eq_some h
      exact .requeues hreaper hscan
  | failStaleJobs name scan locked =>
      rw [perform] at h
      obtain ⟨reaper, hreaper, hphase, -, rfl⟩ := reap_eq_some h
      exact .fails hreaper hphase

/-- Time does not go back. -/
theorem now_le {a : Action} (h : s.perform a = some t) :
  s.now ≤ t.now
  := by
  cases performed h with
  | tick elapsed => exact Int.le_add_of_nonneg_right (Int.natCast_nonneg elapsed)
  | idle workerId scan locked => exact le_rfl
  | claims hfree hrow hpending => exact le_rfl
  | releases workerId => exact le_rfl
  | writes ha tables => exact le_rfl
  | starts htimeout => exact le_rfl
  | resumes hreaper => exact le_rfl
  | requeues hreaper hscan => exact le_rfl
  | fails hreaper hphase => exact le_rfl

end State

end Jobs

import DataOpsStudio.Jobs.Executor
import DataOpsStudio.Workflow.Progress

/-!
# How often the job of a node is started

The plan looks at how often a failed job has been tried again, and lets it be tried again while the
budget of its node lasts.  The transaction that carries this out does not look again, and neither
does the reaper, which goes by a limit of its own.  A job is started at most once more often than it
was requeued, and so within the budget when each of these transactions finds some of it left.
-/

namespace Jobs

open Text Workflow

/-! ### Starts -/

/-- The row is that of the job of a node of a run. -/
def JobRow.isChildOf (runId nodeId : Text) (row : JobRow) : Bool :=
  row.parentWorkflowRunId = some runId ∧ row.workflowNodeId = some nodeId

/-- How often a job has been claimed. -/
def State.claimsOf (s : State) (jobId : Text) : ℕ :=
  s.claims.countP fun claim => claim.jobId = jobId

/-- How often the job of a node has been started. -/
def State.starts (s : State) (runId nodeId : Text) : ℕ :=
  s.claims.countP fun claim =>
    (s.tables.jobs.get? claim.jobId).any (JobRow.isChildOf runId nodeId)

/-- How often a job may have been started, by what its row says. -/
def JobRow.allowance (row : JobRow) : ℕ :=
  if row.status = .pending then row.retryCount else row.retryCount + 1

section Budget

variable {rt : WhenRuntime} (specOf : Text → WorkflowSpec rt) (defaultMaxRetries : ℕ)

/-- No node has its job started more often than once and as many times again as it may be
retried. -/
def WithinBudget (s : State) : Prop :=
  ∀ runId, ∀ node ∈ (specOf runId).nodes,
    (s.starts runId node.id : ℤ) ≤ 1 + retryBudget node defaultMaxRetries

/-- If the row is that of the job of a node, some of the budget of the node is left. -/
def JobRow.HasBudget (row : JobRow) : Prop :=
  ∀ runId, ∀ node ∈ (specOf runId).nodes, row.isChildOf runId node.id = true →
    (row.retryCount : ℤ) < retryBudget node defaultMaxRetries

/-- A failed job that an executor has tried again, and a job that a reaper requeues, have some of
the budget of their nodes left. -/
def FindsBudget (s : RunsState) : RunsAction → Prop
  | .carryOut workerId =>
      ∀ jobId rest row, s.planned workerId = some (.retryWorkflowNode jobId :: rest) →
        s.backend.tables.jobs.get? jobId = some row →
        row.status = .failed ∨ row.status = .timeout → row.HasBudget specOf defaultMaxRetries
  | .backend (.requeueStaleJobs name scan locked) =>
      ∀ reaper, s.backend.reapers name = some reaper →
        ∀ jobId ∈ s.backend.requeuedBy scan locked reaper, ∀ row,
          s.backend.tables.jobs.get? jobId = some row → row.HasBudget specOf defaultMaxRetries
  | _ => True

/-! ### What happens to the table -/

/-- What may happen to the table while workflows run within their budgets. -/
def Within (s : State) : Action → Prop
  | .enqueue job =>
      job.parentWorkflowRunId = none ∨ job.kind ≠ .workflowRun ∧ job.retryCount = 0
  | .retryWorkflowNode jobId =>
      ∀ row, s.tables.jobs.get? jobId = some row → row.status = .failed ∨ row.status = .timeout →
        row.HasBudget specOf defaultMaxRetries
  | .act workerId (.requeueWorkflowRun _) =>
      ∀ claim row, s.holding workerId = some claim → s.tables.jobs.get? claim.jobId = some row →
        row.kind = .workflowRun
  | .requeueStaleJobs name scan locked =>
      ∀ reaper, s.reapers name = some reaper → ∀ jobId ∈ s.requeuedBy scan locked reaper, ∀ row,
        s.tables.jobs.get? jobId = some row → row.HasBudget specOf defaultMaxRetries
  | _ => True

end Budget

section Table

variable {rt : WhenRuntime} {specOf : Text → WorkflowSpec rt} {defaultMaxRetries : ℕ}
  {s t : State} {a : Action} {jobId : Text} {row row' : JobRow}

theorem JobKind.ofNode_ne (kind : NodeKind) :
  JobKind.ofNode kind ≠ .workflowRun
  := by
  cases kind <;> decide

/-- A step leaves alone what a job is and what it is for. -/
theorem Moved.identity (h : Moved s jobId row a row') :
  row'.kind = row.kind ∧ row'.payload = row.payload
    ∧ row'.parentWorkflowRunId = row.parentWorkflowRunId
  := by
  cases h with
  | acted hholding hjob howned hrunning =>
      rename_i workerId op claim
      cases op with
      | updateResultRef result => exact ⟨rfl, rfl, rfl⟩
      | complete result => exact ⟨rfl, rfl, rfl⟩
      | fail error => exact ⟨rfl, rfl, rfl⟩
      | markCancelled reason => exact ⟨rfl, rfl, rfl⟩
      | requeueWorkflowRun availableAt => exact ⟨rfl, rfl, rfl⟩
  | claimed hpending => exact ⟨rfl, rfl, rfl⟩
  | heartbeat hrunning => exact ⟨rfl, rfl, rfl⟩
  | cancelRequested => exact ⟨rfl, rfl, rfl⟩
  | retried hended => exact ⟨rfl, rfl, rfl⟩
  | cancelledPending hpending => exact ⟨rfl, rfl, rfl⟩
  | resumed hrunning hkind => exact ⟨rfl, rfl, rfl⟩
  | requeued hreaper hselected hrunning hkind => exact ⟨rfl, rfl, rfl⟩
  | failed hreaper hselected hrunning hkind => exact ⟨rfl, rfl, rfl⟩

theorem Moved.isChildOf (h : Moved s jobId row a row') (runId nodeId : Text) :
  row'.isChildOf runId nodeId = row.isChildOf runId nodeId
  := by
  obtain ⟨-, hpayload, hparent⟩ := h.identity
  rw [JobRow.isChildOf, JobRow.isChildOf, JobRow.workflowNodeId, JobRow.workflowNodeId, hpayload,
    hparent]

/-- The allowance of a row does not shrink, unless it is that of a run. -/
theorem Moved.allowance_le (h : Moved s jobId row a row')
    (hrow : s.tables.jobs.get? jobId = some row) (hkind : row.kind ≠ .workflowRun)
    (ha : Within specOf defaultMaxRetries s a) :
  row.allowance ≤ row'.allowance
  := by
  have hall (row : JobRow) : row.allowance ≤ row.retryCount + 1 := by
    rw [JobRow.allowance]
    split <;> omega
  cases h with
  | claimed hpending => exact hall row
  | acted hholding hjob howned hrunning =>
      rename_i workerId op claim
      cases op with
      | updateResultRef result => exact le_rfl
      | complete result => exact hall row
      | fail error => exact hall row
      | markCancelled reason => exact hall row
      | requeueWorkflowRun availableAt =>
          exact (hkind (ha claim row hholding (hjob ▸ hrow))).elim
  | heartbeat hrunning => exact le_rfl
  | cancelRequested => exact le_rfl
  | retried hended => exact hall row
  | cancelledPending hpending => exact hall row
  | resumed hrunning hrun => exact (hkind hrun).elim
  | requeued hreaper hselected hrunning hnot => exact hall row
  | failed hreaper hselected hrunning hnot => exact hall row

/-- A job is counted as tried again only when some of the budget of its node is left. -/
theorem Moved.retryCount (h : Moved s jobId row a row')
    (hrow : s.tables.jobs.get? jobId = some row) (ha : Within specOf defaultMaxRetries s a) :
  row'.retryCount = row.retryCount
    ∨ row'.retryCount = row.retryCount + 1 ∧ row.HasBudget specOf defaultMaxRetries
  := by
  cases h with
  | retried hended =>
      right
      exact ⟨rfl, ha row hrow hended⟩
  | requeued hreaper hselected hrunning hnot =>
      right
      exact ⟨rfl, ha _ hreaper jobId hselected row hrow⟩
  | acted hholding hjob howned hrunning =>
      rename_i workerId op claim
      left
      cases op with
      | updateResultRef result => rfl
      | complete result => rfl
      | fail error => rfl
      | markCancelled reason => rfl
      | requeueWorkflowRun availableAt => rfl
  | claimed hpending => exact .inl rfl
  | heartbeat hrunning => exact .inl rfl
  | cancelRequested => exact .inl rfl
  | cancelledPending hpending => exact .inl rfl
  | resumed hrunning hrun => exact .inl rfl
  | failed hreaper hselected hrunning hnot => exact .inl rfl

/-- A job is claimed once more only when its row is claimed, and that of a waiting one. -/
theorem State.claimsOf_step (h : s.perform a = some t) (jobId : Text) :
  t.claimsOf jobId = s.claimsOf jobId
    ∨ t.claimsOf jobId = s.claimsOf jobId + 1 ∧ ∃ row workerId,
      s.tables.jobs.get? jobId = some row ∧ row.status = .pending
        ∧ t.tables.jobs.get? jobId = some (row.claimed workerId s.now)
  := by
  cases performed h with
  | claims hfree hrow hpending =>
      rename_i workerId claimed scan locked row
      by_cases hne : claimed = jobId
      · subst hne
        right
        constructor
        · rw [claimsOf, List.countP_cons, if_pos (decide_eq_true rfl)]
          rfl
        · refine ⟨row, workerId, hrow, hpending, ?_⟩
          rw [JobTables.claim, JobTables.get?_update, hrow, Option.map_some, if_pos (by simp)]
      · left
        rw [claimsOf, List.countP_cons, if_neg (by simpa using hne), Nat.add_zero]
        rfl
  | tick elapsed => exact .inl rfl
  | idle workerId scan locked => exact .inl rfl
  | releases workerId => exact .inl rfl
  | writes ha tables => exact .inl rfl
  | starts htimeout => exact .inl rfl
  | resumes hreaper => exact .inl rfl
  | requeues hreaper hscan => exact .inl rfl
  | fails hreaper hphase => exact .inl rfl

/-- Rows stay. -/
theorem State.exists_row_step (h : s.perform a = some t)
    (hrow : s.tables.jobs.get? jobId = some row) :
  ∃ row', t.tables.jobs.get? jobId = some row'
  := by
  cases perform_row h jobId with
  | stays hsame => exact ⟨row, hsame.trans hrow⟩
  | moves hold hnew hmoved => exact ⟨_, hnew⟩
  | enters hjob hid hnone hnew => exact ⟨_, hnew⟩

/-! ### The invariant -/

variable (specOf defaultMaxRetries) in
/-- What is known of the row of a job of a node: it is not a run, it was not claimed more often than
its row allows, and it was not tried again more often than its node allows. -/
structure Charged (s : State) (jobId : Text) (row : JobRow) : Prop where
  kind : row.kind ≠ .workflowRun
  claims : s.claimsOf jobId ≤ row.allowance
  retries : ∀ runId, ∀ node ∈ (specOf runId).nodes, row.isChildOf runId node.id = true →
    (row.retryCount : ℤ) ≤ retryBudget node defaultMaxRetries

variable (specOf defaultMaxRetries) in
/-- Claims are of jobs that are there, a node has one job, and the jobs of nodes are charged. -/
structure Budgeted (s : State) : Prop where
  known : ∀ claim ∈ s.claims, ∃ row, s.tables.jobs.get? claim.jobId = some row
  unique : ∀ jobId jobId' row row' runId nodeId, s.tables.jobs.get? jobId = some row →
    s.tables.jobs.get? jobId' = some row' → row.isChildOf runId nodeId = true →
    row'.isChildOf runId nodeId = true → jobId = jobId'
  charged : ∀ jobId row, s.tables.jobs.get? jobId = some row →
    row.parentWorkflowRunId ≠ none → Charged specOf defaultMaxRetries s jobId row

theorem budgeted_empty :
  Budgeted specOf defaultMaxRetries {}
  where
  known := nofun
  unique := by
    intro jobId jobId' row row' runId nodeId hrow
    cases (Dict.get?_empty jobId).symm.trans hrow
  charged := by
    intro jobId row hrow
    cases (Dict.get?_empty jobId).symm.trans hrow

theorem retryBudget_nonneg (defaultMaxRetries : ℕ) (node : WorkflowNode) :
  0 ≤ retryBudget node defaultMaxRetries
  := by
  rw [retryBudget]
  split <;> exact Int.natCast_nonneg _

theorem Budgeted.known_step (hs : Budgeted specOf defaultMaxRetries s) (h : s.perform a = some t) :
  ∀ claim ∈ t.claims, ∃ row, t.tables.jobs.get? claim.jobId = some row
  := by
  intro claim hclaim
  suffices hold : ∃ row, s.tables.jobs.get? claim.jobId = some row by
    obtain ⟨row, hrow⟩ := hold
    exact State.exists_row_step h hrow
  cases State.performed h with
  | claims hfree hrow hpending =>
      obtain rfl | hclaim := List.mem_cons.mp hclaim
      · exact ⟨_, hrow⟩
      · exact hs.known claim hclaim
  | tick elapsed => exact hs.known claim hclaim
  | idle workerId scan locked => exact hs.known claim hclaim
  | releases workerId => exact hs.known claim hclaim
  | writes ha tables => exact hs.known claim hclaim
  | starts htimeout => exact hs.known claim hclaim
  | resumes hreaper => exact hs.known claim hclaim
  | requeues hreaper hscan => exact hs.known claim hclaim
  | fails hreaper hphase => exact hs.known claim hclaim

/-- A job of a node was there before the step, or it is handed in and there was none. -/
theorem isChildOf_step (h : s.perform a = some t) (hrow' : t.tables.jobs.get? jobId = some row')
    {runId nodeId : Text} (hchild : row'.isChildOf runId nodeId = true) :
  (∃ row, s.tables.jobs.get? jobId = some row ∧ row.isChildOf runId nodeId = true)
    ∨ (∃ job, a = .enqueue job ∧ job.id = jobId)
      ∧ ∀ other row, s.tables.jobs.get? other = some row → row.isChildOf runId nodeId = false
  := by
  cases State.perform_row h jobId with
  | stays hsame =>
      left
      exact ⟨row', hsame ▸ hrow', hchild⟩
  | moves hold hnew hmoved =>
      left
      obtain rfl := Option.some.inj (hrow'.symm.trans hnew)
      exact ⟨_, hold, (hmoved.isChildOf runId nodeId).symm.trans hchild⟩
  | enters hjob hid hnone hnew =>
      right
      rename_i job
      obtain rfl := Option.some.inj (hrow'.symm.trans hnew)
      refine ⟨⟨job, hjob, hid⟩, ?_⟩
      rw [hjob, State.perform] at h
      split at h
      · rename_i tables htables
        obtain ⟨-, hnode, -⟩ := JobTables.enqueue_eq_ok htables
        intro other row hrow
        obtain ⟨hparent, hnodeId⟩ := of_decide_eq_true hchild
        rw [JobTables.hasNode, show job.parentWorkflowRunId = some runId from hparent, hnodeId]
          at hnode
        have hothers : ∀ row ∈ s.tables.jobs.values, row.parentWorkflowRunId = some runId →
            row.workflowNodeId ≠ some nodeId := by
          simpa using hnode
        apply decide_eq_false
        rintro ⟨hparent', hnodeId'⟩
        exact hothers row (Dict.mem_values_iff.mpr ⟨other, hrow⟩) hparent' hnodeId'
      · cases h

theorem Budgeted.unique_step (hs : Budgeted specOf defaultMaxRetries s) (h : s.perform a = some t) :
  ∀ jobId jobId' row row' runId nodeId, t.tables.jobs.get? jobId = some row →
    t.tables.jobs.get? jobId' = some row' → row.isChildOf runId nodeId = true →
    row'.isChildOf runId nodeId = true → jobId = jobId'
  := by
  intro jobId jobId' row row' runId nodeId hrow hrow' hchild hchild'
  obtain ⟨old, hold, holdChild⟩ | ⟨⟨job, hjob, hid⟩, hfree⟩ := isChildOf_step h hrow hchild
  · obtain ⟨old', hold', holdChild'⟩ | ⟨-, hfree⟩ := isChildOf_step h hrow' hchild'
    · exact hs.unique jobId jobId' old old' runId nodeId hold hold' holdChild holdChild'
    · cases (hfree jobId old hold).symm.trans holdChild
  · obtain ⟨old', hold', holdChild'⟩ | ⟨⟨job', hjob', hid'⟩, -⟩ := isChildOf_step h hrow' hchild'
    · cases (hfree jobId' old' hold').symm.trans holdChild'
    · obtain rfl := Action.enqueue.inj (hjob.symm.trans hjob')
      exact hid.symm.trans hid'

theorem Budgeted.charged_step (hs : Budgeted specOf defaultMaxRetries s)
    (h : s.perform a = some t) (ha : Within specOf defaultMaxRetries s a)
    (hrow' : t.tables.jobs.get? jobId = some row') (hparent : row'.parentWorkflowRunId ≠ none) :
  Charged specOf defaultMaxRetries t jobId row'
  := by
  obtain hclaims | ⟨hclaims, row, workerId, hrow, hpending, hclaimed⟩ := State.claimsOf_step h jobId
  · cases State.perform_row h jobId with
    | stays hsame =>
        obtain ⟨hkind, hle, hretries⟩ := hs.charged jobId row' (hsame ▸ hrow') hparent
        exact ⟨hkind, hclaims ▸ hle, hretries⟩
    | moves hold hnew hmoved =>
        rename_i row new
        obtain rfl := Option.some.inj (hrow'.symm.trans hnew)
        obtain ⟨hsameKind, -, hsameParent⟩ := hmoved.identity
        obtain ⟨hkind, hle, hretries⟩ := hs.charged jobId row hold (hsameParent ▸ hparent)
        refine ⟨hsameKind ▸ hkind, ?_, ?_⟩
        · rw [hclaims]
          exact hle.trans (hmoved.allowance_le hold hkind ha)
        · intro runId node hnode hchild
          rw [hmoved.isChildOf] at hchild
          obtain hsame | ⟨hnext, hbudget⟩ := hmoved.retryCount hold ha
          · rw [hsame]
            exact hretries runId node hnode hchild
          · rw [hnext]
            have hleft := hbudget runId node hnode hchild
            push_cast
            omega
    | enters hjob hid hnone hnew =>
        rename_i job
        obtain rfl := Option.some.inj (hrow'.symm.trans hnew)
        subst hjob
        obtain hfree | ⟨hkind, hfirst⟩ := ha
        · exact (hparent hfree).elim
        · refine ⟨hkind, ?_, ?_⟩
          · -- No claim can be of a job that was not there.
            have hzero : s.claimsOf jobId = 0 := by
              rw [State.claimsOf, List.countP_eq_zero]
              intro claim hclaim heq
              obtain ⟨row, hrow⟩ := hs.known claim hclaim
              rw [of_decide_eq_true heq] at hrow
              cases hnone.symm.trans hrow
            rw [hclaims, hzero]
            exact Nat.zero_le _
          · intro runId node hnode hchild
            rw [show (job.row s.now).retryCount = 0 from hfirst]
            exact retryBudget_nonneg defaultMaxRetries node
  · obtain rfl := Option.some.inj (hrow'.symm.trans hclaimed)
    obtain ⟨hkind, hle, hretries⟩ := hs.charged jobId row hrow hparent
    refine ⟨hkind, ?_, hretries⟩
    rw [JobRow.allowance, if_pos hpending] at hle
    rw [hclaims]
    exact Nat.succ_le_succ hle

theorem Budgeted.step (hs : Budgeted specOf defaultMaxRetries s) (h : s.perform a = some t)
    (ha : Within specOf defaultMaxRetries s a) :
  Budgeted specOf defaultMaxRetries t
  where
  known := hs.known_step h
  unique := hs.unique_step h
  charged := fun _ _ hrow hparent => hs.charged_step h ha hrow hparent

/-- The job of a node is started as often as it is claimed, since the node has no other. -/
theorem Budgeted.withinBudget (hs : Budgeted specOf defaultMaxRetries s) :
  WithinBudget specOf defaultMaxRetries s
  := by
  intro runId node hnode
  by_cases hchild : ∃ jobId row, s.tables.jobs.get? jobId = some row
      ∧ row.isChildOf runId node.id = true
  · obtain ⟨jobId, row, hrow, hchild⟩ := hchild
    have hparent : row.parentWorkflowRunId ≠ none := by
      rw [(of_decide_eq_true hchild).1]
      nofun
    obtain ⟨-, hclaims, hretries⟩ := hs.charged jobId row hrow hparent
    have hstarts : s.starts runId node.id ≤ s.claimsOf jobId := by
      apply List.countP_mono_left
      intro claim hclaim hother
      obtain ⟨row', hrow', hchild'⟩ := (Option.any_eq_true _ _).mp hother
      exact decide_eq_true (hs.unique _ _ _ _ _ _ hrow' hrow hchild' hchild)
    have hallowance : row.allowance ≤ row.retryCount + 1 := by
      rw [JobRow.allowance]
      split <;> omega
    have hbudget := hretries runId node hnode hchild
    omega
  · have hzero : s.starts runId node.id = 0 := by
      rw [State.starts, List.countP_eq_zero]
      intro claim hclaim hother
      obtain ⟨row, hrow, hrowChild⟩ := (Option.any_eq_true _ _).mp hother
      exact hchild ⟨claim.jobId, row, hrow, hrowChild⟩
    have hbudget := retryBudget_nonneg defaultMaxRetries node
    omega

end Table

/-! ### Runs -/

section Runs

variable {rt : WhenRuntime} {specOf : Text → WorkflowSpec rt} {defaultMaxRetries : ℕ}
  {s t : RunsState} {a : RunsAction}

/-- An executor hands in jobs that have not been tried before. -/
theorem within_action {workerId : Text} {op : ExecutorOp} {rest : List ExecutorOp}
    (hplanned : s.planned workerId = some (op :: rest))
    (h : FindsBudget specOf defaultMaxRetries s (.carryOut workerId)) :
  Within specOf defaultMaxRetries s.backend op.action
  := by
  cases op with
  | enqueue runId priority availableAt child =>
      right
      exact ⟨JobKind.ofNode_ne child.kind, rfl⟩
  | retryWorkflowNode jobId =>
      intro row hrow hended
      exact h jobId rest row hplanned hrow hended
  | requestCancel jobId => trivial
  | cancelPendingJob jobId => trivial

/-- What others do leaves the jobs of nodes to the executors. -/
theorem within_of_outside {action : Action} (houtside : action.Outside s.backend = true)
    (h : FindsBudget specOf defaultMaxRetries s (.backend action)) :
  Within specOf defaultMaxRetries s.backend action
  := by
  cases action with
  | enqueue job =>
      left
      exact of_decide_eq_true houtside
  | retryWorkflowNode jobId => cases houtside
  | act workerId op =>
      cases op with
      | requeueWorkflowRun availableAt =>
          intro claim row hclaim hrow
          rw [Action.Outside, hclaim, Option.bind_some, hrow, Option.any_some] at houtside
          exact of_decide_eq_true houtside
      | _ => trivial
  | requeueStaleJobs name scan locked => exact h
  | _ => trivial

/-- What a step does to the table. -/
theorem perform_backend (h : s.perform specOf defaultMaxRetries a = some t)
    (ha : FindsBudget specOf defaultMaxRetries s a) :
  t.backend = s.backend ∨ ∃ action, s.backend.perform action = some t.backend
    ∧ Within specOf defaultMaxRetries s.backend action
  := by
  cases a with
  | plan workerId scan now vars newJobId =>
      left
      rw [RunsState.perform] at h
      obtain ⟨claim, -, h⟩ := Option.bind_eq_some_iff.mp h
      obtain ⟨run, -, h⟩ := Option.bind_eq_some_iff.mp h
      split at h
      · obtain rfl := Option.some.inj h
        rfl
      · cases h
  | carryOut workerId =>
      rw [RunsState.perform] at h
      split at h
      · rename_i op rest hplanned
        split at h
        · rename_i backend hbackend
          obtain rfl := Option.some.inj h
          right
          exact ⟨op.action, hbackend, within_action hplanned ha⟩
        · obtain rfl := Option.some.inj h
          left
          rfl
      · cases h
  | backend action =>
      rw [RunsState.perform] at h
      split at h
      · rename_i houtside
        obtain ⟨backend, hbackend, rfl⟩ := Option.map_eq_some_iff.mp h
        right
        exact ⟨action, hbackend, within_of_outside houtside ha⟩
      · cases h

/-- In every run, whatever executors, reapers and workers do and in whatever order, in which each
job that an executor has tried again and each job that a reaper requeues has some of the budget of
its node left, no node has its job started more often than once and as many times again as its
policy, or the default of the planner, allows. -/
theorem node_retry_budget {rt : WhenRuntime} (specOf : Text → WorkflowSpec rt)
    (defaultMaxRetries : ℕ) (s : RunsState)
    (h : ((runsSystem specOf defaultMaxRetries).restrict
      (FindsBudget specOf defaultMaxRetries)).Reachable s) :
  WithinBudget specOf defaultMaxRetries s.backend
  := by
  have hbudgeted : Budgeted specOf defaultMaxRetries s.backend := by
    refine h.invariant (I := fun s => Budgeted specOf defaultMaxRetries s.backend) ?_ ?_
    · rintro _ rfl
      exact budgeted_empty
    · rintro s a t hs ⟨hstep, hfinds⟩
      obtain hsame | ⟨action, hperform, hwithin⟩ := perform_backend hstep hfinds
      · rw [hsame]
        exact hs
      · exact hs.step hperform hwithin
  exact hbudgeted.withinBudget

end Runs

/-! ### A late retry -/

/-- The run of a workflow. -/
def chainRun : Job where
  id := "run".toList
  kind := .workflowRun
  priority := -1
  availableAt := 0

/-- A step of the executor, in which the job of a node may be handed in. -/
def planStep (workerId : Text) (scan : List Text) (now : ℤ) : RunsAction :=
  .plan workerId scan now Dict.empty fun _ => "job".toList

/-- The job of the query is claimed, and fails. -/
def failing (workerId : Text) : List RunsAction :=
  [.backend (.claimNext workerId [chainRun.id, "job".toList] []),
    .backend (.act workerId (.fail "error".toList)), .backend (.release workerId)]

/-- The executor has handed in the job of the query, which has failed once; ten seconds later an
executor has planned to have it tried again. -/
def retryPlanned : List RunsAction :=
  [.backend (.enqueue chainRun), .backend (.claimNext "first".toList [chainRun.id] []),
    planStep "first".toList [chainRun.id] 0, .carryOut "first".toList,
    .backend (.act "first".toList (.requeueWorkflowRun none)),
    .backend (.release "first".toList)]
  ++ failing "first".toList
  ++ [.backend (.tick 10000000), .backend (.claimNext "first".toList [chainRun.id, "job".toList] []),
    planStep "first".toList [chainRun.id, "job".toList] 10000000]

/-- The executor carries out its plan, and the job is claimed again. -/
def retriedInTime : List RunsAction :=
  retryPlanned
  ++ [.carryOut "first".toList, .backend (.act "first".toList (.requeueWorkflowRun none)),
    .backend (.release "first".toList)]
  ++ failing "first".toList

/-- A reaper takes the run away from the executor.  A second one has the job tried again, which
fails; then the first comes to carry out its plan, and the job is claimed once more. -/
def retriedLate : List RunsAction :=
  retryPlanned
  ++ [.backend (.tick 20000000), .backend (.reapStaleRunningJobs "reaper".toList 10 100 0),
    .backend (.requeueStaleWorkflowRuns "reaper".toList [chainRun.id, "job".toList] []),
    .backend (.claimNext "second".toList [chainRun.id, "job".toList] []),
    planStep "second".toList [chainRun.id, "job".toList] 30000000, .carryOut "second".toList,
    .backend (.act "second".toList (.requeueWorkflowRun none)),
    .backend (.release "second".toList)]
  ++ failing "second".toList
  ++ [.carryOut "first".toList,
    .backend (.claimNext "second".toList [chainRun.id, "job".toList] [])]

/-- The runs of workflows that are all the same. -/
def runOf (actions : List RunsAction) : Option RunsState :=
  actions.foldlM (RunsState.perform (fun _ => chainSpec) 0) {}

/-- Whether a job that is tried again has some of its budget left, when no reaper requeues jobs. -/
def findsBudget (s : RunsState) : RunsAction → Bool
  | .carryOut workerId =>
      match s.planned workerId with
      | some (.retryWorkflowNode jobId :: _) =>
          (s.backend.tables.jobs.get? jobId).all fun row => chainSpec.nodes.all fun node =>
            row.workflowNodeId ≠ some node.id ∨ (row.retryCount : ℤ) < retryBudget node 0
      | _ => true
  | .backend (.requeueStaleJobs _ _ _) => false
  | _ => true

theorem findsBudget_of_check {s : RunsState} {a : RunsAction} (h : findsBudget s a = true) :
  FindsBudget (fun _ => chainSpec) 0 s a
  := by
  cases a with
  | plan workerId scan now vars newJobId => trivial
  | carryOut workerId =>
      intro jobId rest row hplanned hrow hended runId node hnode hchild
      rw [findsBudget, hplanned] at h
      simp only [hrow, Option.all_some] at h
      have hleft := of_decide_eq_true (List.all_eq_true.mp h node hnode)
      exact hleft.resolve_left fun hne => hne (of_decide_eq_true hchild).2
  | backend action =>
      cases action with
      | requeueStaleJobs name scan locked => cases h
      | _ => trivial

/-- The query is started twice. -/
theorem node_retry_budget_retriedInTime :
  ∃ s, retriedInTime.foldlM (fun s a => if findsBudget s a then
      RunsState.perform (fun _ => chainSpec) 0 s a else none) {} = some s
    ∧ s.backend.starts chainRun.id "query".toList = 2 ∧ WithinBudget (fun _ => chainSpec) 0 s.backend
  := by
  obtain ⟨s, hs⟩ := Option.isSome_iff_exists.mp
    (by rfl : (retriedInTime.foldlM (fun s a => if findsBudget s a then
      RunsState.perform (fun _ => chainSpec) 0 s a else none) {}).isSome = true)
  have hstarts : (retriedInTime.foldlM (fun s a => if findsBudget s a then
      RunsState.perform (fun _ => chainSpec) 0 s a else none) {}).map (fun s =>
      s.backend.starts chainRun.id "query".toList) = some 2 := by
    rfl
  rw [hs] at hstarts
  refine ⟨s, hs, Option.some.inj hstarts, node_retry_budget _ 0 s ?_⟩
  have hinitial : ((runsSystem (fun _ => chainSpec) 0).restrict
      (FindsBudget (fun _ => chainSpec) 0)).Reachable {} := .initial rfl
  refine hinitial.later (TransitionSystem.later_of_foldlM ?_ hs)
  intro s a t h
  split at h
  · rename_i hfinds
    exact ⟨h, findsBudget_of_check hfinds⟩
  · cases h

/-- The query, which may be tried again once, is started three times. -/
theorem not_withinBudget_retriedLate :
  ∃ s, runOf retriedLate = some s ∧ (runsSystem (fun _ => chainSpec) 0).Reachable s
    ∧ ¬WithinBudget (fun _ => chainSpec) 0 s.backend
  := by
  obtain ⟨s, hs⟩ := Option.isSome_iff_exists.mp
    (by rfl : (runOf retriedLate).isSome = true)
  have hstarts : (runOf retriedLate).map (fun s => s.backend.starts chainRun.id "query".toList)
      = some 3 := by
    rfl
  rw [hs] at hstarts
  have hinitial : (runsSystem (fun _ => chainSpec) 0).Reachable {} := .initial rfl
  refine ⟨s, hs, hinitial.later (TransitionSystem.later_of_foldlM (fun _ _ _ h => h) hs), ?_⟩
  intro hwithin
  have hle := hwithin chainRun.id _ (List.mem_cons_self)
  rw [show s.backend.starts chainRun.id _ = 3 from Option.some.inj hstarts] at hle
  revert hle
  decide

end Jobs

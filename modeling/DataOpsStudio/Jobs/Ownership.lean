import DataOpsStudio.Jobs.System

/-!
# Who owns a job

A running job belongs to the worker that claimed it last.  A worker whose attempt is no longer the
current one changes nothing, for since it made its claim another worker must have made one, or the
job is not running.  What has succeeded or was cancelled stays so, and a job that failed or timed
out is only taken up again by a retry.
-/

namespace Jobs

open Text Workflow

/-- Two entries of a list that are each the first with a property are the same when each has the
property of the other. -/
theorem find?_unique {α : Type} {p q : α → Bool} {l : List α} {x y : α}
    (hx : l.find? p = some x) (hy : l.find? q = some y) (hxq : q x = true) (hyp : p y = true) :
  x = y
  := by
  induction l with
  | nil => cases hx
  | cons z rest ih =>
      rw [List.find?_cons] at hx hy
      split at hx
      · obtain rfl := Option.some.inj hx
        rw [hxq] at hy
        exact Option.some.inj hy
      · rename_i hz
        split at hy
        · obtain rfl := Option.some.inj hy
          cases hz.symm.trans hyp
        · exact ih hx hy

namespace State

variable {s t : State} {a : Action}

/-! ### The invariant -/

/-- The rows know their workers, and the workers hold what they claimed last. -/
structure Sound (s : State) : Prop where
  owned : ∀ jobId row, s.tables.jobs.get? jobId = some row → row.status = .running →
    ∃ claim, s.latestClaim jobId = some claim ∧ row.workerId = some claim.workerId
  held : ∀ workerId claim, s.holding workerId = some claim → claim.workerId = workerId
    ∧ s.claims.find? (fun claim => claim.workerId = workerId) = some claim

theorem sound_empty :
  ({} : State).Sound
  where
  owned := by
    intro jobId row hrow
    cases (Dict.get?_empty jobId).symm.trans hrow
  held := by
    intro workerId claim hclaim
    cases hclaim

/-- A row that is not claimed in a step keeps its worker. -/
theorem Sound.owned_of_same (hs : s.Sound) (h : s.perform a = some t)
    (ha : ∀ workerId scan locked, a ≠ .claimNext workerId scan locked)
    (hclaims : t.claims = s.claims) {jobId : Text} {row : JobRow}
    (hrow : t.tables.jobs.get? jobId = some row) (hrunning : row.status = .running) :
  ∃ claim, t.latestClaim jobId = some claim ∧ row.workerId = some claim.workerId
  := by
  rw [latestClaim, hclaims]
  cases perform_row h jobId with
  | stays hsame => exact hs.owned jobId row (hsame ▸ hrow) hrunning
  | moves hold hnew hmoved =>
      obtain rfl := Option.some.inj (hrow.symm.trans hnew)
      obtain ⟨workerId, scan, locked, hclaim, -⟩ | hcontinues := hmoved.running hrunning
      · exact (ha workerId scan locked hclaim).elim
      · rw [hcontinues.workerId]
        exact hs.owned jobId _ hold hcontinues.running
  | enters hjob hid hnone hnew =>
      obtain rfl := Option.some.inj (hrow.symm.trans hnew)
      cases hrunning

/-- A claim makes its worker the owner of the row. -/
theorem Sound.claim (hs : s.Sound) {workerId jobId : Text} :
  Sound { s with
    tables := s.tables.claim s.now jobId workerId
    claims := ⟨s.claims.length, jobId, workerId⟩ :: s.claims
    holding := Function.update s.holding workerId (some ⟨s.claims.length, jobId, workerId⟩) }
  where
  owned := by
    intro jobId' row' hrow' hrunning
    rw [latestClaim, List.find?_cons]
    simp only [JobTables.claim, JobTables.get?_update] at hrow'
    obtain ⟨row, hrow, rfl⟩ := Option.map_eq_some_iff.mp hrow'
    by_cases hne : jobId' = jobId
    · subst hne
      refine ⟨⟨s.claims.length, jobId', workerId⟩, ?_, ?_⟩
      · simp only [decide_true]
      · rw [if_pos (by simp)]
        rfl
    · rw [if_neg (by simpa using hne)] at hrunning ⊢
      obtain ⟨claim, hclaim, howner⟩ := hs.owned jobId' row hrow hrunning
      refine ⟨claim, ?_, howner⟩
      rw [decide_eq_false (fun h : jobId = jobId' => hne h.symm)]
      exact hclaim
  held := by
    intro workerId' claim hclaim
    replace hclaim : Function.update s.holding workerId
      (some ⟨s.claims.length, jobId, workerId⟩) workerId' = some claim := hclaim
    rw [List.find?_cons]
    by_cases hne : workerId' = workerId
    · subst hne
      rw [Function.update_self] at hclaim
      obtain rfl := Option.some.inj hclaim
      refine ⟨rfl, ?_⟩
      simp only [decide_true]
    · rw [Function.update_of_ne hne] at hclaim
      obtain ⟨howner, hlatest⟩ := hs.held workerId' claim hclaim
      refine ⟨howner, ?_⟩
      rw [decide_eq_false (fun h : workerId = workerId' => hne h.symm)]
      exact hlatest

theorem Sound.step (hs : s.Sound) (h : s.perform a = some t) :
  t.Sound
  := by
  have hrest (ha : ∀ workerId scan locked, a ≠ .claimNext workerId scan locked)
      (hclaims : t.claims = s.claims)
      (hholding : ∀ workerId claim, t.holding workerId = some claim →
        s.holding workerId = some claim) : t.Sound := by
    constructor
    · intro jobId row hrow hrunning
      exact hs.owned_of_same h ha hclaims hrow hrunning
    · intro workerId claim hclaim
      rw [hclaims]
      exact hs.held workerId claim (hholding workerId claim hclaim)
  cases performed h with
  | tick elapsed => exact hrest nofun rfl fun _ _ h => h
  | idle workerId scan locked => exact hs
  | claims hfree hrow hpending => exact hs.claim
  | releases workerId =>
      refine hrest nofun rfl fun workerId' claim hclaim => ?_
      replace hclaim : Function.update s.holding workerId none workerId' = some claim := hclaim
      by_cases hne : workerId' = workerId
      · rw [hne, Function.update_self] at hclaim
        cases hclaim
      · rwa [Function.update_of_ne hne] at hclaim
  | writes ha tables => exact hrest ha rfl fun _ _ h => h
  | starts htimeout => exact hrest nofun rfl fun _ _ h => h
  | resumes hreaper => exact hrest nofun rfl fun _ _ h => h
  | requeues hreaper hscan => exact hrest nofun rfl fun _ _ h => h
  | fails hreaper hphase => exact hrest nofun rfl fun _ _ h => h

theorem sound_of_reachable (h : backendSystem.Reachable s) :
  s.Sound
  := by
  apply h.invariant (I := Sound)
  · rintro _ rfl
    exact sound_empty
  · intro s a t hs h
    exact hs.step h

/-! ### Attempts that are over -/

/-- What a worker does to the job it holds changes nothing when its attempt is not the current
one. -/
theorem Sound.run_of_not_isCurrent (hs : s.Sound) {workerId : Text} {claim : Claim}
    (hclaim : s.holding workerId = some claim) (hover : ¬s.IsCurrent claim) (op : WorkerOp) :
  op.run s.tables s.now claim.jobId workerId = s.tables
  := by
  obtain ⟨hworker, hlatest⟩ := hs.held workerId claim hclaim
  have hnone : s.tables.whereId claim.jobId (JobRow.ownedBy workerId) = [] := by
    rw [List.eq_nil_iff_forall_not_mem]
    intro jobId hmem
    obtain ⟨-, row, hrow, hcondition⟩ := JobTables.mem_whereId.mp hmem
    obtain ⟨howned, hrunning⟩ := of_decide_eq_true hcondition
    obtain ⟨current, hcurrent, howner⟩ := hs.owned claim.jobId row hrow hrunning
    -- The current claim is one of this job, and the claim of this worker one of the same worker.
    have hsame : current = claim := by
      refine find?_unique hcurrent hlatest ?_ (decide_eq_true rfl)
      exact decide_eq_true (Option.some.inj (howner.symm.trans howned))
    apply hover
    constructor
    · rw [hrow, Option.map_some, hrunning]
    · rw [hcurrent, hsame]
  obtain ⟨events, hupdate⟩ := run_eq_update op s.tables s.now claim.jobId workerId
  rw [hupdate, hnone, JobTables.update_nil]

/-! ### Jobs that have come to an end -/

end State

/-- A row that succeeded or was cancelled keeps its status and its result. -/
theorem Moved.settled {s : State} {jobId : Text} {row row' : JobRow} {a : Action}
    (h : Moved s jobId row a row') (hended : row.status = .success ∨ row.status = .cancelled) :
  row'.status = row.status ∧ row'.resultRef = row.resultRef
  := by
  cases h with
  | claimed hpending => simp [hpending] at hended
  | acted hholding hjob howned hrunning => simp [hrunning] at hended
  | heartbeat hrunning => simp [hrunning] at hended
  | cancelRequested => exact ⟨rfl, rfl⟩
  | retried hfailed => rcases hfailed with hfailed | hfailed <;> simp [hfailed] at hended
  | cancelledPending hpending => simp [hpending] at hended
  | resumed hrunning hkind => simp [hrunning] at hended
  | requeued hreaper hselected hrunning hkind => simp [hrunning] at hended
  | failed hreaper hselected hrunning hkind => simp [hrunning] at hended

/-- A row that failed or timed out changes its status by a retry, which counts. -/
theorem Moved.retried_of_failed {s : State} {jobId : Text} {row row' : JobRow} {a : Action}
    (h : Moved s jobId row a row') (hended : row.status = .failed ∨ row.status = .timeout)
    (hstatus : row'.status ≠ row.status) :
  a = .retryWorkflowNode jobId ∧ row'.status = .pending ∧ row'.retryCount = row.retryCount + 1
  := by
  cases h with
  | claimed hpending => simp [hpending] at hended
  | acted hholding hjob howned hrunning => simp [hrunning] at hended
  | heartbeat hrunning => simp [hrunning] at hended
  | cancelRequested => exact (hstatus rfl).elim
  | retried hfailed => exact ⟨rfl, rfl, rfl⟩
  | cancelledPending hpending => simp [hpending] at hended
  | resumed hrunning hkind => simp [hrunning] at hended
  | requeued hreaper hselected hrunning hkind => simp [hrunning] at hended
  | failed hreaper hselected hrunning hkind => simp [hrunning] at hended

namespace State

variable {s t : State} {a : Action}

theorem settled_step (h : s.perform a = some t) {jobId : Text} {row : JobRow}
    (hrow : s.tables.jobs.get? jobId = some row)
    (hended : row.status = .success ∨ row.status = .cancelled) :
  ∃ row', t.tables.jobs.get? jobId = some row' ∧ row'.status = row.status
    ∧ row'.resultRef = row.resultRef
  := by
  cases perform_row h jobId with
  | stays hsame => exact ⟨row, hsame.trans hrow, rfl, rfl⟩
  | moves hold hnew hmoved =>
      obtain rfl := Option.some.inj (hrow.symm.trans hold)
      exact ⟨_, hnew, hmoved.settled hended⟩
  | enters hjob hid hnone hnew => cases hnone.symm.trans hrow

theorem settled_later (h : backendSystem.Later s t) {jobId : Text} {row : JobRow}
    (hrow : s.tables.jobs.get? jobId = some row)
    (hended : row.status = .success ∨ row.status = .cancelled) :
  ∃ row', t.tables.jobs.get? jobId = some row' ∧ row'.status = row.status
    ∧ row'.resultRef = row.resultRef
  := by
  induction h with
  | refl => exact ⟨row, hrow, rfl, rfl⟩
  | tail _ hstep ih =>
      obtain ⟨a, hstep⟩ := hstep
      obtain ⟨row', hrow', hstatus, hresult⟩ := ih
      obtain ⟨row'', hrow'', hstatus', hresult'⟩ := settled_step hstep hrow' (hstatus ▸ hended)
      exact ⟨row'', hrow'', hstatus'.trans hstatus, hresult'.trans hresult⟩

theorem failed_step (h : s.perform a = some t) {jobId : Text} {row : JobRow}
    (hrow : s.tables.jobs.get? jobId = some row)
    (hended : row.status = .failed ∨ row.status = .timeout) :
  ∃ row', t.tables.jobs.get? jobId = some row' ∧ (row'.status = row.status
    ∨ a = .retryWorkflowNode jobId ∧ row'.status = .pending
      ∧ row'.retryCount = row.retryCount + 1)
  := by
  cases perform_row h jobId with
  | stays hsame => exact ⟨row, hsame.trans hrow, .inl rfl⟩
  | moves hold hnew hmoved =>
      obtain rfl := Option.some.inj (hrow.symm.trans hold)
      rename_i row'
      by_cases hstatus : row'.status = row.status
      · exact ⟨row', hnew, .inl hstatus⟩
      · exact ⟨row', hnew, .inr (hmoved.retried_of_failed hended hstatus)⟩
  | enters hjob hid hnone hnew => cases hnone.symm.trans hrow

end State

/-! ### Ownership -/

/-- In every state that can be reached, whatever workers, reapers and others have done: a running
job has the worker of its latest claim; what a worker does for an attempt that is not the current
one changes neither the jobs nor the events; a job that succeeded or was cancelled keeps its status
and its result ever after; and a job that failed or timed out leaves this status only by a retry,
which increases its count by one. -/
theorem job_ownership {s : State} (h : backendSystem.Reachable s) :
  (∀ jobId row, s.tables.jobs.get? jobId = some row → row.status = .running →
    ∃ claim, s.latestClaim jobId = some claim ∧ row.workerId = some claim.workerId)
  ∧ (∀ workerId claim op t, s.holding workerId = some claim → ¬s.IsCurrent claim →
    backendSystem.step s (.act workerId op) t → t.tables = s.tables)
  ∧ (∀ t jobId row, backendSystem.Later s t → s.tables.jobs.get? jobId = some row →
    row.status = .success ∨ row.status = .cancelled →
    ∃ row', t.tables.jobs.get? jobId = some row' ∧ row'.status = row.status
      ∧ row'.resultRef = row.resultRef)
  ∧ (∀ a t jobId row, backendSystem.step s a t → s.tables.jobs.get? jobId = some row →
    row.status = .failed ∨ row.status = .timeout →
    ∃ row', t.tables.jobs.get? jobId = some row' ∧ (row'.status = row.status
      ∨ a = .retryWorkflowNode jobId ∧ row'.status = .pending
        ∧ row'.retryCount = row.retryCount + 1))
  := by
  have hsound := State.sound_of_reachable h
  refine ⟨hsound.owned, ?_, ?_, ?_⟩
  · intro workerId claim op t hclaim hover hstep
    have hstep : s.perform (.act workerId op) = some t := hstep
    rw [State.perform, hclaim] at hstep
    obtain rfl := Option.some.inj hstep
    exact hsound.run_of_not_isCurrent hclaim hover op
  · intro t jobId row hlater hrow hended
    exact State.settled_later hlater hrow hended
  · intro a t jobId row hstep hrow hended
    exact State.failed_step hstep hrow hended

/-- A query. -/
def query : Job where
  id := "query".toList
  kind := .sqlQuery
  availableAt := 0

/-- A query is claimed, its worker is not heard of, a reaper requeues it, and a second worker claims
it. -/
def reclaimed : List Action :=
  [.enqueue query, .claimNext "first".toList [query.id] [], .tick 20000000,
    .reapStaleRunningJobs "reaper".toList 10 100 1,
    .requeueStaleWorkflowRuns "reaper".toList [query.id] [],
    .requeueStaleJobs "reaper".toList [query.id] [], .claimNext "second".toList [query.id] []]

/-- The first worker cannot complete the query that the second has claimed. -/
theorem job_ownership_reclaimed :
  ∃ s, reclaimed.foldlM State.perform {} = some s
    ∧ s.holding "first".toList = some ⟨0, query.id, "first".toList⟩
    ∧ ∀ result t, backendSystem.step s (.act "first".toList (.complete result)) t →
      t.tables = s.tables
  := by
  obtain ⟨s, hs⟩ := Option.isSome_iff_exists.mp
    (by rfl : (reclaimed.foldlM State.perform {}).isSome = true)
  have hseen : (reclaimed.foldlM State.perform {}).map (fun s =>
      (s.holding "first".toList, s.latestClaim query.id))
      = some (some ⟨0, query.id, "first".toList⟩, some ⟨1, query.id, "second".toList⟩) := by
    rfl
  rw [hs] at hseen
  obtain ⟨hholding, hlatest⟩ := Prod.mk.inj (Option.some.inj hseen)
  have hreachable : backendSystem.Reachable s :=
    .later (.initial rfl) (TransitionSystem.later_of_foldlM (fun _ _ _ h => h) hs)
  refine ⟨s, hs, hholding, fun result t => (job_ownership hreachable).2.1 _ _ _ t hholding ?_⟩
  rintro ⟨-, hcurrent⟩
  cases hlatest.symm.trans hcurrent

end Jobs

import DataOpsStudio.Jobs.Ownership

/-!
# What the reaper fails

A reaper requeues the jobs that may be tried again in one transaction, and fails what is left in the
next.  The second selects by less: it does not ask whether a job may be tried again, and relies on
the first to have taken such jobs away.  What the first has passed over, because another transaction
had locked the row, or because the worker had given a sign of life not long before, is failed by the
second when the row is free and the sign of life has grown old meanwhile.
-/

namespace Jobs

open Text Workflow

/-- A job that does not write and that a reaper may have tried again. -/
def Reaper.Retryable (reaper : Reaper) (row : JobRow) : Prop :=
  row.sqlWrite = false ∧ row.retryCount < reaper.jobDefaultMaxRetries

/-- The reaper whose transaction the action is. -/
def Action.reaper : Action → Option Text
  | .requeueStaleWorkflowRuns name _ _ => some name
  | .requeueStaleJobs name _ _ => some name
  | .failStaleJobs name _ _ => some name
  | _ => none

/-- A reaper that takes the step leaves the jobs that may be tried again alone, or requeues them. -/
def SparesRetryable (s : State) (a : Action) (t : State) : Prop :=
  ∀ name reaper, a.reaper = some name → s.reapers name = some reaper →
    ∀ jobId row, s.tables.jobs.get? jobId = some row → reaper.Retryable row →
      t.tables.jobs.get? jobId = some row
        ∨ t.tables.jobs.get? jobId = some row.requeued
        ∨ row.kind = .workflowRun ∧ t.tables.jobs.get? jobId = some row.yielded

/-- Of the jobs that a reaper is about to fail, those that may be tried again were not locked when
it requeued jobs, and were stale by then. -/
def SeenByRequeue (s : State) : Action → Prop
  | .failStaleJobs name scan locked =>
      ∀ reaper requeuedAt skipped, s.reapers name = some reaper →
        reaper.requeue = some (requeuedAt, skipped) →
        ∀ jobId ∈ s.failedBy scan locked reaper, ∀ row, s.tables.jobs.get? jobId = some row →
          reaper.Retryable row →
          jobId ∉ skipped ∧ row.stale requeuedAt reaper.heartbeatTimeoutSeconds = true
  | _ => True

namespace State

variable {s t : State} {a : Action}

/-! ### The invariant -/

/-- When a reaper comes to fail jobs, those that may be tried again and were stale when it requeued
jobs are among the rows it passed over. -/
structure ReaperSound (s : State) (reaper : Reaper) : Prop where
  timeout : 0 < reaper.heartbeatTimeoutSeconds
  requeued : reaper.phase = .failJobs → reaper.jobDefaultMaxRetries = 0 ∨
    ∃ requeuedAt skipped, reaper.requeue = some (requeuedAt, skipped) ∧ requeuedAt ≤ s.now
      ∧ ∀ jobId row, s.tables.jobs.get? jobId = some row → row.status = .running →
        row.kind ≠ .workflowRun → reaper.Retryable row →
        row.stale requeuedAt reaper.heartbeatTimeoutSeconds = true → jobId ∈ skipped

/-- A row with a sign of life since some time was not stale at that time. -/
theorem stale_of_heartbeat {row : JobRow} {heartbeat requeuedAt heartbeatTimeoutSeconds : ℤ}
    (hheartbeat : row.lastHeartbeat = some heartbeat) (hle : requeuedAt ≤ heartbeat)
    (htimeout : 0 < heartbeatTimeoutSeconds) :
  row.stale requeuedAt heartbeatTimeoutSeconds = false
  := by
  rw [JobRow.stale, hheartbeat]
  apply decide_eq_false
  omega

/-- A job that runs after a step and was stale some time before the step ran before the step, and
may be tried again as before. -/
theorem running_of_step (h : s.perform a = some t) {reaper : Reaper}
    (htimeout : 0 < reaper.heartbeatTimeoutSeconds) {requeuedAt : ℤ} (hle : requeuedAt ≤ s.now)
    {jobId : Text} {row' : JobRow} (hrow' : t.tables.jobs.get? jobId = some row')
    (hrunning : row'.status = .running) (hkind : row'.kind ≠ .workflowRun)
    (hretryable : reaper.Retryable row')
    (hstale : row'.stale requeuedAt reaper.heartbeatTimeoutSeconds = true) :
  ∃ row, s.tables.jobs.get? jobId = some row ∧ row.status = .running ∧ row.kind ≠ .workflowRun
    ∧ reaper.Retryable row ∧ row.stale requeuedAt reaper.heartbeatTimeoutSeconds = true
  := by
  cases perform_row h jobId with
  | stays hsame => exact ⟨row', hsame ▸ hrow', hrunning, hkind, hretryable, hstale⟩
  | moves hold hnew hmoved =>
      rename_i row new
      obtain rfl := Option.some.inj (hrow'.symm.trans hnew)
      obtain ⟨workerId, scan, locked, -, rfl⟩ | hcontinues := hmoved.running hrunning
      · cases (stale_of_heartbeat rfl hle htimeout).symm.trans hstale
      · obtain hsame | hnow := hcontinues.heartbeat
        · refine ⟨row, hold, hcontinues.running, hcontinues.kind ▸ hkind, ?_, ?_⟩
          · rw [Reaper.Retryable, JobRow.sqlWrite] at hretryable ⊢
            rwa [hcontinues.payload, hcontinues.retryCount] at hretryable
          · rw [JobRow.stale] at hstale ⊢
            rwa [hsame] at hstale
        · cases (stale_of_heartbeat hnow hle htimeout).symm.trans hstale
  | enters hjob hid hnone hnew =>
      obtain rfl := Option.some.inj (hrow'.symm.trans hnew)
      cases hrunning

theorem ReaperSound.step {reaper : Reaper} (hs : ReaperSound s reaper)
    (h : s.perform a = some t) :
  ReaperSound t reaper
  where
  timeout := hs.timeout
  requeued := by
    intro hphase
    obtain hzero | ⟨requeuedAt, skipped, hrequeue, hle, hskipped⟩ := hs.requeued hphase
    · left
      exact hzero
    · right
      refine ⟨requeuedAt, skipped, hrequeue, hle.trans (now_le h), ?_⟩
      intro jobId row' hrow' hrunning hkind hretryable hstale
      obtain ⟨row, hrow, hrunning, hkind, hretryable, hstale⟩ :=
        running_of_step h hs.timeout hle hrow' hrunning hkind hretryable hstale
      exact hskipped jobId row hrow hrunning hkind hretryable hstale

/-- After the second transaction every job that it could have taken is gone, but for the rows that
were locked, unless the limit has been reached. -/
theorem ReaperSound.afterRequeue {reaper reaper' : Reaper} (hs : ReaperSound s reaper)
    {scan locked : List Text} (hscan : scan.Perm s.tables.jobs.keys)
    (hnext : reaper.afterRequeue s.now locked (s.requeuedBy scan locked reaper).length
      = some reaper')
    (ht : t.tables = s.tables.requeueStaleJobs (s.requeuedBy scan locked reaper))
    (hnow : t.now = s.now) :
  ReaperSound t reaper'
  := by
  rw [Reaper.afterRequeue] at hnext
  split at hnext
  · cases hnext
  rename_i hremaining
  obtain rfl := Option.some.inj hnext
  refine ⟨hs.timeout, fun _ => .inr ⟨s.now, locked, rfl, hnow.ge, ?_⟩⟩
  intro jobId row' hrow' hrunning hkind hretryable hstale
  rw [ht, JobTables.requeueStaleJobs, JobTables.get?_update] at hrow'
  obtain ⟨row, hrow, hvalues⟩ := Option.map_eq_some_iff.mp hrow'
  by_cases hmem : jobId ∈ s.requeuedBy scan locked reaper
  · rw [if_pos (by simpa using hmem)] at hvalues
    subst hvalues
    cases hrunning
  · rw [if_neg (by simpa using hmem)] at hvalues
    subst hvalues
    by_contra hlocked
    apply hmem
    have hshort : (s.requeuedBy scan locked reaper).length < reaper.remainingLimit := by omega
    rw [requeuedBy, JobTables.retryableStaleJobs] at hshort ⊢
    refine JobTables.mem_selectForUpdate hshort ?_ hrow ?_ hlocked
    · exact hscan.mem_iff.mpr (Dict.mem_keys_iff.mpr ⟨row, hrow⟩)
    · exact decide_eq_true ⟨hrunning, hkind, hstale, hretryable.2, hretryable.1⟩

/-- Every reaper on its round is as the invariant says. -/
def ReapersSound (s : State) : Prop :=
  ∀ name reaper, s.reapers name = some reaper → ReaperSound s reaper

theorem ReapersSound.step (hs : s.ReapersSound) (h : s.perform a = some t) :
  t.ReapersSound
  := by
  have hrest (hreapers : t.reapers = s.reapers) : t.ReapersSound := by
    intro name reaper hreaper
    exact (hs name reaper (hreapers ▸ hreaper)).step h
  have hupdate {name : Text} {next : Option Reaper}
      (hreapers : t.reapers = Function.update s.reapers name next)
      (hnext : ∀ reaper', next = some reaper' → ReaperSound t reaper') : t.ReapersSound := by
    intro name' reaper hreaper
    rw [hreapers] at hreaper
    by_cases hne : name' = name
    · rw [hne, Function.update_self] at hreaper
      exact hnext reaper hreaper
    · rw [Function.update_of_ne hne] at hreaper
      exact (hs name' reaper hreaper).step h
  cases performed h with
  | tick elapsed => exact hrest rfl
  | idle workerId scan locked => exact hrest rfl
  | claims hfree hrow hpending => exact hrest rfl
  | releases workerId => exact hrest rfl
  | writes ha tables => exact hrest rfl
  | starts htimeout =>
      refine hupdate rfl fun reaper' hreaper' => ?_
      obtain rfl := Option.some.inj hreaper'
      exact ⟨htimeout, nofun⟩
  | resumes hreaper =>
      rename_i name scan locked reaper
      refine hupdate rfl fun reaper' hreaper' => ?_
      rw [Reaper.afterWorkflowRuns] at hreaper'
      split at hreaper'
      · cases hreaper'
      · split at hreaper'
        · rename_i hzero
          obtain rfl := Option.some.inj hreaper'
          exact ⟨(hs name reaper hreaper).timeout, fun _ => .inl hzero⟩
        · obtain rfl := Option.some.inj hreaper'
          exact ⟨(hs name reaper hreaper).timeout, nofun⟩
  | requeues hreaper hscan =>
      rename_i name scan locked reaper
      refine hupdate rfl fun reaper' hreaper' => ?_
      exact (hs name reaper hreaper).afterRequeue hscan hreaper' rfl rfl
  | fails hreaper hphase =>
      refine hupdate rfl fun reaper' hreaper' => ?_
      cases hreaper'

/-! ### The transaction that fails jobs -/

/-- None of the jobs that a reaper fails may be tried again, when the transaction before it has seen
them. -/
theorem ReaperSound.not_retryable {reaper : Reaper} (hs : ReaperSound s reaper) {name : Text}
    {scan locked : List Text} (hreaper : s.reapers name = some reaper)
    (hphase : reaper.phase = .failJobs) (hseen : SeenByRequeue s (.failStaleJobs name scan locked))
    {jobId : Text} {row : JobRow} (hrow : s.tables.jobs.get? jobId = some row)
    (hretryable : reaper.Retryable row) :
  jobId ∉ s.failedBy scan locked reaper
  := by
  intro hmem
  obtain ⟨row', hrow', hrunning, hkind⟩ := of_mem_failedBy hmem
  obtain rfl := Option.some.inj (hrow.symm.trans hrow')
  obtain hzero | ⟨requeuedAt, skipped, hrequeue, -, hskipped⟩ := hs.requeued hphase
  · rw [Reaper.Retryable, hzero] at hretryable
    exact Nat.not_lt_zero _ hretryable.2
  · obtain ⟨hnot, hstale⟩ :=
      hseen reaper requeuedAt skipped hreaper hrequeue jobId hmem row hrow hretryable
    exact hnot (hskipped jobId row hrow hrunning hkind hretryable hstale)

theorem sparesRetryable_fails {reaper : Reaper} {name : Text} {scan locked : List Text}
    (hreaper : s.reapers name = some reaper)
    (ht : t.tables = s.tables.failStaleJobs s.now (s.failedBy scan locked reaper)) :
  SparesRetryable s (.failStaleJobs name scan locked) t
    ↔ ∀ jobId row, s.tables.jobs.get? jobId = some row → reaper.Retryable row →
      jobId ∉ s.failedBy scan locked reaper
  := by
  have hget (jobId : Text) (row : JobRow) (hrow : s.tables.jobs.get? jobId = some row) :
      t.tables.jobs.get? jobId = some (if (s.failedBy scan locked reaper).contains jobId then
        row.failed "worker heartbeat timed out".toList s.now else row) := by
    rw [ht, JobTables.failStaleJobs, JobTables.get?_update, hrow]
    rfl
  constructor
  · intro hspares jobId row hrow hretryable hmem
    obtain ⟨row', hrow', hrunning, hkind⟩ := of_mem_failedBy hmem
    obtain rfl := Option.some.inj (hrow.symm.trans hrow')
    have hnew := hget jobId row hrow
    rw [if_pos (by simpa using hmem)] at hnew
    obtain h | h | ⟨-, h⟩ := hspares name reaper rfl hreaper jobId row hrow hretryable
    · have hstatus := congrArg JobRow.status (Option.some.inj (hnew.symm.trans h))
      cases hstatus.trans hrunning
    · cases congrArg JobRow.status (Option.some.inj (hnew.symm.trans h))
    · cases congrArg JobRow.status (Option.some.inj (hnew.symm.trans h))
  · intro hnone name' reaper' hname hreaper' jobId row hrow hretryable
    obtain rfl := Option.some.inj hname
    obtain rfl := Option.some.inj (hreaper.symm.trans hreaper')
    left
    rw [hget jobId row hrow, if_neg (by simpa using hnone jobId row hrow hretryable)]

/-- The other transactions of a reaper fail nothing. -/
theorem sparesRetryable_of_not_fails (h : s.perform a = some t)
    (ha : ∀ name scan locked, a ≠ .failStaleJobs name scan locked) :
  SparesRetryable s a t
  := by
  intro name reaper hname hreaper jobId row hrow hretryable
  cases perform_row h jobId with
  | stays hsame =>
      left
      exact hsame.trans hrow
  | moves hold hnew hmoved =>
      obtain rfl := Option.some.inj (hrow.symm.trans hold)
      cases hmoved with
      | resumed hrunning hkind =>
          right
          right
          exact ⟨hkind, hnew⟩
      | requeued hreaper' hselected hrunning hkind =>
          right
          left
          exact hnew
      | failed hreaper' hselected hrunning hkind => exact (ha _ _ _ rfl).elim
      | claimed hpending => cases hname
      | acted hholding hjob howned hrunning => cases hname
      | heartbeat hrunning => cases hname
      | cancelRequested => cases hname
      | retried hended => cases hname
      | cancelledPending hpending => cases hname
  | enters hjob hid hnone hnew => cases hnone.symm.trans hrow

theorem seenByRequeue_of_not_fails
    (ha : ∀ name scan locked, a ≠ .failStaleJobs name scan locked) :
  SeenByRequeue s a
  := by
  cases a with
  | failStaleJobs name scan locked => exact (ha name scan locked rfl).elim
  | _ => trivial

theorem reapersSound_of_reachable (h : tableSystem.Reachable s) :
  s.ReapersSound
  := by
  apply h.invariant (I := ReapersSound)
  · intro s hinitial name reaper hreaper
    rw [hinitial] at hreaper
    cases hreaper
  · intro s a t hs h
    exact hs.step h

end State

/-- A step spares the jobs that do not write and may be tried again exactly when those that a reaper
is about to fail were free, and already stale, when it requeued jobs. -/
theorem sparesRetryable_iff {s t : State} {a : Action} (h : tableSystem.Reachable s)
    (hstep : tableSystem.step s a t) :
  SparesRetryable s a t ↔ SeenByRequeue s a
  := by
  have hperform : s.perform a = some t := hstep
  by_cases ha : ∃ name scan locked, a = .failStaleJobs name scan locked
  · obtain ⟨name, scan, locked, rfl⟩ := ha
    rw [State.perform] at hperform
    obtain ⟨reaper, hreaper, hphase, -, rfl⟩ := State.reap_eq_some hperform
    rw [State.sparesRetryable_fails hreaper rfl]
    constructor
    · intro hnone reaper' requeuedAt skipped hreaper' hrequeue jobId hmem row hrow hretryable
      obtain rfl := Option.some.inj (hreaper.symm.trans hreaper')
      exact (hnone jobId row hrow hretryable hmem).elim
    · intro hseen jobId row hrow hretryable
      exact (State.reapersSound_of_reachable h name reaper hreaper).not_retryable hreaper hphase
        hseen hrow hretryable
  · have hne : ∀ name scan locked, a ≠ .failStaleJobs name scan locked :=
      fun name scan locked h => ha ⟨name, scan, locked, h⟩
    exact iff_of_true (State.sparesRetryable_of_not_fails hperform hne)
      (State.seenByRequeue_of_not_fails hne)

/-- For any rows that the table may have at first, any limits, and whatever else happens between the
transactions of reapers: in a run in which reapers are about to fail no job that may be tried again
but such as were free, and already stale, when they requeued jobs, no step of a reaper fails a job
that does not write and may be tried again.  And a step from any state that can be reached spares
these jobs only if it is so. -/
theorem reaper_spares_retryable (s : State) (a : Action) (t : State) :
  ((tableSystem.restrict SeenByRequeue).Reachable s →
    (tableSystem.restrict SeenByRequeue).step s a t → SparesRetryable s a t)
  ∧ (tableSystem.Reachable s → tableSystem.step s a t →
    (SparesRetryable s a t ↔ SeenByRequeue s a))
  := by
  constructor
  · rintro h ⟨hstep, hseen⟩
    exact (sparesRetryable_iff h.of_restrict hstep).mpr hseen
  · intro h hstep
    exact sparesRetryable_iff h hstep

/-- A query has been claimed, and its worker has not been heard of for twenty seconds when a reaper
comes to requeue jobs. -/
def orphaned : List Action :=
  [.enqueue query, .claimNext "first".toList [query.id] [], .tick 20000000,
    .reapStaleRunningJobs "reaper".toList 10 100 1,
    .requeueStaleWorkflowRuns "reaper".toList [query.id] []]

theorem reachable_of_foldlM {actions : List Action} {s : State}
    (h : actions.foldlM State.perform {} = some s) :
  tableSystem.Reachable s
  := by
  have hinitial : tableSystem.Reachable {} := .initial rfl
  exact hinitial.later (TransitionSystem.later_of_foldlM (fun _ _ _ h => h) h)

/-- When the row is free the query is requeued. -/
theorem reaper_spares_orphaned :
  ∃ s t, orphaned.foldlM State.perform {} = some s
    ∧ tableSystem.step s (.requeueStaleJobs "reaper".toList [query.id] []) t
    ∧ SparesRetryable s (.requeueStaleJobs "reaper".toList [query.id] []) t
  := by
  obtain ⟨s, hs⟩ := Option.isSome_iff_exists.mp
    (by rfl : (orphaned.foldlM State.perform {}).isSome = true)
  have hstep : ((orphaned.foldlM State.perform {}).bind fun s =>
      s.perform (.requeueStaleJobs "reaper".toList [query.id] [])).isSome = true := by
    rfl
  rw [hs, Option.bind_some] at hstep
  obtain ⟨t, ht⟩ := Option.isSome_iff_exists.mp hstep
  exact ⟨s, t, hs, ht,
    ((reaper_spares_retryable s _ t).2 (reachable_of_foldlM hs) ht).mpr trivial⟩

/-- The reaper finds the row of the query locked. -/
def lockedOut : List Action :=
  orphaned ++ [.requeueStaleJobs "reaper".toList [query.id] [query.id]]

/-- When the row is free again afterwards, the query is failed. -/
theorem not_sparesRetryable_lockedOut :
  ∃ s t, lockedOut.foldlM State.perform {} = some s ∧ tableSystem.Reachable s
    ∧ tableSystem.step s (.failStaleJobs "reaper".toList [query.id] []) t
    ∧ ¬SparesRetryable s (.failStaleJobs "reaper".toList [query.id] []) t
  := by
  obtain ⟨s, hs⟩ := Option.isSome_iff_exists.mp
    (by rfl : (lockedOut.foldlM State.perform {}).isSome = true)
  have hstep : ((lockedOut.foldlM State.perform {}).bind fun s =>
      s.perform (.failStaleJobs "reaper".toList [query.id] [])).isSome = true := by
    rfl
  have hreaper : (lockedOut.foldlM State.perform {}).map (fun s => s.reapers "reaper".toList)
      = some (some ⟨10, 1, 100, .failJobs, some (20000000, [query.id])⟩) := by
    rfl
  have hbefore : (lockedOut.foldlM State.perform {}).map (fun s =>
      (s.tables.jobs.get? query.id).map fun row => (row.status, row.sqlWrite, row.retryCount))
      = some (some (.running, false, 0)) := by
    rfl
  have hafter : ((lockedOut.foldlM State.perform {}).bind fun s =>
      s.perform (.failStaleJobs "reaper".toList [query.id] [])).map (fun t =>
      (t.tables.jobs.get? query.id).map JobRow.status) = some (some .failed) := by
    rfl
  rw [hs, Option.bind_some] at hstep
  obtain ⟨t, ht⟩ := Option.isSome_iff_exists.mp hstep
  rw [hs, Option.map_some] at hreaper hbefore
  rw [hs, Option.bind_some, ht, Option.map_some] at hafter
  obtain ⟨row, hrow, hfields⟩ := Option.map_eq_some_iff.mp (Option.some.inj hbefore)
  obtain ⟨row', hrow', hfailed⟩ := Option.map_eq_some_iff.mp (Option.some.inj hafter)
  obtain ⟨hrunning, hfields⟩ := Prod.mk.inj hfields
  obtain ⟨hread, hfirst⟩ := Prod.mk.inj hfields
  refine ⟨s, t, hs, reachable_of_foldlM hs, ht, fun hspares => ?_⟩
  have hretryable : Reaper.Retryable ⟨10, 1, 100, .failJobs, some (20000000, [query.id])⟩ row :=
    ⟨hread, hfirst ▸ Nat.one_pos⟩
  obtain h | h | ⟨-, h⟩ :=
    hspares _ _ rfl (Option.some.inj hreaper) query.id row hrow hretryable
  · obtain rfl := Option.some.inj (hrow'.symm.trans h)
    cases hfailed.symm.trans hrunning
  · obtain rfl := Option.some.inj (hrow'.symm.trans h)
    cases hfailed
  · obtain rfl := Option.some.inj (hrow'.symm.trans h)
    cases hfailed

end Jobs

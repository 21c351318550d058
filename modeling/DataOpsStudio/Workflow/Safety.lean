import DataOpsStudio.Workflow.Progress
import DataOpsStudio.Workflow.Run
import Mathlib.Data.List.Induction
import Mathlib.Data.List.Nodup

/-!
# Safety of runs

The state of every node is worked out anew in every plan, so that it stays the same has to
be proved.  A set of nodes that are done is closed under parents, and the jobs of its members
do not change any more; by locality every later plan says the same about it.
-/

namespace Workflow

open Text

/-! ### Outputs of jobs are safe -/

/-- All outputs are safe. -/
def SafeOutputs (outputs : NodeOutputs) : Prop :=
  ∀ field value, outputs.get? field = some value → isSafeNodeOutputValue value = true

theorem safeOutputs_empty :
  SafeOutputs Dict.empty
  := by
  intro field value h
  cases h

theorem SafeOutputs.copyField {check : PyObject → Bool} {source : Dict Text PyObject}
    {field target : Text} {outputs : NodeOutputs}
    (hcheck : ∀ value, check value = true → isSafeNodeOutputValue value = true)
    (h : SafeOutputs outputs) :
  SafeOutputs (copyField check source field target outputs)
  := by
  rw [Workflow.copyField]
  split
  · rename_i value _
    split
    · rename_i hvalue
      intro other found hfound
      rw [Dict.get?_set] at hfound
      split at hfound
      · obtain rfl := Option.some.inj hfound
        apply hcheck value hvalue
      · apply h other found hfound
    · apply h
  · apply h

theorem SafeOutputs.copyString {source : Dict Text PyObject} {field target : Text}
    {outputs : NodeOutputs} (h : SafeOutputs outputs) :
  SafeOutputs (copyString source field target outputs)
  := by
  apply h.copyField
  rintro (_ | _ | _ | _ | _ | _ | _) hvalue
  all_goals first | rfl | cases hvalue

theorem SafeOutputs.copyInt {source : Dict Text PyObject} {field target : Text}
    {outputs : NodeOutputs} (h : SafeOutputs outputs) :
  SafeOutputs (copyInt source field target outputs)
  := by
  apply h.copyField
  rintro (_ | _ | _ | _ | _ | _ | _) hvalue
  all_goals first | rfl | cases hvalue

theorem SafeOutputs.copyBool {source : Dict Text PyObject} {field target : Text}
    {outputs : NodeOutputs} (h : SafeOutputs outputs) :
  SafeOutputs (copyBool source field target outputs)
  := by
  apply h.copyField
  rintro (_ | _ | _ | _ | _ | _ | _) hvalue
  all_goals first | rfl | cases hvalue

/-- What is taken from a result is safe. -/
theorem safeOutputs_extract (kind : NodeKind) (result : Option ResultRef) :
  SafeOutputs (extractWorkflowNodeOutputs kind result)
  := by
  obtain _ | result := result
  · apply safeOutputs_empty
  · have hstring : ∀ field target, SafeOutputs
        (copyString result.metadata field target Dict.empty) :=
      fun _ _ => safeOutputs_empty.copyString
    cases kind with
    | sqlQuery => apply (hstring _ _).copyInt
    | sqlExplain => apply (hstring _ _).copyInt
    | compareRun =>
        rw [extractWorkflowNodeOutputs, copyBucketCounts]
        split
        · apply SafeOutputs.copyInt
          apply SafeOutputs.copyInt
          apply SafeOutputs.copyInt
          apply (hstring _ _).copyInt
        · apply hstring
    | lineageAnalyze =>
        apply SafeOutputs.copyInt
        apply SafeOutputs.copyInt
        apply SafeOutputs.copyInt
        apply (hstring _ _).copyBool
    | exportExcel => apply safeOutputs_empty
    | notify => apply safeOutputs_empty.copyInt
    | sleep => apply safeOutputs_empty.copyInt
    | branch => apply hstring

theorem childOutputs_snapshot (node : WorkflowNode) (row : JobRow) :
  childOutputs node row.snapshot ≠ none
  := by
  rw [childOutputs, if_pos]
  · simp
  · apply List.all_eq_true.mpr
    intro item hitem
    apply safeOutputs_extract row.kind row.resultRef item.1
    apply Dict.get?_of_mem
    apply (List.mem_filter.mp hitem).1

/-- A job whose node is done has come to an end. -/
theorem isActive_of_reported {node : WorkflowNode} {row : JobRow} {defaultMaxRetries : ℤ}
    {status : WorkflowNodeExecStatus} {retry : List Text} {waits : List ℤ}
    (h : Reported node row.snapshot defaultMaxRetries status retry waits)
    (hstatus : status.isTerminal = true) :
  row.status.isActive = false
  := by
  cases h with
  | unsafeOutputs h => exact (childOutputs_snapshot node row h).elim
  | success h =>
      rw [show row.status = .success from h]
      rfl
  | cancelled h =>
      rw [show row.status = .cancelled from h]
      rfl
  | failed h =>
      obtain h | h := h
      · rw [show row.status = .failed from h]
        rfl
      · rw [show row.status = .timeout from h]
        rfl
  | retryNow => cases hstatus
  | retryLater => cases hstatus
  | running => cases hstatus

/-! ### Changes of jobs -/

namespace JobRow

/-- A change of jobs that keeps what identifies them. -/
structure KeepsIdentity (f : JobRow → JobRow) : Prop where
  nodeId : ∀ row, (f row).nodeId = row.nodeId
  jobId : ∀ row, (f row).jobId = row.jobId

theorem keepsIdentity_move (m : ChildMove) :
  KeepsIdentity (fun row => row.move m)
  := by
  constructor
  · intro row
    cases m <;> simp only [move] <;> split <;> rfl
  · intro row
    cases m <;> simp only [move] <;> split <;> rfl

theorem keepsIdentity_retry :
  KeepsIdentity retry
  := by
  constructor
  · intro row
    rw [retry]
    split
    · rfl
    · rfl
  · intro row
    rw [retry]
    split
    · rfl
    · rfl

theorem KeepsIdentity.iterate {f : JobRow → JobRow} (h : KeepsIdentity f) (n : ℕ) :
  KeepsIdentity f^[n]
  := by
  induction n with
  | zero => exact ⟨fun _ => rfl, fun _ => rfl⟩
  | succ n ih =>
      constructor
      · intro row
        rw [Function.iterate_succ_apply, ih.nodeId, h.nodeId]
      · intro row
        rw [Function.iterate_succ_apply, ih.jobId, h.jobId]

/-- A job that has come to an end does not move. -/
theorem move_of_not_isActive {row : JobRow} (h : row.status.isActive = false) (m : ChildMove) :
  row.move m = row
  := by
  have hne : row.status ≠ .pending ∧ row.status ≠ .running := by
    simpa [JobStatus.isActive] using h
  cases m with
  | start => rw [move, if_neg hne.1]
  | report result => rw [move, if_neg hne.2]
  | finish status result error errorCode finishedAt =>
      rw [move, if_neg]
      intro hcase
      apply hne.2 hcase.1
  | cancel finishedAt => rw [move, if_neg hne.1]

theorem retryCount_move (row : JobRow) (m : ChildMove) :
  (row.move m).retryCount = row.retryCount
  := by
  cases m <;> simp only [move] <;> split <;> rfl

theorem retry_retry (row : JobRow) :
  row.retry.retry = row.retry
  := by
  by_cases h : row.status = .failed ∨ row.status = .timeout
  · rw [show row.retry = { row with
        status := .pending
        finishedAt := none
        error := none
        errorCode := none
        retryCount := row.retryCount + 1 } from if_pos h]
    rfl
  · have hsame : row.retry = row := if_neg h
    rw [hsame, hsame]

/-- A job is tried again at most once in a step. -/
theorem retryCount_iterate_retry (row : JobRow) (n : ℕ) {budget : ℤ}
    (hbudget : row.retryCount ≤ budget) (h : 0 < n → row.retryCount < budget) :
  (retry^[n] row).retryCount ≤ budget
  := by
  obtain _ | n := n
  · apply hbudget
  · have hfixed : retry^[n] row.retry = row.retry := Function.iterate_fixed (retry_retry row) n
    rw [Function.iterate_succ_apply, hfixed, retry]
    split
    · apply Int.add_one_le_of_lt (h (Nat.succ_pos n))
    · apply hbudget

theorem retryCount_iterate_move (row : JobRow) (m : ChildMove) (n : ℕ) :
  ((fun r : JobRow => r.move m)^[n] row).retryCount = row.retryCount
  := by
  induction n generalizing row with
  | zero => rfl
  | succ n ih => rw [Function.iterate_succ_apply, ih, retryCount_move]

end JobRow

open JobRow

/-- Changes of one job after the other change every job as often as it is named. -/
theorem foldl_updateJob {f : JobRow → JobRow} (h : KeepsIdentity f) (jobIds : List Text)
    (rows : List JobRow) :
  jobIds.foldl (updateJob f) rows = rows.map (fun row => f^[jobIds.count row.jobId] row)
  := by
  induction jobIds generalizing rows with
  | nil => simp
  | cons jobId rest ih =>
      rw [List.foldl_cons, ih, updateJob, List.map_map]
      apply List.map_congr_left
      intro row _
      rw [Function.comp_apply, List.count_cons]
      by_cases hjob : row.jobId = jobId
      · rw [if_pos hjob, h.jobId, if_pos (beq_iff_eq.mpr hjob.symm), Function.iterate_succ_apply]
      · rw [if_neg hjob, if_neg (by simpa using Ne.symm hjob), Nat.add_zero]

/-- What the planner sees of the nodes whose jobs a change leaves alone is the same. -/
theorem get?_snapshots_map {g : JobRow → JobRow} (hid : ∀ row, (g row).nodeId = row.nodeId)
    {rows : List JobRow} {nodeId : Text} (h : ∀ row ∈ rows, row.nodeId = nodeId → g row = row) :
  (workflowChildrenSnapshots (rows.map g)).get? nodeId
    = (workflowChildrenSnapshots rows).get? nodeId
  := by
  rw [workflowChildrenSnapshots, workflowChildrenSnapshots, List.map_map]
  have hitems : ((fun row : JobRow => (row.nodeId, row.snapshot)) ∘ g)
      = fun row => (row.nodeId, (g row).snapshot) := by
    funext row
    rw [Function.comp_apply, hid]
  rw [hitems]
  apply Dict.get?_ofList_map_congr
  intro row hrow hnode
  rw [h row hrow hnode]

theorem get?_snapshots_append {rows created : List JobRow} {nodeId : Text}
    (h : ∀ row ∈ created, row.nodeId ≠ nodeId) :
  (workflowChildrenSnapshots (rows ++ created)).get? nodeId
    = (workflowChildrenSnapshots rows).get? nodeId
  := by
  induction created using List.reverseRecOn with
  | nil => rw [List.append_nil]
  | append_singleton created row ih =>
      rw [← List.append_assoc, workflowChildrenSnapshots, List.map_append, List.map_singleton,
        Dict.get?_ofList_append_of_ne (h row (by simp))]
      apply ih
      intro other hother
      apply h other (List.mem_append_left _ hother)

theorem mem_of_get?_snapshots {rows : List JobRow} {nodeId : Text} {child : WorkflowChildJob}
    (h : (workflowChildrenSnapshots rows).get? nodeId = some child) :
  ∃ row ∈ rows, row.nodeId = nodeId ∧ row.snapshot = child
  := by
  obtain ⟨row, hrow, hitem⟩ := List.mem_map.mp (Dict.mem_of_get?_ofList h)
  obtain ⟨rfl, rfl⟩ := Prod.mk.inj hitem
  exact ⟨row, hrow, rfl, rfl⟩

/-- If every node has at most one job, the planner sees each job. -/
theorem get?_snapshots_of_mem {rows : List JobRow} (hnodup : (rows.map JobRow.nodeId).Nodup)
    {row : JobRow} (hrow : row ∈ rows) :
  (workflowChildrenSnapshots rows).get? row.nodeId = some row.snapshot
  := by
  have hmem : row.nodeId ∈ (rows.map (fun row => (row.nodeId, row.snapshot))).map Prod.fst := by
    rw [List.map_map]
    apply List.mem_map_of_mem hrow
  obtain ⟨child, hchild⟩ := Dict.exists_get?_ofList hmem
  obtain ⟨other, hother, hnode, rfl⟩ := mem_of_get?_snapshots hchild
  obtain rfl := List.inj_on_of_nodup_map hnodup hother hrow hnode
  apply hchild

section System

variable {rt : WhenRuntime} {spec : WorkflowSpec rt} {vars : Variables} {defaultMaxRetries : ℕ}

theorem buildWorkflowChildJob_eq_ok {nodeOutputs : NodeOutputMap} {node : WorkflowNode}
    {jobId : Text} {row : JobRow}
    (h : buildWorkflowChildJob vars nodeOutputs node jobId = .ok row) :
  row.nodeId = node.id ∧ row.jobId = jobId ∧ row.retryCount = 0
  := by
  obtain ⟨rendered, -, h⟩ := Outcome.bind_eq_ok.mp h
  obtain ⟨payload, -, h⟩ := Outcome.bind_eq_ok.mp h
  obtain rfl := Outcome.pure_eq_ok.mp h
  exact ⟨rfl, rfl, rfl⟩

/-- The jobs that are created belong to the first of the given nodes, in their order, and have
the identifiers made for them. -/
theorem enqueueChildren_created (spec : WorkflowSpec rt) (vars : Variables) (nodeOutputs : NodeOutputMap) (newJobId : Text → Text)
    (nodeIds : List Text) (rows : List JobRow) :
  ∃ created, (enqueueChildren spec vars nodeOutputs newJobId nodeIds rows).1 = rows ++ created
    ∧ created.map JobRow.nodeId <+: nodeIds
    ∧ ∀ row ∈ created, row.jobId = newJobId row.nodeId ∧ row.retryCount = 0
  := by
  induction nodeIds generalizing rows with
  | nil =>
      use []
      simp [enqueueChildren]
  | cons nodeId rest ih =>
      have hstop : ∃ created, rows = rows ++ created
          ∧ created.map JobRow.nodeId <+: nodeId :: rest
          ∧ ∀ row ∈ created, row.jobId = newJobId row.nodeId ∧ row.retryCount = 0 := by
        use []
        simp
      rw [enqueueChildren]
      split
      · apply hstop
      · rename_i node hlookup
        split
        · apply hstop
        · rename_i row hbuild
          obtain ⟨hid, -⟩ := lookupNode_eq_ok hlookup
          obtain ⟨hnode, hjob, hcount⟩ := buildWorkflowChildJob_eq_ok hbuild
          rw [hid] at hnode
          obtain ⟨created, hrows, hids, hcreated⟩ := ih (rows ++ [row])
          refine ⟨row :: created, ?_, ?_, ?_⟩
          · rw [hrows, List.append_assoc]
            rfl
          · rw [List.map_cons, hnode]
            apply (List.prefix_cons_inj nodeId).mpr hids
          · intro other hother
            obtain rfl | hother := List.mem_cons.mp hother
            · rw [hnode]
              exact ⟨hjob, hcount⟩
            · apply hcreated other hother

/-! ### Plans of a run -/

/-- The pass over the nodes of a workflow, with some children at some time. -/
def Passed (spec : WorkflowSpec rt) (vars : Variables) (defaultMaxRetries : ℕ)
    (children : Dict Text WorkflowChildJob) (now : ℤ) (acc : PlanAcc) : Prop :=
  ∃ order, topologicalNodes spec.nodes spec.edges = .ok order
    ∧ planNodes rt vars spec.nodes spec.edges defaultMaxRetries children now order {} = .ok acc

/-- A node is done. -/
def PlanAcc.Done (acc : PlanAcc) (nodeId : Text) : Prop :=
  ∃ state, acc.states.get? nodeId = some state ∧ state.status.isTerminal = true

theorem planWorkflowStep_eq_ok {children : Dict Text WorkflowChildJob} {now : ℤ}
    {plan : WorkflowStepPlan}
    (h : planWorkflowStep spec children now defaultMaxRetries vars = .ok plan) :
  ∃ acc, Passed spec vars defaultMaxRetries children now acc
    ∧ plan = finishPlan spec.nodes children acc
  := by
  obtain ⟨order, horder, h⟩ := Outcome.bind_eq_ok.mp h
  obtain ⟨acc, hacc, h⟩ := Outcome.bind_eq_ok.mp h
  exact ⟨acc, ⟨order, horder, hacc⟩, (Outcome.pure_eq_ok.mp h).symm⟩

variable {children children' : Dict Text WorkflowChildJob} {now now' : ℤ} {acc acc' : PlanAcc}

theorem Passed.passInvariant (h : Passed spec vars defaultMaxRetries children now acc) :
  PassInvariant spec.nodes spec.edges defaultMaxRetries children acc
  := by
  obtain ⟨order, horder, hacc⟩ := h
  obtain ⟨hnodup, hmem⟩ := topologicalNodes_nodup spec horder
  apply planNodes_passInvariant hnodup hmem hacc

/-- Two plans say the same about nodes with their ancestors whose children are the same. -/
theorem Passed.agree (hreads : ReadsUpstream rt spec.nodes spec.edges) {D : Text → Prop}
    (hclosed : ParentClosed spec.edges D)
    (hchildren : ∀ nodeId, D nodeId → children.get? nodeId = children'.get? nodeId)
    (h : Passed spec vars defaultMaxRetries children now acc)
    (h' : Passed spec vars defaultMaxRetries children' now' acc') :
  Agree D acc acc'
  := by
  obtain ⟨order, horder, hacc⟩ := h
  obtain ⟨order', horder', hacc'⟩ := h'
  rw [horder] at horder'
  obtain rfl := Except.ok.inj horder'
  apply planNodes_agree hreads hclosed hchildren (topologicalNodes_nodup spec horder).2 hacc hacc'

/-- A node that is done appears in the plan as it is, also when the run is aborted. -/
theorem get?_nodeStates_of_terminal {nodeId : Text} {state : WorkflowNodeState}
    (h : acc.states.get? nodeId = some state) (hterminal : state.status.isTerminal = true) :
  (finishPlan spec.nodes children acc).nodeStates.get? nodeId = some state
  := by
  rw [finishPlan]
  split
  · have hitem : (nodeId, state) ∈ (cancelRemaining acc.states).items := by
      apply List.mem_map.mpr
      refine ⟨(nodeId, state), Dict.get?_eq_some_iff.mp h, ?_⟩
      rw [cancelledState, if_pos hterminal]
    apply Dict.get?_of_mem hitem
  · split
    · split
      · apply h
      · apply h
    · apply h

/-- The plan enqueues and tries again what the pass has found, or nothing. -/
theorem finishPlan_lists (nodes : List WorkflowNode) (children : Dict Text WorkflowChildJob)
    (acc : PlanAcc) :
  (finishPlan nodes children acc).enqueueNodeIds.Sublist acc.enqueue
    ∧ ∀ jobId ∈ (finishPlan nodes children acc).retryJobIds, jobId ∈ acc.retry
  := by
  rw [finishPlan]
  split
  · simp
  · split
    · split
      · simp
      · simp
    · exact ⟨List.Sublist.refl _, fun _ h => h⟩

/-! ### The invariant of runs -/

/-- The jobs of a run belong to nodes whose parents were done in an earlier plan, and the
children of the nodes that were done then have not changed since. -/
structure Anchored (spec : WorkflowSpec rt) (vars : Variables) (defaultMaxRetries : ℕ)
    (children : Dict Text WorkflowChildJob) (acc : PlanAcc) (rows : List JobRow) : Prop where
  passed : ∃ now, Passed spec vars defaultMaxRetries children now acc
  closed : ParentClosed spec.edges acc.Done
  kept : ∀ nodeId, acc.Done nodeId →
    children.get? nodeId = (workflowChildrenSnapshots rows).get? nodeId
  parents : ∀ row ∈ rows, ∀ edge ∈ spec.edges, edge.target = row.nodeId → acc.Done edge.source

/-- Every node has at most one job, jobs have different identifiers, and no job has been tried
again more often than its node allows. -/
structure WellKept (spec : WorkflowSpec rt) (defaultMaxRetries : ℕ) (rows : List JobRow) :
    Prop where
  nodes_nodup : (rows.map JobRow.nodeId).Nodup
  jobs_nodup : (rows.map JobRow.jobId).Nodup
  budget : ∀ row ∈ rows, ∀ node ∈ spec.nodes, node.id = row.nodeId →
    row.retryCount ≤ retryBudget node defaultMaxRetries

/-- What holds along every run. -/
structure RunInvariant (spec : WorkflowSpec rt) (vars : Variables) (defaultMaxRetries : ℕ)
    (s : RunState) : Prop where
  wellKept : WellKept spec defaultMaxRetries s.rows
  anchored : s.rows = [] ∨ ∃ children acc, Anchored spec vars defaultMaxRetries children acc s.rows

variable {s t : RunState}

/-- The parents of a node with a job are done in every plan, and so are the parents of every
node that is done. -/
theorem RunInvariant.closed (hreads : ReadsUpstream rt spec.nodes spec.edges)
    (h : RunInvariant spec vars defaultMaxRetries s)
    (hpassed : Passed spec vars defaultMaxRetries (workflowChildrenSnapshots s.rows) now acc) :
  (∀ row ∈ s.rows, ∀ edge ∈ spec.edges, edge.target = row.nodeId → acc.Done edge.source)
    ∧ ParentClosed spec.edges acc.Done
  := by
  have hparents : ∀ row ∈ s.rows, ∀ edge ∈ spec.edges, edge.target = row.nodeId →
      acc.Done edge.source := by
    obtain hempty | ⟨children₀, acc₀, hanchor⟩ := h.anchored
    · rw [hempty]
      intro row hrow
      cases hrow
    · intro row hrow edge hedge htarget
      obtain ⟨now₀, hpassed₀⟩ := hanchor.passed
      have hagree := Passed.agree hreads hanchor.closed hanchor.kept hpassed₀ hpassed
      have hdone := hanchor.parents row hrow edge hedge htarget
      obtain ⟨state, hstate, hterminal⟩ := hdone
      refine ⟨state, ?_, hterminal⟩
      rw [← hagree.states _ (hanchor.parents row hrow edge hedge htarget)]
      apply hstate
  refine ⟨hparents, ?_⟩
  rintro edge hedge ⟨state, hstate, hterminal⟩
  cases hchild : (workflowChildrenSnapshots s.rows).get? edge.target with
  | none =>
      apply hpassed.passInvariant.parents edge.target state hstate hchild (.inl hterminal) edge
      apply List.mem_filter.mpr
      exact ⟨hedge, beq_self_eq_true _⟩
  | some child =>
      obtain ⟨row, hrow, hnode, -⟩ := mem_of_get?_snapshots hchild
      apply hparents row hrow edge hedge hnode.symm

/-- The job of a node that is done has come to an end. -/
theorem Passed.isActive_of_done
    (hpassed : Passed spec vars defaultMaxRetries children now acc) {row : JobRow}
    (hdone : acc.Done row.nodeId) (hchild : children.get? row.nodeId = some row.snapshot) :
  row.status.isActive = false
  := by
  obtain ⟨state, hstate, hterminal⟩ := hdone
  obtain ⟨node, -, -, retry, waits, hreported⟩ :=
    hpassed.passInvariant.reported row.nodeId state row.snapshot hstate hchild
  apply isActive_of_reported hreported hterminal

/-- A job whose node is done, and which the plan has seen, has come to an end. -/
theorem Anchored.isActive_of_done {rows : List JobRow}
    (hanchor : Anchored spec vars defaultMaxRetries children acc rows)
    (hnodup : (rows.map JobRow.nodeId).Nodup) {row : JobRow} (hrow : row ∈ rows)
    (hdone : acc.Done row.nodeId) :
  row.status.isActive = false
  := by
  obtain ⟨now₀, hpassed⟩ := hanchor.passed
  apply hpassed.isActive_of_done hdone
  rw [hanchor.kept _ hdone]
  apply get?_snapshots_of_mem hnodup hrow

theorem WellKept.map {rows : List JobRow} (h : WellKept spec defaultMaxRetries rows)
    {g : JobRow → JobRow} (hkeeps : KeepsIdentity g)
    (hbudget : ∀ row ∈ rows, ∀ node ∈ spec.nodes, node.id = row.nodeId →
      (g row).retryCount ≤ retryBudget node defaultMaxRetries) :
  WellKept spec defaultMaxRetries (rows.map g)
  := by
  constructor
  · have hids : (rows.map g).map JobRow.nodeId = rows.map JobRow.nodeId := by
      rw [List.map_map]
      apply List.map_congr_left
      intro row _
      apply hkeeps.nodeId
    rw [hids]
    apply h.nodes_nodup
  · have hids : (rows.map g).map JobRow.jobId = rows.map JobRow.jobId := by
      rw [List.map_map]
      apply List.map_congr_left
      intro row _
      apply hkeeps.jobId
    rw [hids]
    apply h.jobs_nodup
  · intro row hrow node hmem hid
    obtain ⟨old, hold, rfl⟩ := List.mem_map.mp hrow
    rw [hkeeps.nodeId] at hid
    apply hbudget old hold node hmem hid

theorem Anchored.map {rows : List JobRow}
    (h : Anchored spec vars defaultMaxRetries children acc rows) {g : JobRow → JobRow}
    (hkeeps : KeepsIdentity g) (hdone : ∀ row ∈ rows, acc.Done row.nodeId → g row = row) :
  Anchored spec vars defaultMaxRetries children acc (rows.map g)
  := by
  refine ⟨h.passed, h.closed, ?_, ?_⟩
  · intro nodeId hnode
    rw [h.kept nodeId hnode]
    symm
    apply get?_snapshots_map hkeeps.nodeId
    rintro row hrow rfl
    apply hdone row hrow hnode
  · intro row hrow edge hedge htarget
    obtain ⟨old, hold, rfl⟩ := List.mem_map.mp hrow
    rw [hkeeps.nodeId] at htarget
    apply h.parents old hold edge hedge htarget

theorem keepsIdentity_moveJob (jobId : Text) (move : ChildMove) :
  KeepsIdentity (fun row => if row.jobId = jobId then row.move move else row)
  := by
  constructor
  · intro row
    split
    · apply (keepsIdentity_move move).nodeId
    · rfl
  · intro row
    split
    · apply (keepsIdentity_move move).jobId
    · rfl

/-- A move of a job leaves the jobs of nodes that are done. -/
theorem Anchored.child {rows : List JobRow}
    (h : Anchored spec vars defaultMaxRetries children acc rows)
    (hnodup : (rows.map JobRow.nodeId).Nodup) (jobId : Text) (move : ChildMove) :
  Anchored spec vars defaultMaxRetries children acc
    (updateJob (fun row => row.move move) rows jobId)
  := by
  apply h.map (keepsIdentity_moveJob jobId move)
  intro row hrow hdone
  split
  · apply move_of_not_isActive
    apply h.isActive_of_done hnodup hrow hdone
  · rfl

/-- A move of a job keeps the invariant. -/
theorem RunInvariant.child (h : RunInvariant spec vars defaultMaxRetries s) (jobId : Text)
    (move : ChildMove) :
  RunInvariant spec vars defaultMaxRetries
    { s with rows := updateJob (fun row => row.move move) s.rows jobId }
  := by
  constructor
  · apply h.wellKept.map (keepsIdentity_moveJob jobId move)
    intro row hrow node hmem hid
    have hbudget := h.wellKept.budget row hrow node hmem hid
    split
    · rw [retryCount_move]
      apply hbudget
    · apply hbudget
  · obtain hempty | ⟨children₀, acc₀, hanchor⟩ := h.anchored
    · left
      simp [hempty, updateJob]
    · right
      exact ⟨children₀, acc₀, hanchor.child h.wellKept.nodes_nodup jobId move⟩

/-! ### Steps of the executor -/

section Execute

variable {plan : WorkflowStepPlan} {newJobId : Text → Text} {created : List JobRow}

/-- The nodes that are enqueued have no job. -/
theorem Passed.not_mem_of_enqueue
    (hpassed : Passed spec vars defaultMaxRetries (workflowChildrenSnapshots s.rows) now acc)
    (h : WellKept spec defaultMaxRetries s.rows) {nodeId : Text} (hqueued : nodeId ∈ acc.enqueue) :
  ∀ row ∈ s.rows, row.nodeId ≠ nodeId
  := by
  rintro row hrow rfl
  have hnone := (hpassed.passInvariant.enqueue _ hqueued).1
  rw [get?_snapshots_of_mem h.nodes_nodup hrow] at hnone
  cases hnone

theorem WellKept.append (h : WellKept spec defaultMaxRetries s.rows)
    (hpassed : Passed spec vars defaultMaxRetries (workflowChildrenSnapshots s.rows) now acc)
    (hinjective : Function.Injective newJobId)
    (hfresh : ∀ row ∈ s.rows, ∀ nodeId, newJobId nodeId ≠ row.jobId)
    (hids : (created.map JobRow.nodeId).Sublist acc.enqueue)
    (hcreated : ∀ row ∈ created, row.jobId = newJobId row.nodeId ∧ row.retryCount = 0) :
  WellKept spec defaultMaxRetries (s.rows ++ created)
  := by
  have hnodup : (created.map JobRow.nodeId).Nodup :=
    hids.nodup hpassed.passInvariant.enqueue_nodup
  have hjobs : created.map JobRow.jobId = (created.map JobRow.nodeId).map newJobId := by
    rw [List.map_map]
    apply List.map_congr_left
    intro row hrow
    apply (hcreated row hrow).1
  constructor
  · rw [List.map_append]
    apply List.nodup_append.mpr
    refine ⟨h.nodes_nodup, hnodup, ?_⟩
    rintro nodeId hold _ hnew rfl
    obtain ⟨row, hrow, rfl⟩ := List.mem_map.mp hold
    apply hpassed.not_mem_of_enqueue h (hids.subset hnew) row hrow rfl
  · rw [List.map_append, hjobs]
    apply List.nodup_append.mpr
    refine ⟨h.jobs_nodup, hnodup.map hinjective, ?_⟩
    rintro jobId hold _ hnew rfl
    obtain ⟨row, hrow, rfl⟩ := List.mem_map.mp hold
    obtain ⟨nodeId, -, hjob⟩ := List.mem_map.mp hnew
    apply hfresh row hrow nodeId hjob
  · intro row hrow node hmem hid
    obtain hrow | hrow := List.mem_append.mp hrow
    · apply h.budget row hrow node hmem hid
    · rw [(hcreated row hrow).2, retryBudget]
      split
      · apply Int.natCast_nonneg
      · apply Int.natCast_nonneg

/-- The plan of the executor is the new anchor. -/
theorem RunInvariant.anchored_append (hreads : ReadsUpstream rt spec.nodes spec.edges)
    (h : RunInvariant spec vars defaultMaxRetries s)
    (hpassed : Passed spec vars defaultMaxRetries (workflowChildrenSnapshots s.rows) now acc)
    (hids : (created.map JobRow.nodeId).Sublist acc.enqueue) :
  Anchored spec vars defaultMaxRetries (workflowChildrenSnapshots s.rows) acc (s.rows ++ created)
  := by
  obtain ⟨hparents, hclosed⟩ := h.closed hreads hpassed
  have hqueued : ∀ row ∈ created, row.nodeId ∈ acc.enqueue := by
    intro row hrow
    apply hids.subset
    apply List.mem_map_of_mem hrow
  refine ⟨⟨now, hpassed⟩, hclosed, ?_, ?_⟩
  · rintro nodeId ⟨state, hstate, hterminal⟩
    symm
    apply get?_snapshots_append
    rintro row hrow rfl
    obtain ⟨-, found, hfound, hwaiting⟩ :=
      hpassed.passInvariant.enqueue _ (hqueued row hrow)
    rw [hstate] at hfound
    obtain rfl := Option.some.inj hfound
    rw [hwaiting] at hterminal
    cases hterminal
  · intro row hrow edge hedge htarget
    obtain hrow | hrow := List.mem_append.mp hrow
    · apply hparents row hrow edge hedge htarget
    · obtain ⟨hnone, state, hstate, -⟩ := hpassed.passInvariant.enqueue _ (hqueued row hrow)
      apply hpassed.passInvariant.parents row.nodeId state hstate hnone
        (.inr (hqueued row hrow)) edge
      apply List.mem_filter.mpr
      exact ⟨hedge, by simpa using htarget⟩

/-- A job that is tried again belongs to a node that waits for it and has not used up its
budget. -/
theorem Passed.retry_row
    (hpassed : Passed spec vars defaultMaxRetries (workflowChildrenSnapshots s.rows) now acc)
    (hnodup : ((s.rows ++ created).map JobRow.jobId).Nodup) {row : JobRow}
    (hrow : row ∈ s.rows ++ created) (hretry : row.jobId ∈ acc.retry) :
  ¬acc.Done row.nodeId
    ∧ ∃ node ∈ spec.nodes, node.id = row.nodeId
      ∧ row.retryCount < retryBudget node defaultMaxRetries
  := by
  obtain ⟨node, hmem, child, hchild, hjob, hbudget, state, hstate, hstatus⟩ :=
    hpassed.passInvariant.retry row.jobId hretry
  obtain ⟨old, hold, hnode, rfl⟩ := mem_of_get?_snapshots hchild
  obtain rfl := List.inj_on_of_nodup_map hnodup (List.mem_append_left _ hold) hrow hjob
  constructor
  · rintro ⟨found, hfound, hterminal⟩
    rw [hnode, hstate] at hfound
    obtain rfl := Option.some.inj hfound
    rw [hstatus] at hterminal
    cases hterminal
  · exact ⟨node, hmem, hnode.symm, hbudget⟩

/-- What the executor does to each job after it has created the new ones. -/
def settleJob (plan : WorkflowStepPlan) (now : ℤ) (row : JobRow) : JobRow :=
  (fun r : JobRow => r.move (.cancel now))^[plan.cancelJobIds.count row.jobId]
    (JobRow.retry^[plan.retryJobIds.count row.jobId] row)

theorem foldl_updateJob_settleJob (plan : WorkflowStepPlan) (now : ℤ) (rows : List JobRow) :
  plan.cancelJobIds.foldl (updateJob (fun row => row.move (.cancel now)))
      (plan.retryJobIds.foldl (updateJob JobRow.retry) rows)
    = rows.map (settleJob plan now)
  := by
  rw [foldl_updateJob keepsIdentity_retry, foldl_updateJob (keepsIdentity_move _), List.map_map]
  apply List.map_congr_left
  intro row _
  rw [Function.comp_apply, settleJob, (keepsIdentity_retry.iterate _).jobId]

theorem keepsIdentity_settleJob (plan : WorkflowStepPlan) (now : ℤ) :
  KeepsIdentity (settleJob plan now)
  := by
  constructor
  · intro row
    rw [settleJob, ((keepsIdentity_move _).iterate _).nodeId,
      (keepsIdentity_retry.iterate _).nodeId]
  · intro row
    rw [settleJob, ((keepsIdentity_move _).iterate _).jobId,
      (keepsIdentity_retry.iterate _).jobId]

/-- A step of the executor keeps the jobs in order, and its plan is the new anchor. -/
theorem RunInvariant.execute_anchored (hreads : ReadsUpstream rt spec.nodes spec.edges)
    (h : RunInvariant spec vars defaultMaxRetries s)
    (hpassed : Passed spec vars defaultMaxRetries (workflowChildrenSnapshots s.rows) now acc)
    (hplan : plan = finishPlan spec.nodes (workflowChildrenSnapshots s.rows) acc)
    (hinjective : Function.Injective newJobId)
    (hfresh : ∀ row ∈ s.rows, ∀ nodeId, newJobId nodeId ≠ row.jobId) :
  WellKept spec defaultMaxRetries (executePlan spec vars plan newJobId now s).rows
    ∧ Anchored spec vars defaultMaxRetries (workflowChildrenSnapshots s.rows) acc
      (executePlan spec vars plan newJobId now s).rows
  := by
  obtain ⟨hsublist, hretries⟩ : plan.enqueueNodeIds.Sublist acc.enqueue
      ∧ ∀ jobId ∈ plan.retryJobIds, jobId ∈ acc.retry := by
    rw [hplan]
    apply finishPlan_lists
  obtain ⟨created, hrows, hcreatedIds, hcreated⟩ := enqueueChildren_created spec vars
    (outputContext plan.nodeStates) newJobId plan.enqueueNodeIds s.rows
  have hids := hcreatedIds.sublist.trans hsublist
  have hkept := h.wellKept.append hpassed hinjective hfresh hids hcreated
  have hanchor := h.anchored_append hreads hpassed hids
  rw [executePlan, hrows]
  split
  · rw [foldl_updateJob_settleJob]
    constructor
    · apply hkept.map (keepsIdentity_settleJob _ now)
      intro row hrow node hmem hid
      rw [settleJob, retryCount_iterate_move]
      apply retryCount_iterate_retry row _ (hkept.budget row hrow node hmem hid)
      intro hcount
      obtain ⟨-, other, hother, hotherId, hbudget⟩ := hpassed.retry_row hkept.jobs_nodup hrow
        (hretries _ (List.count_pos_iff.mp hcount))
      obtain rfl := List.inj_on_of_nodup_map spec.nodup_ids hmem hother
        (hid.trans hotherId.symm)
      apply hbudget
    · apply hanchor.map (keepsIdentity_settleJob _ now)
      intro row hrow hdone
      have hcount : plan.retryJobIds.count row.jobId = 0 := by
        apply List.count_eq_zero.mpr
        intro hmem
        apply (hpassed.retry_row hkept.jobs_nodup hrow (hretries _ hmem)).1 hdone
      rw [settleJob, hcount, Function.iterate_zero, id]
      apply Function.iterate_fixed
      apply move_of_not_isActive
      apply hanchor.isActive_of_done hkept.nodes_nodup hrow hdone
  · exact ⟨hkept, hanchor⟩

end Execute

/-! ### Runs -/

/-- A step of a run is a step of the executor or a move of a job. -/
theorem runSystem_step {a : RunAction} (h : (runSystem spec vars defaultMaxRetries).step s a t) :
  (∃ now newJobId plan, a = .execute now newJobId ∧ s.stopped = false
      ∧ s.plan spec vars defaultMaxRetries now = .ok plan ∧ Function.Injective newJobId
      ∧ (∀ row ∈ s.rows, ∀ nodeId, newJobId nodeId ≠ row.jobId)
      ∧ t = executePlan spec vars plan newJobId now s)
    ∨ ∃ jobId move, a = .child jobId move
      ∧ t = { s with rows := updateJob (fun row => row.move move) s.rows jobId }
  := by
  obtain ⟨hperform, hfresh⟩ := h
  obtain ⟨now, newJobId⟩ | ⟨jobId, move⟩ := a
  · left
    rw [RunState.perform] at hperform
    split at hperform
    · cases hperform
    · rename_i hrunning
      obtain ⟨plan, hplan, hperform⟩ := Outcome.bind_eq_ok.mp hperform
      exact ⟨now, newJobId, plan, rfl, by simpa using hrunning, hplan, hfresh.1, hfresh.2,
        (Outcome.pure_eq_ok.mp hperform).symm⟩
  · right
    exact ⟨jobId, move, rfl, (Except.ok.inj hperform).symm⟩

theorem RunInvariant.step (hreads : ReadsUpstream rt spec.nodes spec.edges) (s : RunState)
    (a : RunAction) (t : RunState) (h : RunInvariant spec vars defaultMaxRetries s)
    (hstep : (runSystem spec vars defaultMaxRetries).step s a t) :
  RunInvariant spec vars defaultMaxRetries t
  := by
  obtain ⟨now, newJobId, plan, -, -, hplan, hinjective, hfresh, rfl⟩ | ⟨jobId, move, -, rfl⟩ :=
    runSystem_step hstep
  · obtain ⟨acc, hpassed, hfinish⟩ := planWorkflowStep_eq_ok hplan
    obtain ⟨hkept, hanchor⟩ := h.execute_anchored hreads hpassed hfinish hinjective hfresh
    exact ⟨hkept, .inr ⟨_, acc, hanchor⟩⟩
  · apply h.child

theorem runInvariant_initial :
  RunInvariant spec vars defaultMaxRetries {}
  := by
  refine ⟨⟨List.nodup_nil, List.nodup_nil, ?_⟩, .inl rfl⟩
  intro row hrow
  cases hrow

theorem runInvariant_of_reachable (hreads : ReadsUpstream rt spec.nodes spec.edges)
    (h : (runSystem spec vars defaultMaxRetries).Reachable s) :
  RunInvariant spec vars defaultMaxRetries s
  := by
  apply h.invariant _ (RunInvariant.step hreads)
  rintro s rfl
  apply runInvariant_initial

/-- The nodes that were done in a plan have the children they had then. -/
def Settled (children : Dict Text WorkflowChildJob) (acc : PlanAcc) (s : RunState) : Prop :=
  ∀ nodeId, acc.Done nodeId →
    children.get? nodeId = (workflowChildrenSnapshots s.rows).get? nodeId

/-- What has been settled stays so. -/
theorem Settled.step (hreads : ReadsUpstream rt spec.nodes spec.edges)
    (hpassed : Passed spec vars defaultMaxRetries children now acc)
    (hclosed : ParentClosed spec.edges acc.Done) (s : RunState) (a : RunAction) (t : RunState)
    (hinv : RunInvariant spec vars defaultMaxRetries s) (hsettled : Settled children acc s)
    (hstep : (runSystem spec vars defaultMaxRetries).step s a t) :
  Settled children acc t
  := by
  intro nodeId hdone
  rw [hsettled nodeId hdone]
  obtain ⟨now', newJobId, plan, -, -, hplan, hinjective, hfresh, rfl⟩ | ⟨jobId, move, -, rfl⟩ :=
    runSystem_step hstep
  · obtain ⟨acc', hpassed', hfinish⟩ := planWorkflowStep_eq_ok hplan
    obtain ⟨-, hanchor⟩ := hinv.execute_anchored hreads hpassed' hfinish hinjective hfresh
    apply hanchor.kept
    have hagree := Passed.agree hreads hclosed hsettled hpassed hpassed'
    obtain ⟨state, hstate, hterminal⟩ := hdone
    refine ⟨state, ?_, hterminal⟩
    rw [← hagree.states nodeId ⟨state, hstate, hterminal⟩]
    apply hstate
  · symm
    apply get?_snapshots_map
    · intro row
      split
      · apply (keepsIdentity_move move).nodeId
      · rfl
    · rintro row hrow rfl
      split
      · apply move_of_not_isActive
        apply hpassed.isActive_of_done hdone
        rw [hsettled _ hdone]
        apply get?_snapshots_of_mem hinv.wellKept.nodes_nodup hrow
      · rfl

/-- The executor does not start again. -/
theorem stopped_of_step {a : RunAction} (h : (runSystem spec vars defaultMaxRetries).step s a t)
    (hstopped : s.stopped = true) :
  t.stopped = true
  := by
  obtain ⟨_, _, _, -, hrunning, -⟩ | ⟨_, _, -, rfl⟩ := runSystem_step h
  · rw [hstopped] at hrunning
    cases hrunning
  · apply hstopped

/-- The parents of a node are done in a plan. -/
def WorkflowStepPlan.ParentsDone (plan : WorkflowStepPlan) (edges : List WorkflowEdge)
    (nodeId : Text) : Prop :=
  ∀ parent ∈ parents edges nodeId, ∃ state, plan.nodeStates.get? parent = some state
    ∧ state.status.isTerminal = true

theorem parentsDone_of_done {plan : WorkflowStepPlan} {nodeId : Text}
    (hplan : plan = finishPlan spec.nodes children acc)
    (h : ∀ edge ∈ spec.edges, edge.target = nodeId → acc.Done edge.source) :
  plan.ParentsDone spec.edges nodeId
  := by
  intro parent hparent
  obtain ⟨edge, hedge, rfl⟩ := List.mem_map.mp hparent
  obtain ⟨hedge, htarget⟩ := List.mem_filter.mp hedge
  obtain ⟨state, hstate, hterminal⟩ := h edge hedge (eq_of_beq htarget)
  refine ⟨state, ?_, hterminal⟩
  rw [hplan]
  apply get?_nodeStates_of_terminal hstate hterminal

/-- In a plan the parents of every node with a job are done, and a node that is enqueued has
no job and its parents are done. -/
theorem parentsDone_of_plan (hreads : ReadsUpstream rt spec.nodes spec.edges)
    (hinv : RunInvariant spec vars defaultMaxRetries s) {plan : WorkflowStepPlan}
    (hplan : s.plan spec vars defaultMaxRetries now = .ok plan) :
  (∀ row ∈ s.rows, plan.ParentsDone spec.edges row.nodeId)
    ∧ ∀ nodeId ∈ plan.enqueueNodeIds,
      (∀ row ∈ s.rows, row.nodeId ≠ nodeId) ∧ plan.ParentsDone spec.edges nodeId
  := by
  obtain ⟨acc, hpassed, hfinish⟩ := planWorkflowStep_eq_ok hplan
  constructor
  · intro row hrow
    apply parentsDone_of_done hfinish
    apply (hinv.closed hreads hpassed).1 row hrow
  · intro nodeId hqueued
    have hacc : nodeId ∈ acc.enqueue := by
      rw [hfinish] at hqueued
      apply (finishPlan_lists _ _ _).1.subset hqueued
    obtain ⟨hnone, state, hstate, -⟩ := hpassed.passInvariant.enqueue nodeId hacc
    constructor
    · apply hpassed.not_mem_of_enqueue hinv.wellKept hacc
    · apply parentsDone_of_done hfinish
      intro edge hedge htarget
      apply hpassed.passInvariant.parents nodeId state hstate hnone (.inr hacc) edge
      apply List.mem_filter.mpr
      exact ⟨hedge, by simpa using htarget⟩

/-- A node that is done in a plan the executor has carried out is the same in every later
plan. -/
theorem status_of_later_plan (hreads : ReadsUpstream rt spec.nodes spec.edges)
    (hinv : RunInvariant spec vars defaultMaxRetries s) {newJobId : Text → Text} {u : RunState}
    {plan plan' : WorkflowStepPlan} (hplan : s.plan spec vars defaultMaxRetries now = .ok plan)
    (hstep : (runSystem spec vars defaultMaxRetries).step s (.execute now newJobId) t)
    (hlater : (runSystem spec vars defaultMaxRetries).Later t u) (hrunning : u.stopped = false)
    (hplan' : u.plan spec vars defaultMaxRetries now' = .ok plan') {nodeId : Text}
    {state : WorkflowNodeState} (hstate : plan.nodeStates.get? nodeId = some state)
    (hterminal : state.status.isTerminal = true) :
  ∃ state', plan'.nodeStates.get? nodeId = some state' ∧ state'.status = state.status
  := by
  obtain ⟨acc, hpassed, hfinish⟩ := planWorkflowStep_eq_ok hplan
  obtain ⟨acc', hpassed', hfinish'⟩ := planWorkflowStep_eq_ok hplan'
  obtain ⟨_, hclosed⟩ := hinv.closed hreads hpassed
  have hsettled : Settled (workflowChildrenSnapshots s.rows) acc s := fun _ _ => rfl
  obtain ⟨hinv', hsettled'⟩ : RunInvariant spec vars defaultMaxRetries u
      ∧ Settled (workflowChildrenSnapshots s.rows) acc u := by
    apply TransitionSystem.Later.invariant (RunInvariant.step hreads)
      (Settled.step hreads hpassed hclosed) (RunInvariant.step hreads _ _ _ hinv hstep)
      (Settled.step hreads hpassed hclosed _ _ _ hinv hsettled hstep) hlater
  have hgoesOn : plan.runStatus = none := by
    by_contra hstatus
    have hstop : t.stopped = true := by
      obtain ⟨now₁, newJobId₁, plan₁, haction, -, hplan₁, -, -, rfl⟩ | ⟨_, _, haction, -⟩ :=
        runSystem_step hstep
      · obtain ⟨rfl, rfl⟩ := RunAction.execute.inj haction
        rw [hplan] at hplan₁
        obtain rfl := Except.ok.inj hplan₁
        rw [executePlan]
        split
        · apply Option.isSome_iff_ne_none.mpr hstatus
        · rfl
      · cases haction
    have hstopped : u.stopped = true :=
      (TransitionSystem.Later.invariant (fun _ _ _ _ _ => trivial)
        (fun _ _ _ _ h hs => stopped_of_step hs h) trivial hstop hlater).2
    rw [hrunning] at hstopped
    cases hstopped
  have hacc : acc.states.get? nodeId = some state := by
    rw [hfinish] at hstate hgoesOn
    rw [(finishPlan_of_runStatus_none hgoesOn).1] at hstate
    apply hstate
  have hagree := Passed.agree hreads hclosed hsettled' hpassed hpassed'
  refine ⟨state, ?_, rfl⟩
  rw [hfinish']
  apply get?_nodeStates_of_terminal _ hterminal
  rw [← hagree.states nodeId ⟨state, hacc, hterminal⟩]
  apply hacc

end System

/-- Safety of runs: every node has at most one job, and that only after its parents are done;
a node that is done in a plan is the same in every later plan; and no job is tried again more
often than its node allows. -/
theorem runSystem_safe {rt : WhenRuntime} (spec : WorkflowSpec rt) (vars : Variables)
    (defaultMaxRetries : ℕ) (hreads : ReadsUpstream rt spec.nodes spec.edges) (s : RunState)
    (hs : (runSystem spec vars defaultMaxRetries).Reachable s) :
  (s.rows.map JobRow.nodeId).Nodup
    ∧ (∀ now plan, s.plan spec vars defaultMaxRetries now = .ok plan →
      (∀ row ∈ s.rows, plan.ParentsDone spec.edges row.nodeId)
        ∧ ∀ nodeId ∈ plan.enqueueNodeIds,
          (∀ row ∈ s.rows, row.nodeId ≠ nodeId) ∧ plan.ParentsDone spec.edges nodeId)
    ∧ (∀ now newJobId plan t u now' plan', s.plan spec vars defaultMaxRetries now = .ok plan →
      (runSystem spec vars defaultMaxRetries).step s (.execute now newJobId) t →
      (runSystem spec vars defaultMaxRetries).Later t u → u.stopped = false →
      u.plan spec vars defaultMaxRetries now' = .ok plan' →
      ∀ nodeId state, plan.nodeStates.get? nodeId = some state →
        state.status.isTerminal = true →
        ∃ state', plan'.nodeStates.get? nodeId = some state' ∧ state'.status = state.status)
    ∧ ∀ row ∈ s.rows, ∀ node ∈ spec.nodes, node.id = row.nodeId →
      row.retryCount ≤ retryBudget node defaultMaxRetries
  := by
  have hinv := runInvariant_of_reachable hreads hs
  refine ⟨hinv.wellKept.nodes_nodup, ?_, ?_, hinv.wellKept.budget⟩
  · intro now plan hplan
    apply parentsDone_of_plan hreads hinv hplan
  · intro now newJobId plan t u now' plan' hplan hstep hlater hrunning hplan' nodeId state
    apply status_of_later_plan hreads hinv hplan hstep hlater hrunning hplan'

theorem readsUpstream_chainSpec :
  ReadsUpstream bareRuntime chainSpec.nodes chainSpec.edges
  := by
  constructor
  · intro node hnode read hread
    obtain rfl | rfl : node = chainSpec.nodes[0] ∨ node = chainSpec.nodes[1] := by
      simpa [chainSpec] using hnode
    · cases hread
    · cases hread
  · intro node hnode read hread
    obtain rfl | rfl : node = chainSpec.nodes[0] ∨ node = chainSpec.nodes[1] := by
      simpa [chainSpec] using hnode
    · cases hread
    · cases hread
  · intro edge hedge read hread
    obtain rfl : edge = chainSpec.edges[0] := by simpa [chainSpec] using hedge
    cases hread

/-- The job of the query of the chain. -/
def queryJob : JobRow where
  nodeId := "query".toList
  jobId := "aquery".toList
  kind := .sqlQuery
  payload := Dict.ofList
    [("workflow_node_id".toList, .str "query".toList), ("result_set_id".toList, .str "aquery".toList)]

/-- A query that is enqueued, fails and is tried again ten seconds later. -/
theorem reachable_retried :
  (runSystem chainSpec Dict.empty 0).Reachable { rows := [{ queryJob with retryCount := 1 }] }
  := by
  have henqueued : (runSystem chainSpec Dict.empty 0).step {}
      (.execute 0 (fun nodeId => 'a' :: nodeId)) { rows := [queryJob] } := by
    refine ⟨rfl, List.cons_injective, ?_⟩
    intro row hrow
    cases hrow
  have hstarted : (runSystem chainSpec Dict.empty 0).step { rows := [queryJob] }
      (.child "aquery".toList .start) { rows := [{ queryJob with status := .running }] } :=
    ⟨rfl, trivial⟩
  have hfailed : (runSystem chainSpec Dict.empty 0).step
      { rows := [{ queryJob with status := .running }] }
      (.child "aquery".toList (.finish .failed none none none 0))
      { rows := [{ queryJob with status := .failed, finishedAt := some 0 }] } :=
    ⟨rfl, trivial⟩
  have hretried : (runSystem chainSpec Dict.empty 0).step
      { rows := [{ queryJob with status := .failed, finishedAt := some 0 }] }
      (.execute 10000000 (fun nodeId => 'b' :: nodeId))
      { rows := [{ queryJob with retryCount := 1 }] } := by
    refine ⟨rfl, List.cons_injective, ?_⟩
    intro row hrow nodeId heq
    obtain rfl := List.mem_singleton.mp hrow
    cases heq
  apply TransitionSystem.Reachable.step _ hretried
  apply TransitionSystem.Reachable.step _ hfailed
  apply TransitionSystem.Reachable.step _ hstarted
  apply TransitionSystem.Reachable.step _ henqueued
  apply TransitionSystem.Reachable.initial rfl

theorem runSystem_safe_retried :
  (runSystem chainSpec Dict.empty 0).Reachable { rows := [{ queryJob with retryCount := 1 }] }
    ∧ ([{ queryJob with retryCount := 1 }].map JobRow.nodeId).Nodup
    ∧ ∀ row ∈ [{ queryJob with retryCount := 1 }], ∀ node ∈ chainSpec.nodes,
      node.id = row.nodeId → row.retryCount ≤ retryBudget node 0
  := by
  obtain ⟨hnodup, -, -, hbudget⟩ :=
    runSystem_safe chainSpec Dict.empty 0 readsUpstream_chainSpec _ reachable_retried
  exact ⟨reachable_retried, hnodup, hbudget⟩

end Workflow

import DataOpsStudio.Results.Console

/-!
# What holds of the results of a console

The lane accounts for the rows it reads: as long as nobody deletes the spool, what is in the spool
and what has not been flushed are together what the stream has yielded, unless the result was cut
off.  This is a part of an invariant of the console.  The submissions keep it: the spools they
delete are excepted, and the result sets they make are new.
-/

namespace Results

open Text Broker

variable {Row : Type}

/-! ### The invariant -/

namespace ResultsConsole

/-- The spool of a result set has been deleted. -/
def Deleted (x : ResultsConsole Row) (r : Text) : Prop :=
  r ∈ x.history.deletedLive ∨ r ∈ x.history.deletedLater

/-- The statement of a result set. -/
def owner (x : ResultsConsole Row) (r : Text) : Option Text :=
  (x.catalog.get? r).map ResultSetRow.executionId

end ResultsConsole

/-- Unless it is truncated the spool holds the rows. -/
def SpoolDir.Holds (dir : SpoolDir Row) (rows : List Row) : Prop :=
  dir.readManifest.truncated = false → dir.rows = rows

/-- Unless the result is cut off, the rows of the spool and the pending ones are what the stream
has yielded. -/
def Drain.Accounts (drain : Drain Row) (pending : List Row) (dir : SpoolDir Row) : Prop :=
  drain.outputLimitApplied = false → dir.readManifest.truncated = false →
    dir.rows ++ pending = drain.streamed

/-- A statement with a spool owns its result set; nothing has been written to it while the
statement waits, and the rows are there when it has succeeded. -/
structure SpooledStatement.Sound (x : ResultsConsole Row) (s : Text)
    (statement : SpooledStatement Row) : Prop where
  owner : ∀ spool, statement.spool = some spool → x.owner spool.resultSetId = some s
  accepted : ∀ spool, statement.spool = some spool → statement.state = .accepted →
    ¬ x.Deleted spool.resultSetId → x.dir spool.resultSetId = {}
  succeeded : ∀ spool, statement.spool = some spool → statement.state = .succeeded →
    ¬ x.Deleted spool.resultSetId → (x.dir spool.resultSetId).Holds statement.streamed

/-- A statement that is being submitted. -/
def ResultsConsole.Awaits (x : ResultsConsole Row) (s : Text) : Prop :=
  ∃ statement, x.statements.get? s = some statement ∧ statement.state = .accepted
    ∧ statement.spool = none

/-- The result set of a statement that is being submitted is new. -/
def ResultsConsole.New (x : ResultsConsole Row) (s r : Text) : Prop :=
  x.owner r = some s ∧ (¬ x.Deleted r → x.dir r = {})

def SubmitPoint.Sound (x : ResultsConsole Row) : SubmitPoint → Prop
  | .begun s _ _ => x.Awaits s
  | .inserted s spool => x.Awaits s ∧ x.New s spool.resultSetId
  | .evicted s spool stale => x.Awaits s ∧ x.New s spool.resultSetId
      ∧ ∀ r ∈ stale, x.owner r ≠ none

/-- The statement that the lane executes, with its spool. -/
def LanePoint.job : LanePoint Row → Option (Text × StatementSpool)
  | .waiting => none
  | .dequeued _ => none
  | .starting _ => none
  | .executing s spool => some (s, spool)
  | .draining drain => some (drain.statementId, drain.spool)
  | .appending drain _ => some (drain.statementId, drain.spool)
  | .publishing drain _ => some (drain.statementId, drain.spool)
  | .marking drain _ => some (drain.statementId, drain.spool)
  | .finalizing drain _ => some (drain.statementId, drain.spool)
  | .ending drain _ => some (drain.statementId, drain.spool)

/-- What the lane knows of the spool it writes to, as long as nothing has been raised. -/
def LanePoint.Tells (dir : SpoolDir Row) : LanePoint Row → Prop
  | .executing _ _ => dir.rows = []
  | .draining drain => drain.Accounts drain.batch dir
  | .appending drain final => final ≠ some false → drain.Accounts drain.batch dir
  | .publishing drain final => final ≠ some false → drain.Accounts [] dir
  | .marking drain good => good = true → drain.Accounts [] dir
  | .finalizing drain good => good = true → dir.Holds drain.streamed
  | .ending drain good => good = true → dir.Holds drain.streamed
  | _ => True

/-- A statement that is being executed, or was when its session was lost. -/
def ResultsConsole.Current (x : ResultsConsole Row) (s : Text) (spool : StatementSpool) : Prop :=
  ∃ statement, x.statements.get? s = some statement ∧ statement.spool = some spool
    ∧ statement.state ≠ .accepted ∧ statement.state ≠ .succeeded

def LanePoint.Sound (x : ResultsConsole Row) (lane : LanePoint Row) : Prop :=
  ∀ s spool, lane.job = some (s, spool) → x.Current s spool
    ∧ (¬ x.Deleted spool.resultSetId → lane.Tells (x.dir spool.resultSetId))

/-- What holds of a console at any time. -/
structure ResultsConsole.Sound (x : ResultsConsole Row) : Prop where
  owned : ∀ r s, x.owner r = some s → x.statements.contains s = true
  absent : ∀ r, x.owner r = none → x.dir r = {} ∧ ¬ x.Deleted r
  spool : ∀ r, ¬ x.Deleted r → (x.dir r).Sound
  statement : ∀ s statement, x.statements.get? s = some statement → statement.Sound x s
  submitting : ∀ point, x.submitting = some point → point.Sound x
  lane : x.lane.Sound x

/-! ### Steps that keep the results -/

/-- Result sets keep their statements and their spools. -/
structure SameResults (x x' : ResultsConsole Row) : Prop where
  owner : ∀ r s, x.owner r = some s → x'.owner r = some s
  dir : ∀ r, x'.dir r = x.dir r
  deleted : ∀ r, x'.Deleted r ↔ x.Deleted r

section Same

variable {x x' : ResultsConsole Row}

theorem SameResults.of_owner (howner : ∀ r, x'.owner r = x.owner r)
    (hspools : x'.spools = x.spools) (hhistory : ∀ r, x'.Deleted r ↔ x.Deleted r) :
  SameResults x x'
  := by
  refine ⟨?_, ?_, hhistory⟩
  · intro r s hr
    rw [howner]
    apply hr
  · intro r
    rw [ResultsConsole.dir, ResultsConsole.dir, hspools]

theorem SameResults.statement (h : SameResults x x') {s : Text} {statement : SpooledStatement Row}
    (hs : statement.Sound x s) :
  statement.Sound x' s
  := by
  constructor
  · intro spool hspool
    apply h.owner _ s (hs.owner spool hspool)
  · intro spool hspool hstate hdeleted
    rw [h.deleted] at hdeleted
    rw [h.dir]
    apply hs.accepted spool hspool hstate hdeleted
  · intro spool hspool hstate hdeleted
    rw [h.deleted] at hdeleted
    rw [h.dir]
    apply hs.succeeded spool hspool hstate hdeleted

theorem SameResults.new (h : SameResults x x') {s r : Text} (hnew : x.New s r) :
  x'.New s r
  := by
  rw [ResultsConsole.New, h.deleted, h.dir]
  exact ⟨h.owner r s hnew.1, hnew.2⟩

theorem SameResults.point (h : SameResults x x') (hstatements : x'.statements = x.statements)
    {point : SubmitPoint} (hpoint : point.Sound x) :
  point.Sound x'
  := by
  have hawaits : ∀ s, x.Awaits s → x'.Awaits s := by
    intro s hs
    rw [ResultsConsole.Awaits, hstatements]
    apply hs
  cases point with
  | begun s pageSize maxResultRows => apply hawaits s hpoint
  | inserted s spool => exact ⟨hawaits s hpoint.1, h.new hpoint.2⟩
  | evicted s spool stale =>
      refine ⟨hawaits s hpoint.1, h.new hpoint.2.1, ?_⟩
      intro r hr
      obtain ⟨s', hs'⟩ := Option.ne_none_iff_exists'.mp (hpoint.2.2 r hr)
      rw [h.owner r s' hs']
      apply Option.some_ne_none

/-- The lane may go on to a point at which it knows what is so. -/
theorem SameResults.lane (h : SameResults x x') {lane lane' : LanePoint Row}
    (hlane : lane.Sound x) (hjob : lane'.job = lane.job)
    (htells : ∀ dir : SpoolDir Row, lane.Tells dir → lane'.Tells dir)
    (hcurrent : ∀ s spool, lane.job = some (s, spool) → x.Current s spool → x'.Current s spool) :
  lane'.Sound x'
  := by
  intro s spool hs
  rw [hjob] at hs
  obtain ⟨hrunning, htold⟩ := hlane s spool hs
  refine ⟨hcurrent s spool hs hrunning, ?_⟩
  rw [h.dir, h.deleted]
  intro hdeleted
  apply htells _ (htold hdeleted)

/-- A console stays sound when its results stay as they are. -/
theorem SameResults.sound (h : SameResults x x') (hx : x.Sound)
    (howned : ∀ r s, x'.owner r = some s → x'.statements.contains s = true)
    (hstatement : ∀ s statement, x'.statements.get? s = some statement →
      x.statements.get? s = some statement ∨ statement.Sound x' s)
    (hsubmitting : ∀ point, x'.submitting = some point → point.Sound x')
    (hlane : x'.lane.Sound x') :
  x'.Sound
  := by
  constructor
  · apply howned
  · intro r hr
    rw [h.dir, h.deleted]
    apply hx.absent r
    by_contra hsome
    obtain ⟨s, hs⟩ := Option.ne_none_iff_exists'.mp hsome
    cases (h.owner r s hs).symm.trans hr
  · intro r hdeleted
    rw [h.deleted] at hdeleted
    rw [h.dir]
    apply hx.spool r hdeleted
  · intro s statement hs
    obtain hs | hs := hstatement s statement hs
    · apply h.statement (hx.statement s statement hs)
    · apply hs
  · apply hsubmitting
  · apply hlane

/-- A step of the lane that leaves the statements and the results alone. -/
theorem SameResults.sound_of_lane (h : SameResults x x') (hx : x.Sound)
    (howner : ∀ r, x'.owner r = x.owner r) (hstatements : x'.statements = x.statements)
    (hsubmitting : x'.submitting = x.submitting) (hlane : x'.lane.Sound x') :
  x'.Sound
  := by
  apply h.sound hx
  · intro r s hr
    rw [howner] at hr
    rw [hstatements]
    apply hx.owned r s hr
  · intro s statement hs
    rw [hstatements] at hs
    exact .inl hs
  · intro point hpoint
    rw [hsubmitting] at hpoint
    apply h.point hstatements (hx.submitting point hpoint)
  · apply hlane

end Same

/-! ### Steps that write a spool -/

section Spools

variable {x x' : ResultsConsole Row} {s r : Text} {dir : SpoolDir Row}

theorem dir_setDir_self :
  (x.setDir r dir).dir r = dir
  := by
  rw [ResultsConsole.dir, ResultsConsole.setDir, Dict.get?_set_self]
  rfl

theorem dir_setDir_of_ne {r' : Text} (h : r' ≠ r) :
  (x.setDir r dir).dir r' = x.dir r'
  := by
  rw [ResultsConsole.dir, ResultsConsole.setDir, Dict.get?_set_of_ne _ _ h.symm]
  rfl

/-- What the lane writes to the spool of its statement concerns no other. -/
theorem ResultsConsole.Sound.setDir (hx : x.Sound) {spool : StatementSpool}
    (hjob : x.lane.job = some (s, spool)) {lane : LanePoint Row} (hlane : lane.job = x.lane.job)
    (hdir : ¬ x.Deleted spool.resultSetId → dir.Sound ∧ lane.Tells dir) :
  ({ x.setDir spool.resultSetId dir with lane := lane }).Sound
  := by
  obtain ⟨⟨statement, hs, hspool, haccepted, hsucceeded⟩, -⟩ := hx.lane s spool hjob
  have howner := (hx.statement s statement hs).owner spool hspool
  have hself : ({ x.setDir spool.resultSetId dir with lane := lane }).dir spool.resultSetId = dir :=
    dir_setDir_self
  have hother : ∀ r', r' ≠ spool.resultSetId →
      ({ x.setDir spool.resultSetId dir with lane := lane }).dir r' = x.dir r' :=
    fun r' hr' => dir_setDir_of_ne hr'
  have hne : ∀ s' r', x.owner r' = some s' → s' ≠ s → r' ≠ spool.resultSetId := by
    rintro s' r' hr' hs' rfl
    apply hs'
    apply Option.some.inj (hr'.symm.trans howner)
  have hawaits : ∀ s', x.Awaits s' → s' ≠ s := by
    rintro s' ⟨statement', hs', -, hnone⟩ rfl
    obtain rfl := Option.some.inj (hs.symm.trans hs')
    cases hspool.symm.trans hnone
  have hnew : ∀ s' r', x.Awaits s' → x.New s' r' →
      ({ x.setDir spool.resultSetId dir with lane := lane }).New s' r' := by
    rintro s' r' hs' ⟨hr', hempty⟩
    refine ⟨hr', fun hdeleted => ?_⟩
    rw [hother r' (hne s' r' hr' (hawaits s' hs'))]
    apply hempty hdeleted
  constructor
  · apply hx.owned
  · intro r' hr'
    refine ⟨?_, (hx.absent r' hr').2⟩
    rw [hother]
    · apply (hx.absent r' hr').1
    · rintro rfl
      cases howner.symm.trans hr'
  · intro r' hdeleted
    by_cases hr' : r' = spool.resultSetId
    · subst hr'
      rw [hself]
      apply (hdir hdeleted).1
    · rw [hother r' hr']
      apply hx.spool r' hdeleted
  · intro s' statement' hs'
    have hsound := hx.statement s' statement' hs'
    by_cases hsame : s' = s
    · subst hsame
      obtain rfl := Option.some.inj (hs.symm.trans hs')
      exact ⟨hsound.owner, fun _ _ h => (haccepted h).elim, fun _ _ h => (hsucceeded h).elim⟩
    · constructor
      · apply hsound.owner
      · intro spool' hspool'
        rw [hother _ (hne s' _ (hsound.owner spool' hspool') hsame)]
        apply hsound.accepted spool' hspool'
      · intro spool' hspool'
        rw [hother _ (hne s' _ (hsound.owner spool' hspool') hsame)]
        apply hsound.succeeded spool' hspool'
  · intro point hpoint
    have hsound := hx.submitting point hpoint
    cases point with
    | begun s' pageSize maxResultRows => apply hsound
    | inserted s' spool' => exact ⟨hsound.1, hnew _ _ hsound.1 hsound.2⟩
    | evicted s' spool' stale => exact ⟨hsound.1, hnew _ _ hsound.1 hsound.2.1, hsound.2.2⟩
  · intro s' spool' hs'
    obtain ⟨rfl, rfl⟩ := Prod.mk.inj (Option.some.inj ((hlane.trans hjob).symm.trans hs'))
    refine ⟨⟨statement, hs, hspool, haccepted, hsucceeded⟩, fun hdeleted => ?_⟩
    rw [hself]
    apply (hdir hdeleted).2

/-- What happens when the spool of `r` is deleted. -/
structure DeletesSpool (x : ResultsConsole Row) (r : Text) (x' : ResultsConsole Row) : Prop where
  statements : x'.statements = x.statements
  lane : x'.lane = x.lane
  catalog : x'.catalog = x.catalog
  deleted : ∀ r', x'.Deleted r' ↔ x.Deleted r' ∨ r' = r
  dir : ∀ r', r' ≠ r → x'.dir r' = x.dir r'
  submitting : ∃ s spool stale, x.submitting = some (.evicted s spool (r :: stale))
    ∧ x'.submitting = some (.evicted s spool stale)

theorem deleteSpool_spec {left : Option (SpoolDir Row)} (h : deleteSpool x left = some x') :
  ∃ r, DeletesSpool x r x'
  := by
  unfold deleteSpool at h
  split at h
  case h_2 =>
    cases h
  rename_i s spool r stale hpoint
  obtain rfl := Option.some.inj h
  refine ⟨r, rfl, rfl, rfl, ?_, fun r' hr' => dir_setDir_of_ne hr', s, spool, stale, hpoint, rfl⟩
  intro r'
  rw [ResultsConsole.Deleted, ResultsConsole.Deleted]
  dsimp only
  split
  · rw [List.mem_append, List.mem_singleton, or_right_comm]
  · rw [List.mem_append, List.mem_singleton, or_assoc]

/-- A spool that is deleted concerns nobody any more. -/
theorem DeletesSpool.sound (h : DeletesSpool x r x') (hx : x.Sound) :
  x'.Sound
  := by
  obtain ⟨hstatements, hlane, hcatalog, hdeleted, hother, s, spool, stale, hpoint, hpoint'⟩ := h
  obtain ⟨hawaits, hnew, hstale⟩ : x.Awaits s ∧ x.New s spool.resultSetId
      ∧ ∀ r' ∈ r :: stale, x.owner r' ≠ none := hx.submitting _ hpoint
  have hbefore : ∀ r', ¬ x'.Deleted r' → ¬ x.Deleted r' ∧ x'.dir r' = x.dir r' := by
    intro r' hr'
    rw [hdeleted, not_or] at hr'
    exact ⟨hr'.1, hother r' hr'.2⟩
  have howner : ∀ r', x'.owner r' = x.owner r' := by
    intro r'
    rw [ResultsConsole.owner, ResultsConsole.owner, hcatalog]
  constructor
  · intro r' s' hr'
    rw [howner] at hr'
    rw [hstatements]
    apply hx.owned r' s' hr'
  · intro r' hr'
    rw [howner] at hr'
    obtain ⟨hempty, hnot⟩ := hx.absent r' hr'
    have hnot' : ¬ x'.Deleted r' := by
      rw [hdeleted]
      rintro (hr | rfl)
      · apply hnot hr
      · apply hstale r' List.mem_cons_self hr'
    rw [(hbefore r' hnot').2]
    exact ⟨hempty, hnot'⟩
  · intro r' hr'
    obtain ⟨hnot, hdir⟩ := hbefore r' hr'
    rw [hdir]
    apply hx.spool r' hnot
  · intro s' statement hs'
    rw [hstatements] at hs'
    obtain ⟨hown, haccepted, hsucceeded⟩ := hx.statement s' statement hs'
    constructor
    · intro spool' hspool'
      rw [howner]
      apply hown spool' hspool'
    · intro spool' hspool' hstate hr'
      obtain ⟨hnot, hdir⟩ := hbefore _ hr'
      rw [hdir]
      apply haccepted spool' hspool' hstate hnot
    · intro spool' hspool' hstate hr'
      obtain ⟨hnot, hdir⟩ := hbefore _ hr'
      rw [hdir]
      apply hsucceeded spool' hspool' hstate hnot
  · intro point hsome
    obtain rfl := Option.some.inj (hpoint'.symm.trans hsome)
    refine ⟨?_, ⟨(howner _).trans hnew.1, ?_⟩, ?_⟩
    · rw [ResultsConsole.Awaits, hstatements]
      apply hawaits
    · intro hr'
      obtain ⟨hnot, hdir⟩ := hbefore _ hr'
      rw [hdir]
      apply hnew.2 hnot
    · intro r' hr'
      rw [howner]
      apply hstale r' (List.mem_cons_of_mem r hr')
  · rw [hlane]
    intro s' spool' hjob
    obtain ⟨hcurrent, htells⟩ := hx.lane s' spool' hjob
    refine ⟨?_, fun hr' => ?_⟩
    · rw [ResultsConsole.Current, hstatements]
      apply hcurrent
    · obtain ⟨hnot, hdir⟩ := hbefore _ hr'
      rw [hdir]
      apply htells hnot

end Spools

/-! ### Steps of a submission -/

section Submission

variable {x x' : ResultsConsole Row} {s : Text} {statement : SpooledStatement Row}

theorem contains_set {s' : Text} (h : x.statements.contains s' = true) :
  (x.statements.set s statement).contains s' = true
  := by
  rw [Dict.contains, Dict.get?_set]
  split
  · rfl
  · apply h

/-- A statement that is set is sound if the new one is. -/
theorem get?_set_cases {s' : Text} {statement' : SpooledStatement Row}
    (h : (x.statements.set s statement).get? s' = some statement') :
  s' = s ∧ statement' = statement ∨ s' ≠ s ∧ x.statements.get? s' = some statement'
  := by
  by_cases hs : s' = s
  · subst hs
    rw [Dict.get?_set_self] at h
    exact .inl ⟨rfl, (Option.some.inj h).symm⟩
  · rw [Dict.get?_set_of_ne _ _ (Ne.symm hs)] at h
    exact .inr ⟨hs, h⟩

/-- Another statement goes on as it did. -/
theorem current_set_of_ne {s' : Text} {spool : StatementSpool} (h : x.Current s' spool)
    (hne : s' ≠ s) (hstatements : x'.statements = x.statements.set s statement) :
  x'.Current s' spool
  := by
  obtain ⟨statement', hs', hrest⟩ := h
  refine ⟨statement', ?_, hrest⟩
  rw [hstatements, Dict.get?_set_of_ne _ _ hne.symm]
  apply hs'

/-- A statement may be set that is sound, if the lane does not execute it. -/
theorem SameResults.sound_set (h : SameResults x x') (hx : x.Sound)
    (howner : ∀ r, x'.owner r = x.owner r)
    (hstatements : x'.statements = x.statements.set s statement) (hsound : statement.Sound x s)
    (hsubmitting : ∀ point, x'.submitting = some point → point.Sound x')
    (hlane : x'.lane.Sound x') :
  x'.Sound
  := by
  apply h.sound hx
  · intro r s' hr
    rw [howner] at hr
    rw [hstatements]
    apply contains_set (hx.owned r s' hr)
  · intro s' statement' hs'
    rw [hstatements] at hs'
    obtain ⟨rfl, rfl⟩ | ⟨-, hs'⟩ := get?_set_cases hs'
    · exact .inr (h.statement hsound)
    · exact .inl hs'
  · apply hsubmitting
  · apply hlane

/-- The lane does not execute a statement that is being submitted, or is not there. -/
theorem LanePoint.Sound.of_awaits (hlane : x.lane.Sound x) (hresults : SameResults x x')
    (hs : ∀ spool, ¬ x.Current s spool)
    (hstatements : x'.statements = x.statements.set s statement) (hsame : x'.lane = x.lane) :
  x'.lane.Sound x'
  := by
  rw [hsame]
  apply hresults.lane hlane rfl
  · intro dir htells
    apply htells
  · intro s' spool hjob hcurrent
    apply current_set_of_ne hcurrent ?_ hstatements
    rintro rfl
    apply hs spool hcurrent

theorem ResultsConsole.Awaits.not_current (h : x.Awaits s) (spool : StatementSpool) :
  ¬ x.Current s spool
  := by
  rintro ⟨statement, hs, hspool, -, -⟩
  obtain ⟨statement', hs', -, hnone⟩ := h
  obtain rfl := Option.some.inj (hs.symm.trans hs')
  cases hspool.symm.trans hnone

theorem submit_sound {config : ResultsConfig Row} {pageSize maxResultRows : ℕ} (hx : x.Sound)
    (hfresh : x.statements.get? s = none)
    (h : submit config x s pageSize maxResultRows = some x') :
  x'.Sound
  := by
  rw [submit] at h
  split at h
  case isFalse =>
    cases h
  obtain rfl := Option.some.inj h
  have hsame : SameResults x { x.setStatement s {} with
      submitting := some (.begun s pageSize maxResultRows) } := ⟨fun _ _ h => h, fun _ => rfl, fun _ => Iff.rfl⟩
  apply hsame.sound_set hx (fun _ => rfl) rfl
  · exact ⟨nofun, nofun, nofun⟩
  · intro point hpoint
    obtain rfl := Option.some.inj hpoint
    exact ⟨{}, Dict.get?_set_self _ _ _, rfl, rfl⟩
  · refine hx.lane.of_awaits hsame ?_ rfl rfl
    rintro spool ⟨statement, hs, -⟩
    cases hfresh.symm.trans hs

theorem register_sound {r : Text} {now : ℤ} (hx : x.Sound) (hfresh : x.catalog.get? r = none)
    (h : register x r now = some x') :
  x'.Sound
  := by
  unfold register at h
  split at h
  case h_2 =>
    cases h
  rename_i s pageSize maxResultRows hpoint
  obtain rfl := Option.some.inj h
  have hawaits : x.Awaits s := hx.submitting _ hpoint
  obtain ⟨statement, hs, -⟩ := id hawaits
  have hnone : x.owner r = none := by
    rw [ResultsConsole.owner, hfresh]
    rfl
  generalize hx' : ({ x with
    catalog := x.catalog.set r { executionId := s, createdAt := now, updatedAt := now }
    submitting := some (.inserted s
      { resultSetId := r, pageSize := pageSize, maxResultRows := maxResultRows }) }) = x'
  have hself : x'.owner r = some s := by
    rw [← hx', ResultsConsole.owner, Dict.get?_set_self]
    rfl
  have hother : ∀ r', r' ≠ r → x'.owner r' = x.owner r' := by
    intro r' hr'
    rw [← hx', ResultsConsole.owner, Dict.get?_set_of_ne _ _ hr'.symm]
    rfl
  have hsame : SameResults x x' := by
    subst hx'
    refine ⟨?_, fun _ => rfl, fun _ => Iff.rfl⟩
    intro r' s' hr'
    rw [hother]
    · apply hr'
    · rintro rfl
      cases hnone.symm.trans hr'
  apply hsame.sound hx
  · intro r' s' hr'
    rw [← hx']
    by_cases hr : r' = r
    · subst hr
      obtain rfl := Option.some.inj (hself.symm.trans hr')
      rw [Dict.contains, hs]
      rfl
    · rw [hother r' hr] at hr'
      apply hx.owned r' s' hr'
  · subst hx'
    intro s' statement' hs'
    exact .inl hs'
  · intro point hsome
    have hawaits' : x'.Awaits s := by
      subst hx'
      apply hawaits
    rw [← hx'] at hsome
    obtain rfl := Option.some.inj hsome
    refine ⟨hawaits', hself, fun _ => ?_⟩
    rw [hsame.dir]
    apply (hx.absent r hnone).1
  · subst hx'
    exact hsame.lane hx.lane rfl (fun _ h => h) (fun _ _ _ h => h)

/-- To close a result set leaves it to its statement. -/
theorem closeResultSet_owner (now : ℤ) (stale : List Text) (catalog : Dict Text ResultSetRow)
    (r : Text) :
  ((stale.foldl (closeResultSet now) catalog).get? r).map ResultSetRow.executionId
    = (catalog.get? r).map ResultSetRow.executionId
  := by
  induction stale generalizing catalog with
  | nil => rfl
  | cons r' stale ih =>
      rw [List.foldl_cons, ih, closeResultSet]
      split
      · rfl
      · rename_i row hrow
        by_cases hr : r = r'
        · subst hr
          rw [Dict.get?_set_self, hrow]
          rfl
        · rw [Dict.get?_set_of_ne _ _ (Ne.symm hr)]

theorem mem_openResultSets {r : Text} :
  r ∈ x.openResultSets ↔ ∃ row, x.catalog.get? r = some row ∧ row.state ≠ .closed
  := by
  rw [ResultsConsole.openResultSets, List.mem_map]
  constructor
  · rintro ⟨⟨r', row⟩, hmem, rfl⟩
    obtain ⟨hmem, hopen⟩ := List.mem_filter.mp hmem
    exact ⟨row, Dict.get?_eq_some_iff.mpr hmem, of_decide_eq_true hopen⟩
  · rintro ⟨row, hrow, hopen⟩
    refine ⟨(r, row), List.mem_filter.mpr ⟨Dict.get?_eq_some_iff.mp hrow, ?_⟩, rfl⟩
    apply decide_eq_true hopen

/-- What happens when result sets are closed. -/
theorem evict_spec {config : ResultsConfig Row} {listing : List Text} {now : ℤ}
    (h : evictConsoleResultsets config x listing now = some x') :
  SameResults x x' ∧ (∀ r, x'.owner r = x.owner r) ∧ x'.statements = x.statements
    ∧ x'.lane = x.lane ∧ x.IsListing listing
    ∧ ∃ s spool, x.submitting = some (.inserted s spool)
      ∧ x'.submitting = some (.evicted s spool (staleConsoleResultsets config listing))
  := by
  unfold evictConsoleResultsets at h
  split at h
  case h_2 =>
    cases h
  rename_i s spool hpoint
  split at h
  case isFalse =>
    cases h
  rename_i hlisting
  obtain rfl := Option.some.inj h
  have howner := closeResultSet_owner now (staleConsoleResultsets config listing) x.catalog
  exact ⟨.of_owner howner rfl fun _ => Iff.rfl, howner, rfl, rfl, hlisting, s, spool, hpoint, rfl⟩

theorem evict_sound {config : ResultsConfig Row} {listing : List Text} {now : ℤ} (hx : x.Sound)
    (h : evictConsoleResultsets config x listing now = some x') :
  x'.Sound
  := by
  obtain ⟨hsame, howner, hstatements, hlane, hlisting, s, spool, hpoint, hpoint'⟩ := evict_spec h
  obtain ⟨hawaits, hnew⟩ : x.Awaits s ∧ x.New s spool.resultSetId := hx.submitting _ hpoint
  apply hsame.sound hx
  · intro r s' hr
    rw [howner] at hr
    rw [hstatements]
    apply hx.owned r s' hr
  · intro s' statement hs'
    rw [hstatements] at hs'
    exact .inl hs'
  · intro point hsome
    obtain rfl := Option.some.inj (hpoint'.symm.trans hsome)
    refine ⟨?_, hsame.new hnew, ?_⟩
    · rw [ResultsConsole.Awaits, hstatements]
      apply hawaits
    · intro r hr
      have hopen : r ∈ x.openResultSets := hlisting.1.subset (List.mem_of_mem_drop hr)
      obtain ⟨row, hrow, -⟩ := mem_openResultSets.mp hopen
      rw [howner, ResultsConsole.owner, hrow]
      apply Option.some_ne_none
  · rw [hlane]
    apply hsame.lane hx.lane rfl (fun _ h => h)
    intro s' spool' _ hcurrent
    rw [ResultsConsole.Current, hstatements]
    apply hcurrent

theorem accept_sound (hx : x.Sound) (h : accept x = some x') :
  x'.Sound
  := by
  unfold accept at h
  split at h
  case h_2 =>
    cases h
  rename_i s spool hpoint
  obtain ⟨statement, hs, rfl⟩ := Option.map_eq_some_iff.mp h
  obtain ⟨hawaits, ⟨howner, hempty⟩, -⟩ : x.Awaits s ∧ x.New s spool.resultSetId ∧ _ :=
    hx.submitting _ hpoint
  obtain ⟨statement', hs', hstate, -⟩ := id hawaits
  obtain rfl := Option.some.inj (hs.symm.trans hs')
  have hsame : SameResults x { x.setStatement s { statement with spool := some spool } with
      mailbox := x.mailbox ++ [s], pendingCount := x.pendingCount + 1, submitting := none } :=
    ⟨fun _ _ h => h, fun _ => rfl, fun _ => Iff.rfl⟩
  refine hsame.sound_set hx (fun _ => rfl) rfl ⟨?_, ?_, ?_⟩ nofun ?_
  · intro spool' hspool
    obtain rfl := Option.some.inj hspool
    apply howner
  · intro spool' hspool _
    obtain rfl := Option.some.inj hspool
    apply hempty
  · intro spool' hspool hsucceeded
    cases hstate.symm.trans hsucceeded
  · apply hx.lane.of_awaits hsame hawaits.not_current rfl rfl

theorem refuse_sound (hx : x.Sound) (h : refuse x = some x') :
  x'.Sound
  := by
  have hfail : ∀ s, x.Awaits s → (x.statements.get? s).map (fun statement =>
      { x.setStatement s { statement with state := .failed } with submitting := none })
        = some x' → x'.Sound := by
    intro s hawaits h
    obtain ⟨statement, hs, rfl⟩ := Option.map_eq_some_iff.mp h
    obtain ⟨statement', hs', -, hnone⟩ := id hawaits
    obtain rfl := Option.some.inj (hs.symm.trans hs')
    have hsame : SameResults x { x.setStatement s { statement with state := .failed } with
        submitting := none } := ⟨fun _ _ h => h, fun _ => rfl, fun _ => Iff.rfl⟩
    refine hsame.sound_set hx (fun _ => rfl) rfl ⟨?_, ?_, ?_⟩ nofun ?_
    · intro spool hspool
      cases hnone.symm.trans hspool
    · intro spool hspool
      cases hnone.symm.trans hspool
    · intro spool hspool
      cases hnone.symm.trans hspool
    · apply hx.lane.of_awaits hsame hawaits.not_current rfl rfl
  unfold refuse at h
  dsimp only at h
  split at h
  · rename_i s _ _ hpoint
    apply hfail s (hx.submitting _ hpoint) h
  · rename_i s spool hpoint
    apply hfail s (hx.submitting _ hpoint).1 h
  · cases h

end Submission

end Results

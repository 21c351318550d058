import DataOpsStudio.Results.Inputs
import DataOpsStudio.Results.Snapshots
import Mathlib.Data.Option.Basic

/-!
# Inputs are kept while they are needed

An input that has been opened is kept until its time has come, and then for as long as a comparison
refers to it that was handed in before.  The collection of garbage does not remove the directory of
an input that is in the catalog, provided that a row is inserted soon after its snapshot and
directories are removed soon after the inputs have been listed: both delays together are not longer
than the time for which a directory is kept.
-/

namespace Results

open Text Broker Workflow

variable {Id Row : Type} [DecidableEq Id] {limits : SpoolLimits Row}

/-! ### Spools next to the one that is written to -/

namespace CopyStore

variable {copies copies' : CopyStore Id Row} {op : StoreOp Id Row} {id : Id}

theorem modify_eq_ok {operation : SpoolDir Row → Except ResultStoreError (SpoolDir Row)}
    (h : copies.modify id operation = .ok copies') :
  ∃ dir, operation (copies.dir id) = .ok dir ∧ copies' = copies.setDir id dir
  := by
  rw [modify] at h
  split at h
  case h_1 => cases h
  case h_2 dir hdir => exact ⟨dir, hdir, (Except.ok.inj h).symm⟩

/-- A spool that is not written to stays as it is read. -/
theorem dir_step (h : copies.step limits op = .ok copies') (hid : op.written ≠ some id) :
  copies'.dir id = copies.dir id
  := by
  have hset : ∀ {id' : Id} {dir : SpoolDir Row}, id' ≠ id →
      (copies.setDir id' dir).dir id = copies.dir id := by
    intro id' dir hne
    rw [dir_setDir, if_neg hne.symm]
  have hmodify : ∀ {id' : Id} {operation : SpoolDir Row → Except ResultStoreError (SpoolDir Row)},
      some id' ≠ some id → copies.modify id' operation = .ok copies' →
        copies'.dir id = copies.dir id := by
    intro id' operation hne hmodified
    obtain ⟨dir, -, rfl⟩ := modify_eq_ok hmodified
    exact hset fun heq => hne (congrArg some heq)
  cases op with
  | read id' =>
      obtain rfl := Except.ok.inj h
      exact dir_touch
  | append id' rows =>
      rw [step] at h
      split at h
      case isTrue =>
        obtain rfl := Except.ok.inj h
        rfl
      case isFalse => exact hmodify hid h
  | appendInterrupted id' rows stop =>
      rw [step] at h
      split at h
      case isTrue =>
        obtain rfl := Except.ok.inj h
        rfl
      split at h
      case isTrue => cases h
      case isFalse =>
        obtain rfl := Except.ok.inj h
        exact dir_touch
  | markTruncated id' => exact hmodify hid h
  | setPagination id' hasMore => exact hmodify hid h
  | setColumns id' columns => exact hmodify hid h
  | snapshot source target linkable =>
      have htarget := snapshot_spec h
      rw [step, snapshotSpool] at h
      split at h
      case isTrue => cases h
      split at h
      case h_1 => cases h
      split at h
      case isTrue => cases h
      obtain rfl := Except.ok.inj h
      exact hset fun heq => hid (congrArg some heq)
  | delete id' =>
      obtain rfl := Except.ok.inj h
      rw [CopyStore.dir, CopyStore.dir]
      dsimp only
      rw [Function.update_of_ne]
      rintro rfl
      exact hid rfl

/-- Every operation keeps the spools well-formed. -/
theorem sound_step (hsound : ∀ id, (copies.dir id).Sound) (h : copies.step limits op = .ok copies')
    (id : Id) :
  (copies'.dir id).Sound
  := by
  by_cases hid : op.written = some id
  case neg =>
    rw [dir_step h hid]
    exact hsound id
  have hmodify : ∀ {operation : SpoolDir Row → Except ResultStoreError (SpoolDir Row)},
      (∀ dir', operation (copies.dir id) = .ok dir' → dir'.Sound) →
      copies.modify id operation = .ok copies' → (copies'.dir id).Sound := by
    intro operation hkeeps hmodified
    obtain ⟨dir, hdir, rfl⟩ := modify_eq_ok hmodified
    rw [dir_setDir, if_pos rfl]
    exact hkeeps dir hdir
  cases op with
  | read id' => cases hid
  | append id' rows =>
      obtain rfl := Option.some.inj hid
      rw [step] at h
      split at h
      case isTrue =>
        obtain rfl := Except.ok.inj h
        exact hsound id'
      case isFalse =>
        exact hmodify (fun dir hdir => (appendSpool_spec limits (hsound id') hdir).sound) h
  | appendInterrupted id' rows stop =>
      rw [step] at h
      split at h
      case isTrue =>
        obtain rfl := Except.ok.inj h
        exact hsound id
      split at h
      case isTrue => cases h
      case isFalse =>
        obtain rfl := Except.ok.inj h
        rw [dir_touch]
        exact hsound id
  | markTruncated id' =>
      obtain rfl := Option.some.inj hid
      exact hmodify (fun dir hdir => (markSpoolTruncated_spec (hsound id') hdir).1) h
  | setPagination id' hasMore =>
      obtain rfl := Option.some.inj hid
      exact hmodify (fun dir hdir => (setSpoolPagination_spec (hsound id') hdir).1) h
  | setColumns id' columns =>
      obtain rfl := Option.some.inj hid
      exact hmodify (fun dir hdir => (setSpoolColumns_spec (hsound id') hdir).1) h
  | snapshot source target linkable =>
      obtain rfl := Option.some.inj hid
      rw [CopyStore.dir, snapshot_spec h, Option.getD_some]
      exact (hsound source).snapshot
  | delete id' =>
      obtain rfl := Option.some.inj hid
      obtain rfl := Except.ok.inj h
      rw [CopyStore.dir]
      dsimp only
      rw [Function.update_self]
      exact SpoolDir.sound_empty

end CopyStore

/-! ### The invariant -/

/-- A row is inserted soon after its snapshot has been taken, and directories are removed soon
after the inputs have been listed. -/
def InputState.Timely (captureWindow gcWindow : ℤ) (s : InputState Id Row) :
    InputAction Id Row → Prop
  | .insertInput i => ∀ capture, s.captures[i]? = some capture →
      s.now ≤ capture.takenAt + captureWindow
  | .beginScan i => ∀ round, s.rounds[i]? = some round → s.now ≤ round.listedAt + gcWindow
  | _ => True

/-- A capture that goes on: the row is not in the catalog yet, and the snapshot is there unless it
is too late to insert the row. -/
structure InputState.Pending (captureWindow : ℤ) (s : InputState Id Row) (capture : Capture Id) :
    Prop where
  absent : s.catalog capture.id = none
  taken : capture.takenAt ≤ s.mtime capture.id
  counted : ∃ rows, s.captured capture.id = some rows
    ∧ ∀ input, capture.input = .ok input → input.loadedRows = rows.length ∧ input.ready = true
  present : s.spoolExists capture.id = true ∨ capture.takenAt + captureWindow < s.now

structure InputState.Inv (captureWindow : ℤ) (s : InputState Id Row) : Prop where
  sound : ∀ id, (s.store.dir id).Sound
  clock : ∀ id, s.mtime id ≤ s.now
  kept : ∀ id rows, s.captured id = some rows → s.spoolExists id = true →
    (s.store.dir id).rows = rows
  described : ∀ id row, s.catalog id = some row →
    ∃ rows, s.captured id = some rows ∧ row.loadedRows = rows.length
  expired : ∀ id row, s.catalog id = some row → row.ready = false → row.expiresAt ≤ ↑s.now
  unexpired : ∀ id row, s.catalog id = some row → row.ready = true → ↑s.now < row.expiresAt →
    s.spoolExists id = true
  leased : ∀ lease ∈ s.leases, ∃ row, s.catalog lease.id = some row ∧ row.scope = lease.scope
    ∧ ↑lease.retainUntil ≤ row.expiresAt
  referenced : ∀ job ∈ s.jobs, ∀ id ∈ job.inputIds, ∃ row, s.catalog id = some row
    ∧ row.scope = job.scope ∧ row.ready = true ∧ s.spoolExists id = true
  pending : ∀ capture ∈ s.captures, s.Pending captureWindow capture
  distinct : (s.captures.map (·.id)).Nodup
  rounds : ∀ round ∈ s.rounds, round.listedAt ≤ s.now
    ∧ ∀ id, s.isReady id = true → round.keep id = false →
      round.listedAt - captureWindow ≤ s.mtime id
  scans : ∀ scan ∈ s.scans, scan.cutoff + captureWindow ≤ s.now
    ∧ ∀ id, s.isReady id = true → scan.keep id = false → scan.cutoff ≤ s.mtime id

namespace InputState

variable {s t : InputState Id Row} {id id' : Id} {ttl captureWindow gcWindow : ℤ}

theorem catalog_setRow {row : CompareResultInput} :
  (s.setRow id row).catalog id' = if id' = id then some row else s.catalog id'
  := Function.update_apply _ _ _ _

theorem dir_removeSpool :
  (s.removeSpool id).store.dir id' = if id' = id then {} else s.store.dir id'
  := by
  rw [removeSpool, CopyStore.dir]
  dsimp only
  rw [Function.update_apply]
  split
  · rfl
  · rfl

theorem spoolExists_removeSpool :
  (s.removeSpool id).spoolExists id' = (decide (id' ≠ id) && s.spoolExists id')
  := by
  rw [spoolExists, dir_removeSpool]
  split
  case isTrue h =>
    subst h
    simp
  case isFalse h =>
    rw [decide_eq_true h, Bool.true_and]
    rfl

/-- A row of the catalog after one has been replaced is that one or was there before. -/
theorem catalog_setRow_cases {row row' : CompareResultInput}
    (h : (s.setRow id row).catalog id' = some row') :
  (id' = id ∧ row' = row) ∨ s.catalog id' = some row'
  := by
  rw [catalog_setRow] at h
  split at h
  case isTrue heq => exact .inl ⟨heq, (Option.some.inj h).symm⟩
  case isFalse => exact .inr h

omit [DecidableEq Id] in
theorem isReady_eq_true :
  s.isReady id = true ↔ ∃ row, s.catalog id = some row ∧ row.ready = true
  := by
  rw [isReady, Option.any_eq_true]

/-- A row that is replaced by one that is as ready as it makes no other inputs ready. -/
theorem isReady_setRow {row row' : CompareResultInput} (hrow : s.catalog id = some row)
    (hready : row'.ready = true → row.ready = true)
    (h : (s.setRow id row').isReady id' = true) :
  s.isReady id' = true
  := by
  rw [isReady_eq_true] at h ⊢
  obtain ⟨row₁, hrow₁, hready₁⟩ := h
  obtain ⟨rfl, rfl⟩ | hrow₁ := catalog_setRow_cases hrow₁
  · exact ⟨row, hrow, hready hready₁⟩
  · exact ⟨row₁, hrow₁, hready₁⟩

/-! ### What the actions keep -/

/-- The directory of an input is removed that no one needs. -/
theorem Inv.removeSpool (h : s.Inv captureWindow)
    (hrow : ∀ row, s.catalog id = some row → row.ready = true → row.expiresAt ≤ ↑s.now)
    (hjobs : s.isReferenced id = false)
    (hcaptures : ∀ capture ∈ s.captures, capture.id = id →
      capture.takenAt + captureWindow < s.now) :
  (s.removeSpool id).Inv captureWindow
  := by
  refine { h with sound := ?_, kept := ?_, unexpired := ?_, referenced := ?_, pending := ?_ }
  · intro id'
    rw [dir_removeSpool]
    split
    · exact SpoolDir.sound_empty
    · exact h.sound id'
  · intro id' rows hcaptured hexists
    rw [spoolExists_removeSpool, Bool.and_eq_true, decide_eq_true_eq] at hexists
    rw [dir_removeSpool, if_neg hexists.1]
    exact h.kept id' rows hcaptured hexists.2
  · intro id' row hcatalog hready hlater
    rw [spoolExists_removeSpool, h.unexpired id' row hcatalog hready hlater, Bool.and_true,
      decide_eq_true_eq]
    rintro rfl
    exact absurd hlater (not_lt.mpr (hrow row hcatalog hready))
  · intro job hjob id' hid'
    obtain ⟨row, hcatalog, hscope, hready, hexists⟩ := h.referenced job hjob id' hid'
    refine ⟨row, hcatalog, hscope, hready, ?_⟩
    rw [spoolExists_removeSpool, hexists, Bool.and_true, decide_eq_true_eq]
    rintro rfl
    rw [isReferenced, List.any_eq_false] at hjobs
    exact hjobs job hjob (decide_eq_true hid')
  · intro capture hcapture
    have hpending := h.pending capture hcapture
    refine { hpending with present := ?_ }
    by_cases hid : capture.id = id
    · exact .inr (hcaptures capture hcapture hid)
    · rw [spoolExists_removeSpool, decide_eq_true hid, Bool.true_and]
      exact hpending.present

omit [DecidableEq Id] in
theorem Inv.tick (h : s.Inv captureWindow) {now : ℤ} (hnow : s.now ≤ now) :
  Inv captureWindow { s with now := now }
  := by
  have hcast : (↑s.now : WithTop ℤ) ≤ ↑now := WithTop.coe_le_coe.mpr hnow
  refine { h with
    clock := ?_, expired := ?_, unexpired := ?_, pending := ?_, rounds := ?_, scans := ?_ }
  · intro id
    exact (h.clock id).trans hnow
  · intro id row hcatalog hready
    exact (h.expired id row hcatalog hready).trans hcast
  · intro id row hcatalog hready hlater
    exact h.unexpired id row hcatalog hready (hcast.trans_lt hlater)
  · intro capture hcapture
    have hpending := h.pending capture hcapture
    exact { hpending with present := hpending.present.imp_right fun hlate => hlate.trans_le hnow }
  · intro round hround
    exact ⟨(h.rounds round hround).1.trans hnow, (h.rounds round hround).2⟩
  · intro scan hscan
    exact ⟨(h.scans scan hscan).1.trans hnow, (h.scans scan hscan).2⟩

/-- What the other directories are written to is not seen in those of the inputs. -/
theorem Inv.write (h : s.Inv captureWindow) {op : StoreOp Id Row}
    (hop : ∀ id, op.written = some id → s.captured id = none) {store : CopyStore Id Row}
    (hstore : s.store.step limits op = .ok store) :
  Inv captureWindow { s with
    store := store
    mtime := fun id =>
      if op.written = some id ∨ s.store.dirs id = none then s.now else s.mtime id }
  := by
  have hdir : ∀ id rows, s.captured id = some rows → store.dir id = s.store.dir id := by
    intro id rows hcaptured
    apply CopyStore.dir_step hstore
    intro hwritten
    cases (hop id hwritten).symm.trans hcaptured
  have hexists : ∀ id rows, s.captured id = some rows →
      (store.dir id).manifest.isSome = s.spoolExists id := by
    intro id rows hcaptured
    rw [hdir id rows hcaptured]
    rfl
  have hmtime : ∀ id, s.mtime id
      ≤ if op.written = some id ∨ s.store.dirs id = none then s.now else s.mtime id := by
    intro id
    split
    · exact h.clock id
    · exact le_rfl
  refine { h with
    sound := ?_, clock := ?_, kept := ?_, unexpired := ?_, referenced := ?_, pending := ?_
    rounds := ?_, scans := ?_ }
  · exact CopyStore.sound_step h.sound hstore
  · intro id
    dsimp only
    split
    · exact le_rfl
    · exact h.clock id
  · intro id rows hcaptured hpresent
    show (store.dir id).rows = rows
    rw [hdir id rows hcaptured]
    apply h.kept id rows hcaptured
    rw [← hexists id rows hcaptured]
    exact hpresent
  · intro id row hcatalog hready hlater
    obtain ⟨rows, hcaptured, -⟩ := h.described id row hcatalog
    rw [← h.unexpired id row hcatalog hready hlater]
    exact hexists id rows hcaptured
  · intro job hjob id hid
    obtain ⟨row, hcatalog, hscope, hready, hpresent⟩ := h.referenced job hjob id hid
    obtain ⟨rows, hcaptured, -⟩ := h.described id row hcatalog
    exact ⟨row, hcatalog, hscope, hready, (hexists id rows hcaptured).trans hpresent⟩
  · intro capture hcapture
    have hpending := h.pending capture hcapture
    obtain ⟨rows, hcaptured, -⟩ := hpending.counted
    refine { hpending with taken := ?_, present := ?_ }
    · exact hpending.taken.trans (hmtime capture.id)
    · apply hpending.present.imp_left
      intro hpresent
      exact (hexists capture.id rows hcaptured).trans hpresent
  · intro round hround
    refine ⟨(h.rounds round hround).1, ?_⟩
    intro id hready hkeep
    exact ((h.rounds round hround).2 id hready hkeep).trans (hmtime id)
  · intro scan hscan
    refine ⟨(h.scans scan hscan).1, ?_⟩
    intro id hready hkeep
    exact ((h.scans scan hscan).2 id hready hkeep).trans (hmtime id)

/-- What is said of a snapshot counts its rows, and is ready. -/
theorem describeInput_spec {createdAt : ℤ} {scope : ActorProject} {allowPartial isPartial : Bool}
    {total : Option ℕ} {snapshot : SpoolManifest} {input : CompareResultInput}
    (h : describeInput ttl createdAt scope allowPartial isPartial total snapshot = .ok input) :
  input.loadedRows = snapshot.loadedRows ∧ input.ready = true
  := by
  rw [describeInput] at h
  split at h
  case isTrue => cases h
  split at h
  case isTrue => cases h
  split at h
  case isTrue => cases h
  obtain rfl := Except.ok.inj h
  exact ⟨rfl, rfl⟩

omit [DecidableEq Id] in
/-- An id under which nothing has been captured is not that of an input or a capture. -/
theorem Inv.fresh (h : s.Inv captureWindow) (hfresh : s.captured id = none) :
  (∀ id' row, s.catalog id' = some row → id' ≠ id) ∧ (∀ id', s.isReady id' = true → id' ≠ id)
    ∧ ∀ capture ∈ s.captures, capture.id ≠ id
  := by
  have hcatalog : ∀ id' row, s.catalog id' = some row → id' ≠ id := by
    rintro id' row hrow rfl
    obtain ⟨rows, hrows, -⟩ := h.described id' row hrow
    cases hfresh.symm.trans hrows
  refine ⟨hcatalog, ?_, ?_⟩
  · intro id' hready
    obtain ⟨row, hrow, -⟩ := isReady_eq_true.mp hready
    exact hcatalog id' row hrow
  · rintro capture hcapture rfl
    obtain ⟨rows, hrows, -⟩ := (h.pending capture hcapture).counted
    cases hfresh.symm.trans hrows

theorem Inv.takeSnapshot (h : s.Inv captureWindow) {scope : ActorProject} {allowPartial : Bool}
    {origin : Option (OriginRow Id)} {resultSet : Option (SourceState × Option ℕ)} {createdAt : ℤ}
    {linkable : ℕ → Bool}
    (ht : s.takeSnapshot limits ttl id scope allowPartial origin resultSet createdAt linkable
      = some t) :
  t.Inv captureWindow
  := by
  rw [InputState.takeSnapshot] at ht
  simp only [Option.bind_eq_bind, Option.bind_eq_some_iff, Option.guard_eq_some'] at ht
  obtain ⟨-, ⟨-, -, hfresh⟩, resolved, -, total, -, store, hstore, ht⟩ := ht
  obtain rfl := Option.some.inj ht
  rw [Outcome.toOption_eq_some] at hstore
  have htarget := CopyStore.snapshot_spec hstore
  have hrowsOf : (store.dir id).rows = (s.store.dir resolved.resultSetId).rows := by
    rw [CopyStore.dir, htarget, Option.getD_some, rows_snapshot]
  have hsound := CopyStore.sound_step h.sound hstore
  have hdir : ∀ id', id' ≠ id → store.dir id' = s.store.dir id' := by
    intro id' hne
    apply CopyStore.dir_step hstore
    intro hwritten
    exact hne (Option.some.inj hwritten).symm
  have hmanifest : (store.dir id).manifest.isSome = true := by
    rw [CopyStore.dir, htarget]
    rfl
  obtain ⟨hcatalog, hready, hcaptures⟩ := h.fresh hfresh
  refine { h with
    sound := hsound, clock := ?_, kept := ?_, described := ?_, unexpired := ?_, referenced := ?_
    pending := ?_, distinct := ?_, rounds := ?_, scans := ?_ }
  · intro id'
    dsimp only
    rw [Function.update_apply]
    split
    · exact le_rfl
    · exact h.clock id'
  · intro id' rows hrows hexists
    show (store.dir id').rows = rows
    dsimp only at hrows
    rw [Function.update_apply] at hrows
    split at hrows
    case isTrue heq =>
      subst heq
      exact hrowsOf.trans (Option.some.inj hrows)
    case isFalse hne =>
      rw [hdir id' hne]
      rw [spoolExists, hdir id' hne] at hexists
      exact h.kept id' rows hrows hexists
  · intro id' row hrow
    obtain ⟨rows, hrows, hloaded⟩ := h.described id' row hrow
    refine ⟨rows, ?_, hloaded⟩
    dsimp only
    rw [Function.update_of_ne (hcatalog id' row hrow), hrows]
  · intro id' row hrow hready hlater
    rw [spoolExists, hdir id' (hcatalog id' row hrow)]
    exact h.unexpired id' row hrow hready hlater
  · intro job hjob id' hid'
    obtain ⟨row, hrow, hscope, hready, hexists⟩ := h.referenced job hjob id' hid'
    refine ⟨row, hrow, hscope, hready, ?_⟩
    rw [spoolExists, hdir id' (hcatalog id' row hrow)]
    exact hexists
  · intro capture hcapture
    rw [List.mem_append, List.mem_singleton] at hcapture
    obtain hold | rfl := hcapture
    · have hpending := h.pending capture hold
      obtain ⟨rows, hrows, hinput⟩ := hpending.counted
      have hne := hcaptures capture hold
      refine { hpending with taken := ?_, counted := ?_, present := ?_ }
      · dsimp only
        rw [Function.update_of_ne hne]
        exact hpending.taken
      · refine ⟨rows, ?_, hinput⟩
        dsimp only
        rw [Function.update_of_ne hne, hrows]
      · apply hpending.present.imp_left
        intro hexists
        rw [spoolExists, hdir capture.id hne]
        exact hexists
    · constructor
      · by_contra hsome
        obtain ⟨row, hrow⟩ := Option.ne_none_iff_exists'.mp hsome
        exact hcatalog id row hrow rfl
      · dsimp only
        rw [Function.update_self]
      · refine ⟨(store.dir id).rows, ?_, ?_⟩
        · dsimp only
          rw [Function.update_self, hrowsOf]
        · intro input hinput
          obtain ⟨hloaded, hready⟩ := describeInput_spec hinput
          exact ⟨hloaded.trans (hsound id).counted, hready⟩
      · exact .inl hmanifest
  · rw [List.map_append, List.nodup_append]
    refine ⟨h.distinct, List.nodup_singleton _, ?_⟩
    intro id₁ h₁ id₂ h₂
    obtain ⟨capture, hcapture, rfl⟩ := List.mem_map.mp h₁
    obtain rfl := List.mem_singleton.mp h₂
    exact hcaptures capture hcapture
  · intro round hround
    refine ⟨(h.rounds round hround).1, ?_⟩
    intro id' hid' hkeep
    dsimp only
    rw [Function.update_of_ne (hready id' hid')]
    exact (h.rounds round hround).2 id' hid' hkeep
  · intro scan hscan
    refine ⟨(h.scans scan hscan).1, ?_⟩
    intro id' hid' hkeep
    dsimp only
    rw [Function.update_of_ne (hready id' hid')]
    exact (h.scans scan hscan).2 id' hid' hkeep

omit [DecidableEq Id] in
/-- A capture that ends leaves those that go on. -/
theorem mem_eraseIdx_captures {capture capture' : Capture Id} {i : ℕ}
    (hdistinct : (s.captures.map (·.id)).Nodup) (hi : s.captures[i]? = some capture)
    (hcapture' : capture' ∈ s.captures.eraseIdx i) :
  capture' ∈ s.captures ∧ capture'.id ≠ capture.id
  := by
  obtain ⟨j, hne, hj⟩ := List.mem_eraseIdx_iff_getElem?.mp hcapture'
  refine ⟨List.mem_of_getElem? hj, ?_⟩
  intro hid
  apply hne
  have hlt := (List.getElem?_eq_some_iff.mp hj).1
  apply (List.getElem?_inj (by rw [List.length_map]; exact hlt) hdistinct).mp
  rw [List.getElem?_map, List.getElem?_map, hi, hj, Option.map_some, Option.map_some, hid]

omit [DecidableEq Id] in
theorem nodup_eraseIdx_captures (i : ℕ) (hdistinct : (s.captures.map (·.id)).Nodup) :
  ((s.captures.eraseIdx i).map (·.id)).Nodup
  := hdistinct.sublist ((List.eraseIdx_sublist _ _).map _)

theorem Inv.insertInput (h : s.Inv captureWindow) {i : ℕ} {capture : Capture Id}
    {input : CompareResultInput} (hi : s.captures[i]? = some capture)
    (hinput : capture.input = .ok input) (htimely : s.now ≤ capture.takenAt + captureWindow) :
  Inv captureWindow { s.setRow capture.id input with captures := s.captures.eraseIdx i }
  := by
  have hpending := h.pending capture (List.mem_of_getElem? hi)
  obtain ⟨rows, hrows, hcounted⟩ := hpending.counted
  obtain ⟨hloaded, hready⟩ := hcounted input hinput
  have hexists : s.spoolExists capture.id = true :=
    hpending.present.resolve_right (not_lt.mpr htimely)
  have hold : ∀ id row, s.catalog id = some row → id ≠ capture.id := by
    rintro id row hrow rfl
    cases hpending.absent.symm.trans hrow
  have hkeeps : ∀ id row, s.catalog id = some row →
      (s.setRow capture.id input).catalog id = some row := by
    intro id row hrow
    rw [catalog_setRow, if_neg (hold id row hrow), hrow]
  have hage : ∀ bound id, bound ≤ s.now →
      (s.isReady id = true → bound - captureWindow ≤ s.mtime id) →
      (s.setRow capture.id input).isReady id = true → bound - captureWindow ≤ s.mtime id := by
    intro bound id hbound holder hid
    obtain ⟨row, hrow, hrowReady⟩ := isReady_eq_true.mp hid
    obtain ⟨rfl, -⟩ | hrow := catalog_setRow_cases hrow
    · have htaken := hpending.taken
      omega
    · exact holder (isReady_eq_true.mpr ⟨row, hrow, hrowReady⟩)
  refine { h with
    described := ?_, expired := ?_, unexpired := ?_, leased := ?_, referenced := ?_, pending := ?_
    distinct := nodup_eraseIdx_captures i h.distinct, rounds := ?_, scans := ?_ }
  · intro id row hrow
    obtain ⟨rfl, rfl⟩ | hrow := catalog_setRow_cases hrow
    · exact ⟨rows, hrows, hloaded⟩
    · exact h.described id row hrow
  · intro id row hrow hdeleted
    obtain ⟨rfl, rfl⟩ | hrow := catalog_setRow_cases hrow
    · cases hready.symm.trans hdeleted
    · exact h.expired id row hrow hdeleted
  · intro id row hrow hrowReady hlater
    obtain ⟨rfl, rfl⟩ | hrow := catalog_setRow_cases hrow
    · exact hexists
    · exact h.unexpired id row hrow hrowReady hlater
  · intro lease hlease
    obtain ⟨row, hrow, hscope, hretain⟩ := h.leased lease hlease
    exact ⟨row, hkeeps _ row hrow, hscope, hretain⟩
  · intro job hjob id hid
    obtain ⟨row, hrow, hscope, hrowReady, hpresent⟩ := h.referenced job hjob id hid
    exact ⟨row, hkeeps id row hrow, hscope, hrowReady, hpresent⟩
  · intro capture' hcapture'
    obtain ⟨hmem, hne⟩ := mem_eraseIdx_captures h.distinct hi hcapture'
    have hpending' := h.pending capture' hmem
    refine { hpending' with absent := ?_ }
    exact catalog_setRow.trans ((if_neg hne).trans hpending'.absent)
  · intro round hround
    obtain ⟨hlisted, hround⟩ := h.rounds round hround
    refine ⟨hlisted, ?_⟩
    intro id hid hkeep
    exact hage round.listedAt id hlisted (fun hready => hround id hready hkeep) hid
  · intro scan hscan
    obtain ⟨hcutoff, hscan⟩ := h.scans scan hscan
    refine ⟨hcutoff, ?_⟩
    intro id hid hkeep
    have hbound := hage (scan.cutoff + captureWindow) id hcutoff
      (fun hready => by rw [Int.add_sub_cancel]; exact hscan id hready hkeep) hid
    rw [Int.add_sub_cancel] at hbound
    exact hbound

omit [DecidableEq Id] in
theorem Inv.eraseCapture (h : s.Inv captureWindow) (i : ℕ) :
  Inv captureWindow { s with captures := s.captures.eraseIdx i }
  := by
  refine { h with pending := ?_, distinct := nodup_eraseIdx_captures i h.distinct }
  intro capture hcapture
  have hpending := h.pending capture (List.mem_of_mem_eraseIdx hcapture)
  exact { hpending with }

theorem Inv.discardSnapshot (h : s.Inv captureWindow) {i : ℕ} {capture : Capture Id}
    (hi : s.captures[i]? = some capture) :
  Inv captureWindow { s.removeSpool capture.id with captures := s.captures.eraseIdx i }
  := by
  have hpending := h.pending capture (List.mem_of_getElem? hi)
  have herased := h.eraseCapture i
  apply herased.removeSpool
  · intro row hrow
    cases hpending.absent.symm.trans hrow
  · by_contra hreferenced
    rw [Bool.not_eq_false, isReferenced, List.any_eq_true] at hreferenced
    obtain ⟨job, hjob, hid⟩ := hreferenced
    obtain ⟨row, hrow, -⟩ := h.referenced job hjob _ (of_decide_eq_true hid)
    cases hpending.absent.symm.trans hrow
  · intro capture' hcapture' hid
    exact absurd hid (mem_eraseIdx_captures h.distinct hi hcapture').2

/-- What opening an input means. -/
theorem openInput_spec {scope : ActorProject} {batchSize retainUntil : ℤ} {allowExpired : Bool}
    {opened : CompareResultInput × InputState Id Row}
    (h : s.openInput id scope batchSize retainUntil allowExpired = .ok opened) :
  0 < batchSize ∧ ∃ row, s.catalog id = some row ∧ row.scope = scope ∧ row.ready = true
    ∧ s.spoolExists id = true
    ∧ opened = ({ row with expiresAt := max row.expiresAt ↑retainUntil },
        s.setRow id { row with expiresAt := max row.expiresAt ↑retainUntil })
  := by
  rw [openInput] at h
  split at h
  case isTrue => cases h
  case isFalse hbatch =>
  refine ⟨not_le.mp hbatch, ?_⟩
  split at h
  case isTrue => cases h
  split at h
  case isTrue => cases h
  split at h
  case h_1 => cases h
  case h_2 row hrow =>
    split at h
    case isTrue => cases h
    case isFalse hscope =>
      split at h
      case isTrue => cases h
      case isFalse hready =>
        split at h
        case isTrue => cases h
        split at h
        case isTrue => cases h
        case isFalse hexists =>
          obtain rfl := Except.ok.inj h
          refine ⟨row, hrow, not_not.mp hscope, ?_, ?_, rfl⟩
          · simpa using hready
          · simpa using hexists

/-- A row is replaced by one of the same input that is kept at least as long, and is not deleted
while a comparison refers to it. -/
theorem Inv.setRow (h : s.Inv captureWindow) {row row' : CompareResultInput}
    (hrow : s.catalog id = some row) (hscope : row'.scope = row.scope)
    (hloaded : row'.loadedRows = row.loadedRows) (hlonger : row.expiresAt ≤ row'.expiresAt)
    (hready : row'.ready = true → row.ready = true ∧ s.spoolExists id = true)
    (hdeleted : row'.ready = false → row'.expiresAt ≤ ↑s.now ∧ s.isReferenced id = false) :
  (s.setRow id row').Inv captureWindow
  := by
  have hold : ∀ {id'}, (s.setRow id row').isReady id' = true → s.isReady id' = true :=
    isReady_setRow hrow fun hready' => (hready hready').1
  refine { h with
    described := ?_, expired := ?_, unexpired := ?_, leased := ?_, referenced := ?_, pending := ?_
    rounds := ?_, scans := ?_ }
  · intro id' row₁ hrow₁
    obtain ⟨rfl, rfl⟩ | hrow₁ := catalog_setRow_cases hrow₁
    · rw [hloaded]
      exact h.described id' row hrow
    · exact h.described id' row₁ hrow₁
  · intro id' row₁ hrow₁ hgone
    obtain ⟨rfl, rfl⟩ | hrow₁ := catalog_setRow_cases hrow₁
    · exact (hdeleted hgone).1
    · exact h.expired id' row₁ hrow₁ hgone
  · intro id' row₁ hrow₁ hready₁ hlater
    obtain ⟨rfl, rfl⟩ | hrow₁ := catalog_setRow_cases hrow₁
    · exact (hready hready₁).2
    · exact h.unexpired id' row₁ hrow₁ hready₁ hlater
  · intro lease hlease
    obtain ⟨row₁, hrow₁, hsame, hretain⟩ := h.leased lease hlease
    rw [catalog_setRow]
    split
    case isTrue heq =>
      subst heq
      obtain rfl := Option.some.inj (hrow.symm.trans hrow₁)
      exact ⟨row', rfl, hscope.trans hsame, hretain.trans hlonger⟩
    case isFalse => exact ⟨row₁, hrow₁, hsame, hretain⟩
  · intro job hjob id' hid'
    obtain ⟨row₁, hrow₁, hsame, hready₁, hexists⟩ := h.referenced job hjob id' hid'
    rw [catalog_setRow]
    split
    case isTrue heq =>
      subst heq
      obtain rfl := Option.some.inj (hrow.symm.trans hrow₁)
      refine ⟨row', rfl, hscope.trans hsame, ?_, hexists⟩
      by_contra hgone
      have hfree := (hdeleted ((Bool.not_eq_true _).mp hgone)).2
      rw [isReferenced, List.any_eq_false] at hfree
      exact hfree job hjob (decide_eq_true hid')
    case isFalse => exact ⟨row₁, hrow₁, hsame, hready₁, hexists⟩
  · intro capture hcapture
    have hpending := h.pending capture hcapture
    refine { hpending with absent := ?_ }
    refine catalog_setRow.trans ((if_neg ?_).trans hpending.absent)
    rintro rfl
    cases hpending.absent.symm.trans hrow
  · intro round hround
    obtain ⟨hlisted, hround⟩ := h.rounds round hround
    exact ⟨hlisted, fun id' hid' => hround id' (hold hid')⟩
  · intro scan hscan
    obtain ⟨hcutoff, hscan⟩ := h.scans scan hscan
    exact ⟨hcutoff, fun id' hid' => hscan id' (hold hid')⟩

theorem Inv.openInput (h : s.Inv captureWindow) {scope : ActorProject} {retainUntil : ℤ}
    {row : CompareResultInput} (hrow : s.catalog id = some row) (hscope : row.scope = scope)
    (hready : row.ready = true) (hexists : s.spoolExists id = true) :
  Inv captureWindow
    { s.setRow id { row with expiresAt := max row.expiresAt ↑retainUntil } with
      leases := { id := id, scope := scope, retainUntil := retainUntil } :: s.leases }
  := by
  have hset : (s.setRow id { row with expiresAt := max row.expiresAt ↑retainUntil }).Inv
      captureWindow := by
    apply h.setRow hrow
    · rfl
    · rfl
    · exact le_max_left _ _
    · exact fun _ => ⟨hready, hexists⟩
    · exact fun hdeleted => by cases hready.symm.trans hdeleted
  refine { hset with
    leased := ?_, pending := fun capture hcapture => { hset.pending capture hcapture with } }
  intro lease hlease
  rw [List.mem_cons] at hlease
  obtain rfl | hlease := hlease
  · exact ⟨_, catalog_setRow.trans (if_pos rfl), hscope, le_max_right _ _⟩
  · exact hset.leased lease hlease

omit [DecidableEq Id] in
/-- A comparison is handed in while its inputs are kept for it. -/
theorem Inv.enqueue (h : s.Inv captureWindow) {job : CompareJob Id}
    (hjob : ∀ id ∈ job.inputIds,
      ∃ lease ∈ s.leases, lease.id = id ∧ lease.scope = job.scope ∧ s.now < lease.retainUntil) :
  Inv captureWindow { s with jobs := job :: s.jobs }
  := by
  refine { h with
    referenced := ?_, pending := fun capture hcapture => { h.pending capture hcapture with } }
  intro job' hjob' id hid
  rw [List.mem_cons] at hjob'
  obtain rfl | hjob' := hjob'
  case inr => exact h.referenced job' hjob' id hid
  obtain ⟨lease, hlease, rfl, hscope, hretain⟩ := hjob id hid
  obtain ⟨row, hrow, hsame, hle⟩ := h.leased lease hlease
  have hlater : (↑s.now : WithTop ℤ) < row.expiresAt :=
    (WithTop.coe_lt_coe.mpr hretain).trans_le hle
  have hready : row.ready = true := by
    by_contra hdeleted
    exact absurd hlater (not_lt.mpr (h.expired _ row hrow ((Bool.not_eq_true _).mp hdeleted)))
  exact ⟨row, hrow, hsame.trans hscope, hready, h.unexpired _ row hrow hready hlater⟩

omit [DecidableEq Id] in
theorem Inv.finish (h : s.Inv captureWindow) (i : ℕ) :
  Inv captureWindow { s with jobs := s.jobs.eraseIdx i }
  := by
  refine { h with
    referenced := ?_, pending := fun capture hcapture => { h.pending capture hcapture with } }
  intro job hjob
  exact h.referenced job (List.mem_of_mem_eraseIdx hjob)

/-- The row of an input that has been removed. -/
theorem Inv.markDeleted (h : s.Inv captureWindow) {row : CompareResultInput}
    (hrow : s.catalog id = some row) (hexpired : row.expiresAt ≤ ↑s.now)
    (hjobs : s.isReferenced id = false) :
  Inv captureWindow (s.setRow id { row with ready := false })
  := by
  apply h.setRow hrow
  · rfl
  · rfl
  · exact le_rfl
  · intro hready
    cases hready
  · exact fun _ => ⟨hexpired, hjobs⟩

theorem Inv.collectExpired (h : s.Inv captureWindow) {row : CompareResultInput}
    (hrow : s.catalog id = some row) (hexpired : row.expiresAt ≤ ↑s.now)
    (hjobs : s.isReferenced id = false) :
  (s.removeSpool id).Inv captureWindow
  := by
  apply h.removeSpool _ hjobs
  · rintro capture hcapture rfl
    cases (h.pending capture hcapture).absent.symm.trans hrow
  · intro row' hrow' _
    obtain rfl := Option.some.inj (hrow.symm.trans hrow')
    exact hexpired

omit [DecidableEq Id] in
theorem Inv.listProtected (h : s.Inv captureWindow) (active : Id → Bool) :
  Inv captureWindow { s with
    rounds := { keep := fun id => active id || s.isReady id, listedAt := s.now } :: s.rounds }
  := by
  refine { h with
    rounds := ?_, pending := fun capture hcapture => { h.pending capture hcapture with } }
  intro round hround
  rw [List.mem_cons] at hround
  obtain rfl | hround := hround
  · refine ⟨le_rfl, ?_⟩
    intro id hready hkeep
    rw [Bool.or_eq_false_iff] at hkeep
    cases hkeep.2.symm.trans hready
  · exact h.rounds round hround

omit [DecidableEq Id] in
theorem Inv.beginScan (h : s.Inv captureWindow) {i : ℕ} {round : GcRound Id}
    (hwindows : captureWindow + gcWindow ≤ ttl) (hi : s.rounds[i]? = some round)
    (htimely : s.now ≤ round.listedAt + gcWindow) :
  Inv captureWindow { s with
    rounds := s.rounds.eraseIdx i
    scans := { keep := round.keep, cutoff := s.now - ttl } :: s.scans }
  := by
  obtain ⟨hlisted, hround⟩ := h.rounds round (List.mem_of_getElem? hi)
  refine { h with
    rounds := ?_, scans := ?_
    pending := fun capture hcapture => { h.pending capture hcapture with } }
  · intro round' hround'
    exact h.rounds round' (List.mem_of_mem_eraseIdx hround')
  · intro scan hscan
    rw [List.mem_cons] at hscan
    obtain rfl | hscan := hscan
    · dsimp only
      refine ⟨by omega, ?_⟩
      intro id hready hkeep
      have hage := hround id hready hkeep
      omega
    · exact h.scans scan hscan

/-- A directory is removed that is not on the list. -/
theorem Inv.removeDir (h : s.Inv captureWindow) {i : ℕ} {scan : GcScan Id}
    (hi : s.scans[i]? = some scan) (hkeep : scan.keep id = false)
    (hold : s.mtime id < scan.cutoff) :
  (s.removeSpool id).Inv captureWindow
  := by
  obtain ⟨hcutoff, hscan⟩ := h.scans scan (List.mem_of_getElem? hi)
  have hready : ¬s.isReady id = true := by
    intro hready
    have hage := hscan id hready hkeep
    omega
  apply h.removeSpool
  · intro row hrow hrowReady
    exact absurd (isReady_eq_true.mpr ⟨row, hrow, hrowReady⟩) hready
  · by_contra hreferenced
    rw [Bool.not_eq_false, isReferenced, List.any_eq_true] at hreferenced
    obtain ⟨job, hjob, hid⟩ := hreferenced
    obtain ⟨row, hrow, -, hrowReady, -⟩ := h.referenced job hjob _ (of_decide_eq_true hid)
    exact hready (isReady_eq_true.mpr ⟨row, hrow, hrowReady⟩)
  · rintro capture hcapture rfl
    have htaken := (h.pending capture hcapture).taken
    omega

/-- Every action that comes in time keeps the invariant. -/
theorem Inv.next (h : s.Inv captureWindow) (hwindows : 0 ≤ ttl → captureWindow + gcWindow ≤ ttl)
    {a : InputAction Id Row} (htimely : s.Timely captureWindow gcWindow a)
    (ht : s.next limits ttl a = some t) :
  t.Inv captureWindow
  := by
  cases a with
  | tick now =>
      rw [InputState.next] at ht
      split at ht
      case isTrue hnow =>
        obtain rfl := Option.some.inj ht
        exact h.tick hnow
      case isFalse => cases ht
  | setAccess scope allowed =>
      obtain rfl := Option.some.inj ht
      exact { h with pending := fun capture hcapture => { h.pending capture hcapture with } }
  | write op =>
      simp only [InputState.next, Option.bind_eq_bind, Option.bind_eq_some_iff,
        Option.guard_eq_some'] at ht
      obtain ⟨-, hop, store, hstore, ht⟩ := ht
      obtain rfl := Option.some.inj ht
      exact h.write hop (Outcome.toOption_eq_some.mp hstore)
  | takeSnapshot id scope allowPartial origin resultSet createdAt linkable =>
      exact h.takeSnapshot ht
  | insertInput i =>
      simp only [InputState.next, Option.bind_eq_bind, Option.bind_eq_some_iff] at ht
      obtain ⟨capture, hi, input, hinput, ht⟩ := ht
      obtain rfl := Option.some.inj ht
      exact h.insertInput hi (Outcome.toOption_eq_some.mp hinput) (htimely capture hi)
  | discardSnapshot i removed =>
      simp only [InputState.next, Option.bind_eq_bind, Option.bind_eq_some_iff] at ht
      obtain ⟨capture, hi, ht⟩ := ht
      obtain rfl := Option.some.inj ht
      cases removed with
      | true => exact h.discardSnapshot hi
      | false => exact h.eraseCapture i
  | openInput id scope batchSize retainUntil allowExpired =>
      simp only [InputState.next, Option.bind_eq_bind, Option.bind_eq_some_iff] at ht
      obtain ⟨opened, hopened, ht⟩ := ht
      obtain rfl := Option.some.inj ht
      obtain ⟨-, row, hrow, hscope, hready, hexists, rfl⟩ :=
        openInput_spec (Outcome.toOption_eq_some.mp hopened)
      exact h.openInput hrow hscope hready hexists
  | enqueue job =>
      rw [InputState.next] at ht
      split at ht
      case isTrue hjob =>
        obtain rfl := Option.some.inj ht
        exact h.enqueue hjob
      case isFalse => cases ht
  | finish i =>
      obtain rfl := Option.some.inj ht
      exact h.finish i
  | collectExpired id cutoff outcome =>
      simp only [InputState.next, Option.bind_eq_bind, Option.bind_eq_some_iff,
        Option.guard_eq_some'] at ht
      obtain ⟨row, hrow, -, ⟨hcutoff, -, hexpired, hjobs⟩, ht⟩ := ht
      have hnow : row.expiresAt ≤ ↑s.now := hexpired.trans (WithTop.coe_le_coe.mpr hcutoff)
      have hremoved := h.collectExpired hrow hnow hjobs
      cases outcome with
      | deleted =>
          obtain rfl := Option.some.inj ht
          exact hremoved.markDeleted hrow hnow hjobs
      | failed isLost =>
          obtain rfl := Option.some.inj ht
          cases isLost with
          | true => exact hremoved
          | false => exact h
  | listProtected active =>
      obtain rfl := Option.some.inj ht
      exact h.listProtected active
  | beginScan i =>
      simp only [InputState.next, Option.bind_eq_bind, Option.bind_eq_some_iff,
        Option.guard_eq_some'] at ht
      obtain ⟨round, hi, -, httl, ht⟩ := ht
      obtain rfl := Option.some.inj ht
      exact h.beginScan (hwindows httl) hi (htimely round hi)
  | removeDir i id =>
      simp only [InputState.next, Option.bind_eq_bind, Option.bind_eq_some_iff,
        Option.guard_eq_some'] at ht
      obtain ⟨scan, hi, -, ⟨hkeep, hold⟩, ht⟩ := ht
      obtain rfl := Option.some.inj ht
      exact h.removeDir hi hkeep hold

end InputState

/-! ### Runs -/

/-- The system of captures, comparisons and collections of garbage. -/
def inputSystem (limits : SpoolLimits Row) (ttl : ℤ) :
    TransitionSystem (InputState Id Row) (InputAction Id Row) where
  initial := fun s => s = {}
  step := fun s a t => s.next limits ttl a = some t

omit [DecidableEq Id] in
theorem InputState.inv_initial (captureWindow : ℤ) :
  ({} : InputState Id Row).Inv captureWindow
  := by
  constructor
  case sound => exact fun id => SpoolDir.sound_empty
  case clock => exact fun id => le_rfl
  case distinct => exact List.nodup_nil
  all_goals simp

/-- The invariant holds in every state that is reached by actions that come in time. -/
theorem inv_of_reachable {ttl captureWindow gcWindow : ℤ}
    (hwindows : 0 ≤ ttl → captureWindow + gcWindow ≤ ttl) {s : InputState Id Row}
    (h : ((inputSystem limits ttl).restrict
      (InputState.Timely captureWindow gcWindow)).Reachable s) :
  s.Inv captureWindow
  := by
  apply h.invariant
  · rintro s rfl
    exact InputState.inv_initial captureWindow
  · intro s a t hs hstep
    exact hs.next hwindows hstep.2 hstep.1

end Results

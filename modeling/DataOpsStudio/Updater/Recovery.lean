import DataOpsStudio.Updater.Pointer
import Mathlib.Data.Option.Basic

/-!
# Recovery of the updater

After a crash the updater should always be able to go on.  It is not when the crash comes between
the deletion of a directory and that of the file that names it, or when a rollback record is left
behind that the active payload does not agree with.  If no operation is stopped at such a
moment, and no update is withdrawn after it was committed, then the updater can always go on.
-/

namespace Updater

/-! ### Operations that are not interrupted -/

/-- At most `n` file operations, one after the other. -/
def settle : ℕ → State → State
  | 0, s => s
  | n + 1, s =>
      match next s .advance with
      | some t => settle n t
      | none => s

/-- An operation that is not interrupted. -/
def Files.execute (files : Files) (call : Call) : State := settle 10 ⟨files, .start call⟩

/-- The operation has returned. -/
def Point.succeeded : Point → Bool
  | .idle (some (.installed _ _)) => true
  | .idle (some (.selected _)) => true
  | _ => false

/-- The operation returns unless it is interrupted. -/
def Files.succeeds (files : Files) (call : Call) : Bool := (files.execute call).point.succeeded

/-- How many file operations are left at most. -/
def Point.stepsLeft : Point → ℕ
  | .idle _ => 0
  | .start _ => 10
  | .recoverRemove _ => 9
  | .recoverUnlink _ => 8
  | .checkTarget _ => 7
  | .removeOld _ _ => 6
  | .extract _ _ => 5
  | .place _ _ => 4
  | .writePending _ _ => 3
  | .writeCurrent _ _ => 2
  | .installed _ _ => 1
  | .handle _ _ => 3
  | .handleRemove _ => 2
  | .handleUnlink => 1
  | .writeRollback _ => 2
  | .restore _ => 2
  | .unlinkPending => 1
  | .switchBack _ => 2
  | .unlinkRollback => 1

variable {files files' : Files} {point point' : Point} {package : Package} {releaseId : Text}

theorem stepsLeft_start {call : Call} :
  (Point.ofExcept (files.start call)).stepsLeft < 10
  := by
  cases hstart : files.start call with
  | error e => exact of_decide_eq_true rfl
  | ok point =>
      show point.stepsLeft < 10
      cases call with
      | install package =>
          obtain ⟨incomplete, -, hpoint⟩ := Outcome.bind_eq_ok.mp hstart
          split at hpoint
          · obtain rfl := Except.ok.inj hpoint
            exact of_decide_eq_true rfl
          · obtain rfl := Except.ok.inj hpoint
            exact of_decide_eq_true rfl
      | complete success =>
          obtain ⟨pending, -, ⟨rfl, -⟩ | ⟨-, ⟨rfl, -⟩ | ⟨rfl, -⟩⟩⟩ := startComplete_eq_ok hstart
          · exact of_decide_eq_true rfl
          · exact of_decide_eq_true rfl
          · exact of_decide_eq_true rfl
      | rollback =>
          obtain ⟨-, rollback, -, rfl, -⟩ := startRollback_eq_ok hstart
          exact of_decide_eq_true rfl

theorem stepsLeft_afterRemove :
  (files.afterRemove package).stepsLeft ≤ 1
  := by
  rw [Files.afterRemove]
  split
  · decide
  · decide

theorem stepsLeft_select :
  files.select.stepsLeft = 0
  := by
  rw [Files.select]
  split
  · rfl
  · rfl

/-- Every file operation leaves fewer. -/
theorem perform_stepsLeft (h : perform files point = some (files', point')) :
  point'.stepsLeft < point.stepsLeft
  := by
  cases point with
  | idle last => cases h
  | start call =>
      obtain ⟨rfl, rfl⟩ := Prod.mk.inj (Option.some.inj h)
      apply stepsLeft_start
  | checkTarget package =>
      obtain ⟨rfl, rfl⟩ := Prod.mk.inj (Option.some.inj h)
      cases files.checkTarget package with
      | error e => exact of_decide_eq_true rfl
      | ok old =>
          cases old with
          | true => exact Nat.le_refl 7
          | false => exact Nat.le_succ 6
  | place package previous =>
      rw [perform] at h
      split at h
      · obtain ⟨rfl, rfl⟩ := Prod.mk.inj (Option.some.inj h)
        exact Nat.le_refl 4
      · obtain ⟨rfl, rfl⟩ := Prod.mk.inj (Option.some.inj h)
        exact Nat.le_refl 4
  | handle package previous =>
      obtain ⟨rfl, rfl⟩ := Prod.mk.inj (Option.some.inj h)
      rw [Files.handle]
      split
      · exact Nat.succ_pos 2
      · split
        · exact Nat.le_refl 3
        · have hafter : (files.afterRemove package).stepsLeft ≤ 1 := stepsLeft_afterRemove
          rw [Point.stepsLeft.eq_def (.handle package previous)]
          dsimp only
          omega
  | handleRemove package =>
      obtain ⟨rfl, rfl⟩ := Prod.mk.inj (Option.some.inj h)
      apply Nat.lt_succ_of_le stepsLeft_afterRemove
  | unlinkPending =>
      obtain ⟨rfl, rfl⟩ := Prod.mk.inj (Option.some.inj h)
      rw [stepsLeft_select]
      exact Nat.zero_lt_one
  | unlinkRollback =>
      obtain ⟨rfl, rfl⟩ := Prod.mk.inj (Option.some.inj h)
      rw [stepsLeft_select]
      exact Nat.zero_lt_one
  | _ =>
      obtain ⟨rfl, rfl⟩ := Prod.mk.inj (Option.some.inj h)
      exact Nat.lt_succ_self _

/-- An operation that is not interrupted comes to its end. -/
theorem execute_ends (files : Files) (call : Call) :
  ∃ last, (files.execute call).point = .idle last
  := by
  have hsettle : ∀ (n : ℕ) (s : State), s.point.stepsLeft ≤ n →
      ∃ last, (settle n s).point = .idle last := by
    intro n
    induction n with
    | zero =>
        rintro ⟨files, point⟩ hle
        cases point with
        | idle last => exact ⟨last, rfl⟩
        | _ => cases hle
    | succ n ih =>
        rintro ⟨files, point⟩ hle
        cases hperform : perform files point with
        | none =>
            cases point with
            | idle last => exact ⟨last, rfl⟩
            | place package previous =>
                rw [perform] at hperform
                split at hperform
                · cases hperform
                · cases hperform
            | _ => cases hperform
        | some r =>
            have hlt := perform_stepsLeft hperform
            rw [settle, next, hperform]
            apply ih ⟨r.1, r.2⟩
            dsimp only at hle ⊢
            omega
  apply hsettle
  exact Nat.le_refl 10

/-- An operation that is not interrupted makes the updater's own steps. -/
theorem later_execute (files : Files) (call : Call) :
  updater.Later ⟨files, .start call⟩ (files.execute call)
  := by
  have hsettle : ∀ (n : ℕ) (s : State), updater.Later s (settle n s) := by
    intro n
    induction n with
    | zero => exact fun _ => .refl
    | succ n ih =>
        intro s
        rw [settle]
        split
        · rename_i t hnext
          exact .head ⟨.advance, hnext⟩ (ih t)
        · exact .refl
  apply hsettle

/-! ### What should hold after every crash -/

/-- The installation of the package may be refused: the active payload is of its release, a rollback
record that can be used names its release, or another package of its release is staged. -/
def Files.MayRefuse (files : Files) (package : Package) : Prop :=
  files.current.releaseId = some package.release.releaseId
    ∨ (∃ rollback ∈ files.rollback, rollback.source = files.current
      ∧ (rollback.source.releaseId = some package.release.releaseId
        ∨ rollback.target.releaseId = some package.release.releaseId))
    ∨ ∃ dir ∈ files.versions package.release.releaseId,
      dir.package.manifestBytes ≠ package.manifestBytes
        ∨ dir.package.signatureBytes ≠ package.signatureBytes

/-- The updater can go on: a pending update can be withdrawn or installed again, if none is pending
a package is only refused when it may be, and a rollback record names payloads that exist. -/
structure Files.NotWedged (files : Files) : Prop where
  pending : ∀ pending ∈ files.pending, files.succeeds (.complete false) = true
    ∨ ∃ package : Package, pending.target.releaseId = some package.release.releaseId
      ∧ files.succeeds (.install package) = true
  install : files.pending = none → ∀ package, files.succeeds (.install package) = false →
    files.MayRefuse package
  rollback : ∀ rollback ∈ files.rollback,
    (∃ selection, files.selection rollback.source = .ok selection)
      ∧ ∃ selection, files.selection rollback.target = .ok selection

/-- The directory of the release has the files by which it is recognised. -/
def Files.Readable (files : Files) (releaseId : Text) : Prop :=
  ∃ dir ∈ files.versions releaseId, dir.manifest = true ∧ dir.signature = true

/-- An operation may be stopped before its next file operation: it does not delete a directory that
has lost its manifest, its signature or the payload of a pending update, and is not about to
delete the file that names what is already undone. -/
def Point.MayStop (files : Files) : Point → Prop
  | .recoverRemove package | .removeOld package _ | .handleRemove package =>
      files.Readable package.release.releaseId
        ∧ (files.pending ≠ none → files.hasPayload package.release.releaseId = true)
  | .recoverUnlink _ | .handleUnlink | .unlinkRollback => False
  | _ => True

/-- The step stops an operation only where it may be stopped, and does not withdraw an update for
which the rollback record is already written. -/
def Harmless (s : State) : Action → Prop
  | .raise | .crash => s.point.MayStop s.files
  | .call (.complete false) => ∀ rollback ∈ s.files.rollback, ∀ pending ∈ s.files.pending,
      rollback.source ≠ pending.target
  | _ => True

/-! ### The invariant -/

/-- The files are in order: the payload of a pending update exists, one of its two pointers is
active, every directory has a manifest and a signature, and the rollback record goes back from the
active payload, or from the one before the pending update, or is that of the pending update. -/
structure Files.Steady (files : Files) : Prop where
  target : ∀ pending ∈ files.pending, ∃ release, pending.target = .payload release
    ∧ files.hasPayload release.releaseId = true
  selected : ∀ pending ∈ files.pending,
    files.current = pending.previous ∨ files.current = pending.target
  readable : ∀ releaseId, ∀ dir ∈ files.versions releaseId,
    dir.manifest = true ∧ dir.signature = true
  usable : files.pending = none → ∀ rollback ∈ files.rollback, rollback.source = files.current
  committing : ∀ pending ∈ files.pending, ∀ rollback ∈ files.rollback,
    rollback.source = pending.previous
      ∨ rollback.source = pending.target ∧ rollback.target = pending.previous
        ∧ files.current = pending.target

/-- The files are in order except for the directory that is being deleted, which is that of a
pending update if there is one. -/
structure Files.Removing (files : Files) (releaseId : Text) : Prop where
  target : ∀ pending ∈ files.pending, files.current = pending.previous
    ∧ ∃ release, pending.target = .payload release ∧ release.releaseId = releaseId
  readable : ∀ other, other ≠ releaseId → ∀ dir ∈ files.versions other,
    dir.manifest = true ∧ dir.signature = true
  usable : ∀ rollback ∈ files.rollback, rollback.source = files.current

/-- How far the files are in order before the next file operation of an operation. -/
def Point.Steady (files : Files) : Point → Prop
  | .start call => files.Steady ∧ (call = .complete false → ∀ rollback ∈ files.rollback,
      ∀ pending ∈ files.pending, rollback.source ≠ pending.target)
  | .recoverRemove package | .removeOld package _ | .handleRemove package =>
      files.Removing package.release.releaseId
  | .recoverUnlink package =>
      files.Removing package.release.releaseId
        ∧ files.versions package.release.releaseId = none
  | .handleUnlink => ∃ releaseId, files.Removing releaseId ∧ files.versions releaseId = none
  | .writeCurrent package previous =>
      files.Steady ∧ files.pending = some ⟨previous, package.record⟩
  | .handle package previous =>
      files.Steady ∧ (files.current = previous →
        files.pending = none ∨ files.pending = some ⟨previous, package.record⟩)
  | .writeRollback pending =>
      files.Steady ∧ files.pending = some pending ∧ files.current = pending.target
  | .restore pending =>
      files.Steady ∧ files.pending = some pending
        ∧ ∀ rollback ∈ files.rollback, rollback.source = pending.previous
  | .unlinkPending =>
      files.Steady ∧ ∀ rollback ∈ files.rollback, rollback.source = files.current
  | .switchBack _ => files.Steady ∧ files.pending = none
  | .unlinkRollback =>
      files.pending = none ∧ ∀ releaseId, ∀ dir ∈ files.versions releaseId,
        dir.manifest = true ∧ dir.signature = true
  | _ => files.Steady

theorem Files.Removing.setVersion {dir : Option VersionDir} (h : files.Removing releaseId) :
  (files.setVersion releaseId dir).Removing releaseId
  where
  target := h.target
  readable other hother found hfound := by
    rw [Files.versions_setVersion_of_ne files dir hother] at hfound
    apply h.readable other hother found hfound
  usable := h.usable

/-- When the directory is gone and no update is pending, the files are in order again. -/
theorem Files.Removing.steady (h : files.Removing releaseId)
    (hmissing : files.versions releaseId = none) (hpending : files.pending = none) :
  files.Steady
  := by
  refine ⟨?_, ?_, ?_, fun _ => h.usable, ?_⟩
  · rw [hpending]
    nofun
  · rw [hpending]
    nofun
  · intro other dir hdir
    apply h.readable other _ dir hdir
    rintro rfl
    cases hmissing.symm.trans hdir
  · rw [hpending]
    nofun

/-- The files are in order again when the directory is gone and the update no longer pending. -/
theorem Files.Removing.unlinkPending (h : files.Removing releaseId)
    (hmissing : files.versions releaseId = none) :
  { files with pending := none }.Steady
  := by
  have hremoving : { files with pending := none }.Removing releaseId :=
    ⟨by nofun, h.readable, h.usable⟩
  apply hremoving.steady hmissing rfl

/-- The files are also in order when the directory still has all that matters of it. -/
theorem Files.Removing.steady_of_readable (h : files.Removing releaseId)
    (hreadable : files.Readable releaseId)
    (hpayload : files.pending ≠ none → files.hasPayload releaseId = true) :
  files.Steady
  := by
  refine ⟨?_, fun pending hpending => .inl (h.target pending hpending).1, ?_, fun _ => h.usable, ?_⟩
  · intro pending hpending
    obtain ⟨-, release, htarget, rfl⟩ := h.target pending hpending
    refine ⟨release, htarget, hpayload ?_⟩
    rw [Option.mem_def.mp hpending]
    nofun
  · intro other dir hdir
    by_cases hother : other = releaseId
    · obtain ⟨found, hfound, hparts⟩ := hreadable
      rw [hother] at hdir
      obtain rfl := Option.mem_unique hfound hdir
      apply hparts
    · apply h.readable other hother dir hdir
  · intro pending hpending rollback hrollback
    left
    rw [h.usable rollback hrollback]
    apply (h.target pending hpending).1

/-! ### One step -/

/-- A pending update whose rollback record is not yet written leaves the old one usable. -/
theorem Files.Steady.source_eq (h : files.Steady) {pending : Pending} {rollback : Rollback}
    (hpending : pending ∈ files.pending) (hrollback : rollback ∈ files.rollback)
    (hne : files.current ≠ pending.target) :
  rollback.source = pending.previous
  := by
  rcases h.committing pending hpending rollback hrollback with hsource | ⟨-, -, hcurrent⟩
  · apply hsource
  · apply (hne hcurrent).elim

/-- The deletion of a spare directory starts from files that are in order. -/
theorem Files.Steady.removing (h : files.Steady) (hspare : files.Spare releaseId)
    (hpending : ∀ pending ∈ files.pending, files.current = pending.previous
      ∧ pending.target.releaseId = some releaseId) :
  files.Removing releaseId
  where
  target pending hmem := by
    obtain ⟨hcurrent, htarget⟩ := hpending pending hmem
    obtain ⟨release, hrelease, -⟩ := h.target pending hmem
    rw [hrelease] at htarget
    exact ⟨hcurrent, release, hrelease, Option.some.inj htarget⟩
  readable other _ := h.readable other
  usable rollback hrollback := by
    cases hnone : files.pending with
    | none => apply h.usable hnone rollback hrollback
    | some pending =>
        obtain ⟨hcurrent, htarget⟩ := hpending pending hnone
        rw [hcurrent]
        apply h.source_eq hnone hrollback
        intro heq
        apply hspare.current
        rw [heq, htarget]

/-- The first reads of an operation lead to a step for which the files are in order. -/
theorem steady_start {call : Call} (hsafe : files.Safe) (h : (Point.start call).Steady files) :
  (Point.ofExcept (files.start call)).Steady files
  := by
  obtain ⟨hsteady, hcomplete⟩ := h
  cases hstart : files.start call with
  | error e => apply hsteady
  | ok point =>
      show point.Steady files
      cases call with
      | install package =>
          obtain ⟨incomplete, hrecover, hpoint⟩ := Outcome.bind_eq_ok.mp hstart
          cases incomplete with
          | true =>
              obtain rfl := Except.ok.inj hpoint
              obtain ⟨pending, hpending, hcurrent, htarget, -⟩ :=
                recoverIncompletePending_true hrecover
              apply hsteady.removing (hsafe.spare_of_recover hrecover)
              intro other hother
              obtain rfl := Option.mem_unique hpending hother
              exact ⟨hcurrent, htarget⟩
          | false =>
              obtain rfl := Except.ok.inj hpoint
              apply hsteady
      | complete success =>
          obtain ⟨pending, hpending, ⟨rfl, hcurrent, hne⟩ | ⟨hcurrent, ⟨rfl, -⟩ | ⟨rfl, rfl⟩⟩⟩ :=
            startComplete_eq_ok hstart
          · use hsteady
            intro rollback hrollback
            rw [hcurrent]
            apply hsteady.source_eq hpending hrollback hne
          · exact ⟨hsteady, hpending, hcurrent⟩
          · refine ⟨hsteady, hpending, ?_⟩
            intro rollback hrollback
            apply (hsteady.committing pending hpending rollback hrollback).resolve_right
            rintro ⟨hsource, -⟩
            apply hcomplete rfl rollback hrollback pending hpending hsource
      | rollback =>
          obtain ⟨hpending, rollback, -, rfl, -⟩ := startRollback_eq_ok hstart
          exact ⟨hsteady, hpending⟩

/-- When the directory is gone, what the exception handler does then is in order. -/
theorem steady_afterRemove (h : files.Removing package.release.releaseId)
    (hmissing : files.versions package.release.releaseId = none) :
  (files.afterRemove package).Steady files
  := by
  rw [Files.afterRemove, hmissing, Option.isNone_none, Bool.and_true]
  split
  · exact ⟨_, h, hmissing⟩
  · rename_i hpending
    apply h.steady hmissing
    apply Option.not_isSome_iff_eq_none.mp hpending

theorem steady_select (h : files.Steady) :
  files.select.Steady files
  := by
  rw [Files.select]
  split
  · apply h
  · apply h

/-- The files are in order when no update is pending and the rollback record can be used. -/
theorem Files.Steady.of_pending_eq_none (hpending : files.pending = none)
    (hreadable : ∀ releaseId, ∀ dir ∈ files.versions releaseId,
      dir.manifest = true ∧ dir.signature = true)
    (husable : ∀ rollback ∈ files.rollback, rollback.source = files.current) :
  files.Steady
  where
  target := by
    rw [hpending]
    nofun
  selected := by
    rw [hpending]
    nofun
  readable := hreadable
  usable _ := husable
  committing := by
    rw [hpending]
    nofun

/-- A whole directory can be added. -/
theorem Files.Steady.setVersion_staged (h : files.Steady) (hpending : files.pending = none) :
  (files.setVersion package.release.releaseId (some package.staged)).Steady
  := by
  have hpending' :
      (files.setVersion package.release.releaseId (some package.staged)).pending = none := hpending
  apply Files.Steady.of_pending_eq_none hpending'
  · intro other dir hdir
    by_cases hother : other = package.release.releaseId
    · rw [hother, Files.versions_setVersion_self] at hdir
      obtain rfl := Option.some.inj hdir
      exact ⟨rfl, rfl⟩
    · rw [Files.versions_setVersion_of_ne _ _ hother] at hdir
      apply h.readable other dir hdir
  · apply h.usable hpending

/-- The payload of a package that was just staged exists. -/
theorem Files.Intact.hasPayload {release : ReleaseIdentity}
    (h : files.Intact (.payload release)) :
  files.hasPayload release.releaseId = true
  := by
  obtain ⟨dir, hdir, -, hwhole⟩ := h
  rw [Files.hasPayload, hdir]
  apply hwhole.payload

/-- Every file operation leads to one for which the files are in order. -/
theorem perform_steady (hsafe : files.Safe) (hfits : point.Fits files)
    (hsteady : point.Steady files) (h : perform files point = some (files', point')) :
  point'.Steady files'
  := by
  cases point with
  | idle last => cases h
  | start call =>
      obtain ⟨rfl, rfl⟩ := Prod.mk.inj (Option.some.inj h)
      apply steady_start hsafe hsteady
  | recoverRemove package =>
      obtain ⟨rfl, rfl⟩ := Prod.mk.inj (Option.some.inj h)
      exact ⟨Files.Removing.setVersion hsteady, Files.versions_setVersion_self _ _ _⟩
  | recoverUnlink package =>
      obtain ⟨rfl, rfl⟩ := Prod.mk.inj (Option.some.inj h)
      apply hsteady.1.unlinkPending hsteady.2
  | checkTarget package =>
      obtain ⟨rfl, rfl⟩ := Prod.mk.inj (Option.some.inj h)
      cases hcheck : files.checkTarget package with
      | error e => apply hsteady
      | ok old =>
          cases old with
          | true =>
              apply Files.Steady.removing hsteady (hsafe.spare_of_checkTarget hfits hcheck)
              intro pending hmem
              rw [hfits] at hmem
              cases hmem
          | false => apply hsteady
  | removeOld package previous =>
      obtain ⟨rfl, rfl⟩ := Prod.mk.inj (Option.some.inj h)
      apply (Files.Removing.setVersion hsteady).steady
      · apply Files.versions_setVersion_self
      · apply hfits.1
  | extract package previous =>
      obtain ⟨rfl, rfl⟩ := Prod.mk.inj (Option.some.inj h)
      apply hsteady
  | place package previous =>
      rw [perform] at h
      split at h
      · obtain ⟨rfl, rfl⟩ := Prod.mk.inj (Option.some.inj h)
        exact ⟨hsteady, fun _ => .inl hfits.1⟩
      · obtain ⟨rfl, rfl⟩ := Prod.mk.inj (Option.some.inj h)
        apply Files.Steady.setVersion_staged hsteady hfits.1
  | writePending package previous =>
      obtain ⟨rfl, rfl⟩ := Prod.mk.inj (Option.some.inj h)
      obtain ⟨hpending, rfl, -, hintact⟩ := hfits
      have hfiles : files.Steady := hsteady
      refine ⟨⟨?_, ?_, hfiles.readable, by simp, ?_⟩, rfl⟩
      · intro pending hmem
        obtain rfl := Option.some.inj hmem
        exact ⟨package.release, rfl, hintact.hasPayload⟩
      · intro pending hmem
        obtain rfl := Option.some.inj hmem
        left
        rfl
      · intro pending hmem rollback hrollback
        obtain rfl := Option.some.inj hmem
        left
        apply hfiles.usable hpending rollback hrollback
  | writeCurrent package previous =>
      obtain ⟨rfl, rfl⟩ := Prod.mk.inj (Option.some.inj h)
      obtain ⟨hsteady, hpending⟩ := hsteady
      obtain ⟨rfl, hspare, -⟩ := hfits
      refine ⟨hsteady.target, ?_, hsteady.readable, ?_, ?_⟩
      · intro pending hmem
        obtain rfl := Option.mem_unique hpending hmem
        right
        rfl
      · intro hnone
        cases hpending.symm.trans hnone
      · intro pending hmem rollback hrollback
        left
        apply hsteady.source_eq hmem hrollback
        obtain rfl := Option.mem_unique hpending hmem
        intro hcurrent
        apply hspare.current
        rw [hcurrent]
        rfl
  | installed package previous =>
      obtain ⟨rfl, rfl⟩ := Prod.mk.inj (Option.some.inj h)
      apply hsteady
  | handle package previous =>
      obtain ⟨rfl, rfl⟩ := Prod.mk.inj (Option.some.inj h)
      obtain ⟨hsteady, hpending⟩ := hsteady
      rw [Files.handle]
      split
      · apply hsteady
      · rename_i hcurrent
        have hprevious := not_not.mp hcurrent
        have hremoving : files.Removing package.release.releaseId := by
          apply hsteady.removing (hfits hprevious)
          intro pending hmem
          rcases hpending hprevious with hnone | hsome
          · cases hnone.symm.trans hmem
          · obtain rfl := Option.mem_unique hsome hmem
            exact ⟨hprevious, rfl⟩
        split
        · apply hremoving
        · rename_i hmissing
          apply steady_afterRemove hremoving
          apply Option.not_isSome_iff_eq_none.mp hmissing
  | handleRemove package =>
      obtain ⟨rfl, rfl⟩ := Prod.mk.inj (Option.some.inj h)
      apply steady_afterRemove (Files.Removing.setVersion hsteady)
      apply Files.versions_setVersion_self
  | handleUnlink =>
      obtain ⟨rfl, rfl⟩ := Prod.mk.inj (Option.some.inj h)
      obtain ⟨releaseId, hremoving, hmissing⟩ := hsteady
      apply hremoving.unlinkPending hmissing
  | writeRollback pending =>
      obtain ⟨rfl, rfl⟩ := Prod.mk.inj (Option.some.inj h)
      obtain ⟨hsteady, hpending, hcurrent⟩ := hsteady
      refine ⟨⟨hsteady.target, hsteady.selected, hsteady.readable, ?_, ?_⟩, ?_⟩
      · intro hnone
        cases hpending.symm.trans hnone
      · intro other hother rollback hrollback
        obtain rfl := Option.mem_unique hpending hother
        obtain rfl := Option.some.inj hrollback
        right
        exact ⟨rfl, rfl, hcurrent⟩
      · intro rollback hrollback
        obtain rfl := Option.some.inj hrollback
        apply hcurrent.symm
  | restore pending =>
      obtain ⟨rfl, rfl⟩ := Prod.mk.inj (Option.some.inj h)
      obtain ⟨hsteady, hpending, hsource⟩ := hsteady
      refine ⟨⟨hsteady.target, ?_, hsteady.readable, ?_, ?_⟩, hsource⟩
      · intro other hother
        obtain rfl := Option.mem_unique hpending hother
        left
        rfl
      · exact fun _ => hsource
      · intro other hother rollback hrollback
        obtain rfl := Option.mem_unique hpending hother
        left
        apply hsource rollback hrollback
  | unlinkPending =>
      obtain ⟨rfl, rfl⟩ := Prod.mk.inj (Option.some.inj h)
      apply steady_select
      exact .of_pending_eq_none rfl hsteady.1.readable hsteady.2
  | switchBack rollback =>
      obtain ⟨rfl, rfl⟩ := Prod.mk.inj (Option.some.inj h)
      exact ⟨hsteady.2, hsteady.1.readable⟩
  | unlinkRollback =>
      obtain ⟨rfl, rfl⟩ := Prod.mk.inj (Option.some.inj h)
      apply steady_select
      exact .of_pending_eq_none hsteady.1 hsteady.2 (by simp)

/-- Where an operation may be stopped the files are in order. -/
theorem steady_of_mayStop (hsteady : point.Steady files) (h : point.MayStop files) :
  files.Steady
  := by
  cases point with
  | start call => apply hsteady.1
  | recoverRemove package => apply Files.Removing.steady_of_readable hsteady h.1 h.2
  | recoverUnlink package => apply h.elim
  | removeOld package previous => apply Files.Removing.steady_of_readable hsteady h.1 h.2
  | writeCurrent package previous => apply hsteady.1
  | handle package previous => apply hsteady.1
  | handleRemove package => apply Files.Removing.steady_of_readable hsteady h.1 h.2
  | handleUnlink => apply h.elim
  | writeRollback pending => apply hsteady.1
  | restore pending => apply hsteady.1
  | unlinkPending => apply hsteady.1
  | switchBack rollback => apply hsteady.1
  | unlinkRollback => apply h.elim
  | _ => apply hsteady

/-- An operation that is interrupted where it may be stopped leaves the files in order. -/
theorem steady_interrupt (hfits : point.Fits files) (hsteady : point.Steady files)
    (h : point.MayStop files) :
  (point.interrupt files).Steady files
  := by
  have hfiles := steady_of_mayStop hsteady h
  cases point with
  | extract package previous => exact ⟨hfiles, fun _ => .inl hfits.1⟩
  | place package previous => exact ⟨hfiles, fun _ => .inl hfits.1⟩
  | writePending package previous => exact ⟨hfiles, fun _ => .inl hfits.1⟩
  | writeCurrent package previous => exact ⟨hfiles, fun _ => .inr hsteady.2⟩
  | installed package previous =>
      use hfiles
      intro hcurrent
      apply (hfits.2 _).elim
      rw [← hcurrent, hfits.1]
      rfl
  | handleRemove package =>
      obtain ⟨dir, hdir, -⟩ := h.1
      show (files.afterRemove package).Steady files
      rw [Files.afterRemove, Option.mem_def.mp hdir, Option.isNone_some, Bool.and_false, if_neg]
      · apply hfiles
      · exact Bool.false_ne_true
  | _ => apply hfiles

theorem Point.Steady.tear {payload manifest signature : Bool} (h : point.Steady files)
    (hremoves : point.removes = some releaseId) :
  point.Steady (files.tear releaseId payload manifest signature)
  := by
  cases point with
  | recoverRemove package =>
      obtain rfl := Option.some.inj hremoves
      apply Files.Removing.setVersion h
  | removeOld package previous =>
      obtain rfl := Option.some.inj hremoves
      apply Files.Removing.setVersion h
  | handleRemove package =>
      obtain rfl := Option.some.inj hremoves
      apply Files.Removing.setVersion h
  | _ => cases hremoves

/-- A harmless step keeps the files in order. -/
theorem steady_step {s t : State} {a : Action} (hsafe : s.Safe) (hs : s.point.Steady s.files)
    (hharmless : Harmless s a) (h : next s a = some t) :
  t.point.Steady t.files
  := by
  cases a with
  | call call =>
      obtain ⟨files, point⟩ := s
      cases point with
      | idle last =>
          obtain rfl := Option.some.inj h
          use hs
          rintro rfl
          apply hharmless
      | _ => cases h
  | advance =>
      obtain ⟨⟨files', point'⟩, hperform, rfl⟩ := Option.map_eq_some_iff.mp h
      apply perform_steady hsafe.1 hsafe.2 hs hperform
  | tear payload manifest signature =>
      obtain ⟨releaseId, hremoves, rfl⟩ := Option.map_eq_some_iff.mp h
      apply hs.tear hremoves
  | raise =>
      rw [next] at h
      split at h
      · cases h
      · obtain rfl := Option.some.inj h
        apply steady_interrupt hsafe.2 hs hharmless
  | crash =>
      obtain rfl := Option.some.inj h
      apply steady_of_mayStop hs hharmless

theorem steady_of_reachable {s : State} (h : (updater.restrict Harmless).Reachable s) :
  s.Safe ∧ s.point.Steady s.files
  := by
  apply h.invariant
  · rintro s hs
    use safe_of_reachable (.initial hs)
    obtain rfl : s = .fresh := hs
    exact .of_pending_eq_none rfl (by nofun) (by nofun)
  · intro s a t hs hstep
    exact ⟨safe_step hs.1 hstep.1, steady_step hs.1 hs.2 hstep.2 hstep.1⟩

/-! ### The operations that recover -/

theorem settle_idle (n : ℕ) (files : Files) (last : Option Outcome) :
  settle n ⟨files, .idle last⟩ = ⟨files, .idle last⟩
  := by
  cases n with
  | zero => rfl
  | succ n => rfl

/-- A selection is returned when the active payload is intact. -/
theorem settle_select (n : ℕ) (h : files.Intact files.current) :
  (settle n ⟨files, files.select⟩).point.succeeded = true
  := by
  obtain ⟨selection, hselection⟩ := h.selection
  rw [Files.select, Files.resolveActive, hselection, settle_idle]
  rfl

/-- The target of a pending update resolves. -/
theorem Files.Steady.selection_target (h : files.Steady) {pending : Pending}
    (hpending : pending ∈ files.pending) :
  ∃ selection, files.selection pending.target = .ok selection
  := by
  obtain ⟨release, htarget, hpayload⟩ := h.target pending hpending
  use ⟨some release.releaseId, some release⟩
  rw [htarget, Files.selection, if_pos hpayload]

/-- A pending update can be withdrawn. -/
theorem succeeds_complete (hsafe : files.Safe) (hsteady : files.Steady) {pending : Pending}
    (hpending : pending ∈ files.pending) :
  files.succeeds (.complete false) = true
  := by
  have hprevious := hsafe.previous pending hpending
  obtain ⟨_, hselection⟩ := hprevious.selection
  obtain ⟨_, htarget⟩ := hsteady.selection_target hpending
  show (settle 9 ⟨files, .ofExcept (files.startComplete false)⟩).point.succeeded = true
  by_cases hcurrent : files.current = pending.target
  · have hstart : files.startComplete false = .ok (.restore pending) := by
      rw [Files.startComplete, Option.mem_def.mp hpending]
      dsimp only
      rw [hselection, htarget]
      exact if_neg (not_not.mpr hcurrent)
    have hintact : { files with current := pending.previous, pending := none }.Intact
        pending.previous := hprevious
    rw [hstart]
    apply settle_select 7 hintact
  · have hback := (hsteady.selected pending hpending).resolve_right hcurrent
    have hstart : files.startComplete false = .ok .unlinkPending := by
      rw [Files.startComplete, Option.mem_def.mp hpending]
      dsimp only
      rw [hselection, htarget]
      exact (if_pos hcurrent).trans (if_pos ⟨rfl, hback⟩)
    have hintact : { files with pending := none }.Intact files.current := hsafe.current
    rw [hstart]
    apply settle_select 8 hintact

/-- A package is installed once its release has no directory. -/
theorem settle_extract (previous : Record)
    (hmissing : files.versions package.release.releaseId = none) (n : ℕ) :
  (settle (n + 5) ⟨files, .extract package previous⟩).point.succeeded = true
  := by
  have hplace : perform files (.place package previous)
      = some (files.setVersion package.release.releaseId (some package.staged),
        .writePending package previous) := by
    rw [perform, hmissing]
  have hsettle : settle (n + 4) ⟨files, .place package previous⟩
      = settle (n + 3) ⟨files.setVersion package.release.releaseId (some package.staged),
        .writePending package previous⟩ := by
    rw [settle, next, hplace]
    rfl
  show (settle (n + 4) ⟨files, .place package previous⟩).point.succeeded = true
  rw [hsettle]
  show (settle n ⟨_, .idle (some (.installed package.release previous.release))⟩).point.succeeded
    = true
  rw [settle_idle]
  rfl

/-- The rollback record does not name a release that may not be refused. -/
theorem rollbackReferences_eq_ok (hsafe : files.Safe) (hsteady : files.Steady)
    (hpending : files.pending = none) (hrefuse : ¬ files.MayRefuse package) :
  files.rollbackReferences package.release.releaseId = .ok false
  := by
  rw [Files.rollbackReferences]
  split
  · rfl
  · rename_i rollback hrollback
    have husable := hsteady.usable hpending rollback hrollback
    obtain ⟨_, hsource⟩ := hsafe.current.selection
    obtain ⟨_, htarget⟩ := (hsafe.rollback rollback hrollback).selection
    rw [husable, hsource]
    refine Eq.trans (if_neg ?_) ?_
    · exact fun heq => hrefuse (.inl heq)
    · rw [htarget]
      have hne : rollback.target.releaseId ≠ some package.release.releaseId :=
        fun heq => hrefuse (.inr (.inl ⟨rollback, hrollback, husable, .inr heq⟩))
      exact congrArg Except.ok (decide_eq_false hne)

/-- A package that may not be refused is staged, after an old directory of its release is removed
if there is one. -/
theorem checkTarget_of_not_mayRefuse (hsafe : files.Safe) (hsteady : files.Steady)
    (hpending : files.pending = none) (hrefuse : ¬ files.MayRefuse package) :
  files.checkTarget package
    = .ok (files.versions package.release.releaseId).isSome
  := by
  obtain ⟨_, hselection⟩ := hsafe.current.selection
  rw [Files.checkTarget, hselection]
  cases hdir : files.versions package.release.releaseId with
  | none => rfl
  | some dir =>
      have hcurrent : files.current.releaseId ≠ some package.release.releaseId :=
        fun heq => hrefuse (.inl heq)
      refine Eq.trans (if_neg hcurrent) ?_
      rw [rollbackReferences_eq_ok hsafe hsteady hpending hrefuse]
      obtain ⟨hmanifest, hsignature⟩ := hsteady.readable _ dir hdir
      have hsame : files.sameRelease package = true := by
        have hbytes : dir.package.manifestBytes = package.manifestBytes
            ∧ dir.package.signatureBytes = package.signatureBytes := by
          by_contra hne
          apply hrefuse
          right
          right
          refine ⟨dir, hdir, ?_⟩
          apply not_and_or.mp hne
        rw [Files.sameRelease, hdir]
        dsimp only
        rw [VersionDir.sameRelease, hmanifest, hsignature, hbytes.1, hbytes.2]
        simp only [decide_true, Bool.and_self]
      rw [hsame]
      rfl

/-- A package is installed when no update is pending and it may not be refused. -/
theorem succeeds_install (hsafe : files.Safe) (hsteady : files.Steady)
    (hpending : files.pending = none) (hrefuse : ¬ files.MayRefuse package) :
  files.succeeds (.install package) = true
  := by
  have hcheck := checkTarget_of_not_mayRefuse hsafe hsteady hpending hrefuse
  have hstart : files.start (.install package) = .ok (.checkTarget package) := by
    rw [Files.start, Files.recoverIncompletePending, hpending]
    rfl
  show (settle 9 ⟨files, .ofExcept (files.start (.install package))⟩).point.succeeded = true
  rw [hstart]
  show Point.succeeded (settle 8 ⟨files, .ofExcept ((files.checkTarget package).map (fun old =>
    if old then .removeOld package files.current else .extract package files.current))⟩).point = true
  rw [hcheck]
  cases hdir : files.versions package.release.releaseId with
  | none => apply settle_extract _ hdir 3
  | some dir =>
      have hmissing : (files.setVersion package.release.releaseId none).versions
          package.release.releaseId = none := Files.versions_setVersion_self _ _ _
      apply settle_extract files.current hmissing 2

/-- Files that are in order do not stop the updater. -/
theorem notWedged_of_steady (hsafe : files.Safe) (hsteady : files.Steady) :
  files.NotWedged
  where
  pending pending hpending := .inl (succeeds_complete hsafe hsteady hpending)
  install hpending package hfails := by
    by_contra hrefuse
    rw [succeeds_install hsafe hsteady hpending hrefuse] at hfails
    cases hfails
  rollback rollback hrollback := by
    refine ⟨?_, (hsafe.rollback rollback hrollback).selection⟩
    cases hpending : files.pending with
    | none =>
        rw [hsteady.usable hpending rollback hrollback]
        apply hsafe.current.selection
    | some pending =>
        rcases hsteady.committing pending hpending rollback hrollback with hsource | ⟨hsource, -⟩
        · rw [hsource]
          apply (hsafe.previous pending hpending).selection
        · rw [hsource]
          apply hsteady.selection_target hpending

/-- In every run that stops no operation while a directory it deletes has lost what recovery reads,
or between the deletion of a directory or the switch back and the deletion of the file that names
it, and that does not withdraw an update whose rollback record is written, the updater can go on
whenever no operation is running. -/
theorem updater_recovers {s : State} (h : (updater.restrict Harmless).Reachable s)
    (hidle : ∃ last, s.point = .idle last) :
  s.files.NotWedged
  := by
  obtain ⟨hsafe, hsteady⟩ := steady_of_reachable h
  obtain ⟨last, hlast⟩ := hidle
  rw [hlast] at hsteady
  apply notWedged_of_steady hsafe.1 hsteady

/-! ### A run that recovers -/

instance (files : Files) (package : Package) : Decidable (files.MayRefuse package) :=
  inferInstanceAs (Decidable (_ ∨ (∃ rollback ∈ files.rollback, rollback.source = files.current
      ∧ (rollback.source.releaseId = some package.release.releaseId
        ∨ rollback.target.releaseId = some package.release.releaseId))
    ∨ ∃ dir ∈ files.versions package.release.releaseId,
      dir.package.manifestBytes ≠ package.manifestBytes
        ∨ dir.package.signatureBytes ≠ package.signatureBytes))

instance (files : Files) (releaseId : Text) : Decidable (files.Readable releaseId) :=
  inferInstanceAs (Decidable (∃ dir ∈ files.versions releaseId,
    dir.manifest = true ∧ dir.signature = true))

instance (files : Files) : DecidablePred (Point.MayStop files)
  | .recoverRemove _ | .removeOld _ _ | .handleRemove _ => inferInstanceAs (Decidable (_ ∧ _))
  | .recoverUnlink _ | .handleUnlink | .unlinkRollback => isFalse id
  | .idle _ | .start _ | .checkTarget _ | .extract _ _ | .place _ _ | .writePending _ _
  | .writeCurrent _ _ | .installed _ _ | .handle _ _ | .writeRollback _ | .restore _
  | .unlinkPending | .switchBack _ => isTrue trivial

instance (s : State) : DecidablePred (Harmless s)
  | .raise | .crash => inferInstanceAs (Decidable (s.point.MayStop s.files))
  | .call (.complete false) => inferInstanceAs (Decidable (∀ rollback ∈ s.files.rollback,
      ∀ pending ∈ s.files.pending, rollback.source ≠ pending.target))
  | .call (.complete true) | .call (.install _) | .call .rollback | .advance | .tear _ _ _ =>
      isTrue trivial

/-- What is seen of a state: whether no operation is running, the pending update and whether its
payload exists, and whether a package is installed and may be refused. -/
structure Seen where
  idle : Bool
  pending : Option Pending
  hasPayload : Bool
  succeeds : Bool
  mayRefuse : Bool
deriving DecidableEq

/-- What is seen of a state. -/
def State.seen (s : State) (package : Package) : Seen where
  idle := decide (s.point.stepsLeft = 0)
  pending := s.files.pending
  hasPayload := s.files.hasPayload package.release.releaseId
  succeeds := s.files.succeeds (.install package)
  mayRefuse := decide (s.files.MayRefuse package)

theorem idle_of_stepsLeft (h : point.stepsLeft = 0) :
  ∃ last, point = .idle last
  := by
  cases point with
  | idle last => exact ⟨last, rfl⟩
  | _ => cases h

/-- An installation dies before the package is selected, and the next attempt dies while it deletes
the payload. -/
def harmlessRun : List Action :=
  .call (.install (samplePackage "1")) :: List.replicate 5 .advance
    ++ [.crash, .call (.install (samplePackage "1")), .advance, .tear true true true, .crash]

/-- The update that was stopped twice can still be withdrawn. -/
theorem harmlessRun_notWedged :
  ∃ s, (updater.restrict Harmless).Reachable s
    ∧ s.files.pending = some ⟨.base, (samplePackage "1").record⟩ ∧ s.files.NotWedged
  := by
  have hrun : (harmlessRun.foldlM (fun s a => if Harmless s a then next s a else none)
      .fresh).map (fun s => s.seen (samplePackage "1"))
      = some ⟨true, some ⟨.base, (samplePackage "1").record⟩, true, true, false⟩ := by
    rfl
  obtain ⟨s, hs, hseen⟩ := Option.map_eq_some_iff.mp hrun
  simp only [State.seen, Seen.mk.injEq, decide_eq_true_eq] at hseen
  obtain ⟨hidle, hpending, -⟩ := hseen
  have hinitial : (updater.restrict Harmless).initial .fresh := rfl
  have hreachable : (updater.restrict Harmless).Reachable s := by
    apply (TransitionSystem.Reachable.initial hinitial).later
    apply TransitionSystem.later_of_foldlM _ hs
    intro s a t h
    split at h
    · rename_i hharmless
      exact ⟨h, hharmless⟩
    · cases h
  exact ⟨s, hreachable, hpending, updater_recovers hreachable (idle_of_stepsLeft hidle)⟩

/-! ### Runs that stop at the wrong moment -/

/-- An update whose payload is missing can be neither withdrawn nor installed again. -/
theorem not_notWedged_of_missing {pending : Pending} {release : ReleaseIdentity}
    (hpending : files.pending = some pending) (htarget : pending.target = .payload release)
    (hmissing : files.hasPayload release.releaseId = false) :
  ¬ files.NotWedged
  := by
  have hselection : files.selection pending.target = .error .payloadMissing := by
    rw [htarget, Files.selection, hmissing]
    rfl
  intro h
  rcases h.pending pending hpending with hcomplete | ⟨package, -, hinstall⟩
  · have hstart : ∃ e, files.startComplete false = .error e := by
      rw [Files.startComplete, hpending]
      dsimp only
      rw [hselection]
      cases files.selection pending.previous with
      | error e => exact ⟨e, rfl⟩
      | ok selection => exact ⟨_, rfl⟩
    obtain ⟨e, he⟩ := hstart
    have hfails :
        (settle 9 ⟨files, .ofExcept (files.startComplete false)⟩).point.succeeded = true :=
      hcomplete
    rw [he] at hfails
    cases hfails
  · have hstart : ∃ e, files.start (.install package) = .error e := by
      rw [Files.start, Files.recoverIncompletePending, hpending]
      dsimp only
      rw [hselection]
      cases files.selection pending.previous with
      | error e => exact ⟨e, rfl⟩
      | ok selection => exact ⟨_, rfl⟩
    obtain ⟨e, he⟩ := hstart
    have hfails :
        (settle 9 ⟨files, .ofExcept (files.start (.install package))⟩).point.succeeded = true :=
      hinstall
    rw [he] at hfails
    cases hfails

/-- A package is staged and the installation dies before it is selected; the next attempt dies
after it has deleted the directory. -/
def deletedRun : List Action :=
  .call (.install (samplePackage "1")) :: List.replicate 5 .advance
    ++ [.crash, .call (.install (samplePackage "1")), .advance, .advance, .crash]

/-- A package is placed and the installation dies before the update is pending; the next attempt
dies while it deletes the directory. -/
def tornRun : List Action :=
  .call (.install (samplePackage "1")) :: List.replicate 4 .advance
    ++ [.crash, .call (.install (samplePackage "1")), .advance, .advance, .tear true false true,
      .crash]

/-- A rollback dies after it has switched back. -/
def staleRun : List Action :=
  .call (.install (samplePackage "1")) :: List.replicate 7 .advance
    ++ .call (.complete true) :: List.replicate 3 .advance
    ++ [.call .rollback, .advance, .advance, .crash]

/-- The completion of an update dies after it has written the rollback record, and the update is
withdrawn then. -/
def withdrawnRun : List Action :=
  .call (.install (samplePackage "1")) :: List.replicate 7 .advance
    ++ [.call (.complete true), .advance, .advance, .crash]
    ++ .call (.complete false) :: List.replicate 3 .advance

/-- After a run no operation goes on, and the updater cannot go on as it should. -/
def Wedges (run : List Action) : Prop :=
  ∃ s, run.foldlM next .fresh = some s ∧ updater.Reachable s ∧ (∃ last, s.point = .idle last)
    ∧ ¬ s.files.NotWedged

/-- After each of these runs the updater cannot go on as it should. -/
theorem updater_wedges :
  Wedges deletedRun ∧ Wedges tornRun ∧ Wedges staleRun ∧ Wedges withdrawnRun
  := by
  have hreachable : ∀ (run : List Action) (s : State), run.foldlM next .fresh = some s →
      updater.Reachable s := by
    intro run s hs
    apply (TransitionSystem.Reachable.initial rfl).later
    apply TransitionSystem.later_of_foldlM (fun s a t h => h) hs
  have hrefused : ∀ (run : List Action) (payload : Bool),
      (run.foldlM next .fresh).map (fun s => s.seen (samplePackage "1"))
        = some ⟨true, none, payload, false, false⟩ →
      Wedges run := by
    intro run payload hrun
    obtain ⟨s, hs, hseen⟩ := Option.map_eq_some_iff.mp hrun
    simp only [State.seen, Seen.mk.injEq, decide_eq_true_eq, decide_eq_false_iff_not] at hseen
    obtain ⟨hidle, hpending, -, hfails, hrefuse⟩ := hseen
    refine ⟨s, hs, hreachable run s hs, idle_of_stepsLeft hidle, ?_⟩
    intro h
    apply hrefuse (h.install hpending _ hfails)
  refine ⟨?_, ?_, ?_, ?_⟩
  · have hseen : (deletedRun.foldlM next .fresh).map (fun s => s.seen (samplePackage "1"))
        = some ⟨true, some ⟨.base, (samplePackage "1").record⟩, false, false, false⟩ := by
      rfl
    obtain ⟨s, hs, hseen⟩ := Option.map_eq_some_iff.mp hseen
    simp only [State.seen, Seen.mk.injEq, decide_eq_true_eq] at hseen
    obtain ⟨hidle, hpending, hmissing, -⟩ := hseen
    refine ⟨s, hs, hreachable _ s hs, idle_of_stepsLeft hidle, ?_⟩
    apply not_notWedged_of_missing hpending rfl hmissing
  · exact hrefused tornRun true (by rfl)
  · exact hrefused staleRun true (by rfl)
  · exact hrefused withdrawnRun true (by rfl)

end Updater

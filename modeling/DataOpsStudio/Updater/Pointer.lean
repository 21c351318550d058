import DataOpsStudio.Library.Outcome
import DataOpsStudio.Updater.Files

/-!
# The active payload

In every state that the updater can reach, also in the middle of an operation, `current.json` points
to the base payload or to a directory that was staged completely and that no step has started to
delete.  What a step deletes is spare: it is named neither by `current.json`, nor by
`pending.json` as what to go back to, nor by `rollback.json` as what to go back to.
-/

namespace Updater

/-! ### Directories that are intact -/

/-- All parts of the directory are there, and no step has started to delete it. -/
structure VersionDir.Whole (dir : VersionDir) : Prop where
  payload : dir.payload = true
  manifest : dir.manifest = true
  signature : dir.signature = true
  untouched : dir.touched = false

/-- The pointer is to the base payload, or to a whole directory that was staged for its release. -/
def Files.Intact (files : Files) : Record → Prop
  | .base => True
  | .payload release => ∃ dir, files.versions release.releaseId = some dir
      ∧ dir.package.release = release ∧ dir.Whole

/-- Nothing that must be kept is in the directory of the release. -/
structure Files.Spare (files : Files) (releaseId : Text) : Prop where
  current : files.current.releaseId ≠ some releaseId
  previous : ∀ pending ∈ files.pending, pending.previous.releaseId ≠ some releaseId
  rollback : ∀ rollback ∈ files.rollback, rollback.target.releaseId ≠ some releaseId

/-- What the files keep intact: the active payload, and those that a failed update or a rollback
goes back to.  The target of a pending update is none of the latter two. -/
structure Files.Safe (files : Files) : Prop where
  current : files.Intact files.current
  previous : ∀ pending ∈ files.pending, files.Intact pending.previous
  rollback : ∀ rollback ∈ files.rollback, files.Intact rollback.target
  apart : ∀ pending ∈ files.pending, ∀ releaseId, pending.target.releaseId = some releaseId →
    pending.previous.releaseId ≠ some releaseId
      ∧ ∀ rollback ∈ files.rollback, rollback.target.releaseId ≠ some releaseId

/-- What an operation knows of the files before its next file operation. -/
def Point.Fits (files : Files) : Point → Prop
  | .recoverRemove package => files.Spare package.release.releaseId
  | .checkTarget _ => files.pending = none
  | .removeOld package previous | .extract package previous | .place package previous =>
      files.pending = none ∧ files.current = previous ∧ files.Spare package.release.releaseId
  | .writePending package previous =>
      files.pending = none ∧ files.current = previous ∧ files.Spare package.release.releaseId
        ∧ files.Intact package.record
  | .writeCurrent package previous =>
      files.current = previous ∧ files.Spare package.release.releaseId
        ∧ files.Intact package.record
  | .installed package previous =>
      files.current = package.record ∧ previous.releaseId ≠ some package.release.releaseId
  | .handle package previous =>
      files.current = previous → files.Spare package.release.releaseId
  | .handleRemove package => files.Spare package.release.releaseId
  | .writeRollback pending => pending ∈ files.pending
  | .restore pending => files.Intact pending.previous
  | .switchBack rollback => files.Intact rollback.target
  | _ => True

variable {files : Files} {record : Record} {releaseId : Text}

/-- An intact pointer resolves. -/
theorem Files.Intact.selection (h : files.Intact record) :
  ∃ selection, files.selection record = .ok selection
  := by
  cases record with
  | base => exact ⟨_, rfl⟩
  | payload release =>
      obtain ⟨dir, hdir, -, hwhole⟩ := h
      use ⟨some release.releaseId, some release⟩
      rw [Files.selection, if_pos]
      rw [Files.hasPayload, hdir]
      apply hwhole.payload

theorem Files.Intact.ne_of_missing (h : files.Intact record)
    (hmissing : files.versions releaseId = none) :
  record.releaseId ≠ some releaseId
  := by
  cases record with
  | base => exact Option.some_ne_none _ ∘ Eq.symm
  | payload release =>
      intro heq
      obtain rfl : release.releaseId = releaseId := Option.some.inj heq
      obtain ⟨dir, hdir, -⟩ := h
      cases hdir.symm.trans hmissing

/-- What is done to one directory leaves the others intact. -/
theorem Files.Intact.setVersion {dir : Option VersionDir} (h : files.Intact record)
    (hne : record.releaseId ≠ some releaseId) :
  (files.setVersion releaseId dir).Intact record
  := by
  cases record with
  | base => trivial
  | payload release =>
      obtain ⟨found, hfound, hrest⟩ := h
      refine ⟨found, ?_, hrest⟩
      rw [Files.versions_setVersion_of_ne, hfound]
      intro heq
      apply hne
      rw [Record.releaseId, heq]

/-- A directory that was just staged is intact. -/
theorem intact_staged (package : Package) :
  (files.setVersion package.release.releaseId (some package.staged)).Intact package.record
  := by
  refine ⟨package.staged, ?_, rfl, ⟨rfl, rfl, rfl, rfl⟩⟩
  apply Files.versions_setVersion_self

/-- Anything may be done to a spare directory. -/
theorem Files.Safe.setVersion {dir : Option VersionDir} (h : files.Safe)
    (hspare : files.Spare releaseId) :
  (files.setVersion releaseId dir).Safe
  where
  current := h.current.setVersion hspare.current
  previous pending hpending := (h.previous pending hpending).setVersion
    (hspare.previous pending hpending)
  rollback rollback hrollback := (h.rollback rollback hrollback).setVersion
    (hspare.rollback rollback hrollback)
  apart := h.apart

theorem Files.Spare.setVersion {dir : Option VersionDir} {other : Text}
    (h : files.Spare releaseId) :
  (files.setVersion other dir).Spare releaseId
  := ⟨h.current, h.previous, h.rollback⟩

/-- Nothing is left to be done for an update that is not pending. -/
theorem Files.Safe.unlinkPending (h : files.Safe) :
  { files with pending := none }.Safe
  where
  current := h.current
  previous := by nofun
  rollback := h.rollback
  apart := by nofun

/-! ### What the reads tell -/

variable {package : Package}

/-- An incomplete update is removed when it is that of the package and is not active. -/
theorem recoverIncompletePending_true (h : files.recoverIncompletePending package = .ok true) :
  ∃ pending ∈ files.pending, files.current = pending.previous
    ∧ pending.target.releaseId = some package.release.releaseId
    ∧ files.sameRelease package = true
  := by
  rw [Files.recoverIncompletePending] at h
  split at h
  · cases h
  · rename_i pending hpending
    obtain ⟨-, -, h⟩ := Outcome.bind_eq_ok.mp h
    obtain ⟨-, -, h⟩ := Outcome.bind_eq_ok.mp h
    refine ⟨pending, hpending, ?_⟩
    split at h
    · cases h
    · rename_i hcurrent
      split at h
      · cases h
      · split at h
        · cases h
        · rename_i htarget
          split at h
          · cases h
          · rename_i hsame
            refine ⟨not_not.mp hcurrent, not_not.mp htarget, ?_⟩
            rw [Bool.not_eq_true', Bool.not_eq_false] at hsame
            apply hsame

theorem recoverIncompletePending_false (h : files.recoverIncompletePending package = .ok false) :
  files.pending = none
  := by
  rw [Files.recoverIncompletePending] at h
  split at h
  · assumption
  · obtain ⟨-, -, h⟩ := Outcome.bind_eq_ok.mp h
    obtain ⟨-, -, h⟩ := Outcome.bind_eq_ok.mp h
    repeat' split at h
    all_goals cases h

theorem rollbackReferences_false (h : files.rollbackReferences releaseId = .ok false) :
  ∀ rollback ∈ files.rollback, rollback.source.releaseId ≠ some releaseId
    ∧ rollback.target.releaseId ≠ some releaseId
  := by
  intro rollback hrollback
  rw [Files.rollbackReferences, Option.mem_def.mp hrollback] at h
  obtain ⟨-, -, h⟩ := Outcome.bind_eq_ok.mp h
  split at h
  · cases h
  · rename_i hsource
    obtain ⟨-, -, h⟩ := Outcome.bind_eq_ok.mp h
    exact ⟨hsource, of_decide_eq_false (Except.ok.inj h)⟩

/-- A package is staged when its release has no directory, or one that is neither active nor named
by the rollback record and has the package's own manifest. -/
theorem checkTarget_eq_ok {old : Bool} (h : files.checkTarget package = .ok old) :
  old = false ∧ files.versions package.release.releaseId = none
    ∨ old = true ∧ files.current.releaseId ≠ some package.release.releaseId
      ∧ files.rollbackReferences package.release.releaseId = .ok false
      ∧ files.sameRelease package = true
  := by
  obtain ⟨-, -, h⟩ := Outcome.bind_eq_ok.mp h
  split at h
  · left
    exact ⟨(Except.ok.inj h).symm, by assumption⟩
  · right
    split at h
    · cases h
    · rename_i hcurrent
      obtain ⟨references, hreferences, h⟩ := Outcome.bind_eq_ok.mp h
      split at h
      · cases h
      · rename_i hfalse
        rw [Bool.not_eq_true] at hfalse
        rw [hfalse] at hreferences
        split at h
        · cases h
        · rename_i hsame
          rw [Bool.not_eq_true', Bool.not_eq_false] at hsame
          exact ⟨(Except.ok.inj h).symm, hcurrent, hreferences, hsame⟩

theorem startComplete_eq_ok {success : Bool} {point : Point}
    (h : files.startComplete success = .ok point) :
  ∃ pending ∈ files.pending, point = .unlinkPending ∧ files.current = pending.previous
      ∧ files.current ≠ pending.target
    ∨ files.current = pending.target ∧
      (point = .writeRollback pending ∧ success = true
        ∨ point = .restore pending ∧ success = false)
  := by
  rw [Files.startComplete] at h
  split at h
  · cases h
  · rename_i pending hpending
    refine ⟨pending, hpending, ?_⟩
    obtain ⟨-, -, h⟩ := Outcome.bind_eq_ok.mp h
    obtain ⟨-, -, h⟩ := Outcome.bind_eq_ok.mp h
    split at h
    · rename_i htarget
      split at h
      · rename_i hprevious
        left
        exact ⟨(Except.ok.inj h).symm, hprevious.2, htarget⟩
      · cases h
    · rename_i htarget
      right
      use not_not.mp htarget
      split at h
      · left
        exact ⟨(Except.ok.inj h).symm, by assumption⟩
      · rename_i hfalse
        right
        rw [Bool.not_eq_true] at hfalse
        exact ⟨(Except.ok.inj h).symm, hfalse⟩

theorem startRollback_eq_ok {point : Point} (h : files.startRollback = .ok point) :
  files.pending = none ∧ ∃ rollback ∈ files.rollback, point = .switchBack rollback
    ∧ files.current = rollback.source
  := by
  rw [Files.startRollback] at h
  split at h
  · cases h
  · rename_i hpending
    use hpending
    split at h
    · cases h
    · rename_i rollback hrollback
      refine ⟨rollback, hrollback, ?_⟩
      obtain ⟨-, -, h⟩ := Outcome.bind_eq_ok.mp h
      obtain ⟨-, -, h⟩ := Outcome.bind_eq_ok.mp h
      split at h
      · cases h
      · rename_i hsource
        exact ⟨(Except.ok.inj h).symm, not_not.mp hsource⟩

/-! ### One step -/

/-- The directory that is to be removed before a package is staged again is spare. -/
theorem Files.Safe.spare_of_recover (h : files.Safe)
    (hrecover : files.recoverIncompletePending package = .ok true) :
  files.Spare package.release.releaseId
  := by
  obtain ⟨pending, hpending, hcurrent, htarget, -⟩ := recoverIncompletePending_true hrecover
  obtain ⟨hprevious, hrollback⟩ := h.apart pending hpending _ htarget
  refine ⟨?_, ?_, hrollback⟩
  · rw [hcurrent]
    apply hprevious
  · intro other hother
    obtain rfl := Option.mem_unique hpending hother
    apply hprevious

/-- The directory that a package is staged to is spare. -/
theorem Files.Safe.spare_of_checkTarget {old : Bool} (h : files.Safe)
    (hpending : files.pending = none) (hcheck : files.checkTarget package = .ok old) :
  files.Spare package.release.releaseId
  := by
  rcases checkTarget_eq_ok hcheck with ⟨-, hmissing⟩ | ⟨-, hcurrent, hreferences, -⟩
  · refine ⟨h.current.ne_of_missing hmissing, ?_, ?_⟩
    · rw [hpending]
      nofun
    · intro rollback hrollback
      apply (h.rollback rollback hrollback).ne_of_missing hmissing
  · refine ⟨hcurrent, ?_, ?_⟩
    · rw [hpending]
      nofun
    · intro rollback hrollback
      apply (rollbackReferences_false hreferences rollback hrollback).2

/-- The first reads of an operation find the files fit for its first step. -/
theorem fits_start {call : Call} (h : files.Safe) :
  (Point.ofExcept (files.start call)).Fits files
  := by
  cases hstart : files.start call with
  | error e => trivial
  | ok point =>
      show point.Fits files
      cases call with
      | install package =>
          obtain ⟨incomplete, hrecover, hpoint⟩ := Outcome.bind_eq_ok.mp hstart
          cases incomplete with
          | true =>
              obtain rfl := Except.ok.inj hpoint
              apply h.spare_of_recover hrecover
          | false =>
              obtain rfl := Except.ok.inj hpoint
              apply recoverIncompletePending_false hrecover
      | complete success =>
          obtain ⟨pending, hpending, ⟨rfl, -⟩ | ⟨-, ⟨rfl, -⟩ | ⟨rfl, -⟩⟩⟩ :=
            startComplete_eq_ok hstart
          · trivial
          · apply hpending
          · apply h.previous pending hpending
      | rollback =>
          obtain ⟨-, rollback, hrollback, rfl, -⟩ := startRollback_eq_ok hstart
          apply h.rollback rollback hrollback

theorem fits_afterRemove :
  (files.afterRemove package).Fits files
  := by
  rw [Files.afterRemove]
  split
  · trivial
  · trivial

theorem fits_select :
  files.select.Fits files
  := by
  rw [Files.select]
  split
  · trivial
  · trivial

/-- An interrupted operation still knows what it needs. -/
theorem fits_interrupt {point : Point} (h : point.Fits files) :
  (point.interrupt files).Fits files
  := by
  cases point with
  | extract package previous => exact fun _ => h.2.2
  | place package previous => exact fun _ => h.2.2
  | writePending package previous => exact fun _ => h.2.2.1
  | writeCurrent package previous => exact fun _ => h.2.1
  | installed package previous =>
      intro hcurrent
      apply (h.2 _).elim
      rw [← hcurrent, h.1]
      rfl
  | handleRemove package => apply fits_afterRemove
  | _ => trivial

/-- Every file operation keeps the files safe, and leads to one that fits them. -/
theorem perform_safe {point point' : Point} {files' : Files} (hsafe : files.Safe)
    (hfits : point.Fits files) (h : perform files point = some (files', point')) :
  files'.Safe ∧ point'.Fits files'
  := by
  cases point with
  | idle last => cases h
  | start call =>
      obtain ⟨rfl, rfl⟩ := Prod.mk.inj (Option.some.inj h)
      exact ⟨hsafe, fits_start hsafe⟩
  | recoverRemove package =>
      obtain ⟨rfl, rfl⟩ := Prod.mk.inj (Option.some.inj h)
      exact ⟨hsafe.setVersion hfits, trivial⟩
  | recoverUnlink package =>
      obtain ⟨rfl, rfl⟩ := Prod.mk.inj (Option.some.inj h)
      exact ⟨hsafe.unlinkPending, rfl⟩
  | checkTarget package =>
      obtain ⟨rfl, rfl⟩ := Prod.mk.inj (Option.some.inj h)
      use hsafe
      cases hcheck : files.checkTarget package with
      | error e => trivial
      | ok old =>
          have hspare := hsafe.spare_of_checkTarget hfits hcheck
          cases old with
          | true => exact ⟨hfits, rfl, hspare⟩
          | false => exact ⟨hfits, rfl, hspare⟩
  | removeOld package previous =>
      obtain ⟨rfl, rfl⟩ := Prod.mk.inj (Option.some.inj h)
      exact ⟨hsafe.setVersion hfits.2.2, hfits.1, hfits.2.1, hfits.2.2.setVersion⟩
  | extract package previous =>
      obtain ⟨rfl, rfl⟩ := Prod.mk.inj (Option.some.inj h)
      exact ⟨hsafe, hfits⟩
  | place package previous =>
      rw [perform] at h
      split at h
      · obtain ⟨rfl, rfl⟩ := Prod.mk.inj (Option.some.inj h)
        exact ⟨hsafe, fun _ => hfits.2.2⟩
      · obtain ⟨rfl, rfl⟩ := Prod.mk.inj (Option.some.inj h)
        use hsafe.setVersion hfits.2.2
        exact ⟨hfits.1, hfits.2.1, hfits.2.2.setVersion, intact_staged package⟩
  | writePending package previous =>
      obtain ⟨rfl, rfl⟩ := Prod.mk.inj (Option.some.inj h)
      obtain ⟨-, rfl, hspare, hintact⟩ := hfits
      constructor
      · refine ⟨hsafe.current, ?_, hsafe.rollback, ?_⟩
        · intro pending hpending
          obtain rfl := Option.some.inj hpending
          apply hsafe.current
        · intro pending hpending releaseId htarget
          obtain rfl := Option.some.inj hpending
          obtain rfl := Option.some.inj htarget
          exact ⟨hspare.current, hspare.rollback⟩
      · refine ⟨rfl, ⟨hspare.current, ?_, hspare.rollback⟩, hintact⟩
        intro pending hpending
        obtain rfl := Option.some.inj hpending
        apply hspare.current
  | writeCurrent package previous =>
      obtain ⟨rfl, rfl⟩ := Prod.mk.inj (Option.some.inj h)
      obtain ⟨rfl, hspare, hintact⟩ := hfits
      constructor
      · exact ⟨hintact, hsafe.previous, hsafe.rollback, hsafe.apart⟩
      · exact ⟨rfl, hspare.current⟩
  | installed package previous =>
      obtain ⟨rfl, rfl⟩ := Prod.mk.inj (Option.some.inj h)
      exact ⟨hsafe, trivial⟩
  | handle package previous =>
      obtain ⟨rfl, rfl⟩ := Prod.mk.inj (Option.some.inj h)
      use hsafe
      rw [Files.handle]
      split
      · trivial
      · rename_i hcurrent
        split
        · apply hfits (not_not.mp hcurrent)
        · apply fits_afterRemove
  | handleRemove package =>
      obtain ⟨rfl, rfl⟩ := Prod.mk.inj (Option.some.inj h)
      exact ⟨hsafe.setVersion hfits, fits_afterRemove⟩
  | handleUnlink =>
      obtain ⟨rfl, rfl⟩ := Prod.mk.inj (Option.some.inj h)
      exact ⟨hsafe.unlinkPending, trivial⟩
  | writeRollback pending =>
      obtain ⟨rfl, rfl⟩ := Prod.mk.inj (Option.some.inj h)
      refine ⟨⟨hsafe.current, hsafe.previous, ?_, ?_⟩, trivial⟩
      · intro rollback hrollback
        obtain rfl := Option.some.inj hrollback
        apply hsafe.previous pending hfits
      · intro other hother releaseId htarget
        obtain rfl := Option.mem_unique hfits hother
        obtain ⟨hprevious, -⟩ := hsafe.apart pending hother releaseId htarget
        use hprevious
        intro rollback hrollback
        obtain rfl := Option.some.inj hrollback
        apply hprevious
  | restore pending =>
      obtain ⟨rfl, rfl⟩ := Prod.mk.inj (Option.some.inj h)
      exact ⟨⟨hfits, hsafe.previous, hsafe.rollback, hsafe.apart⟩, trivial⟩
  | unlinkPending =>
      obtain ⟨rfl, rfl⟩ := Prod.mk.inj (Option.some.inj h)
      exact ⟨hsafe.unlinkPending, fits_select⟩
  | switchBack rollback =>
      obtain ⟨rfl, rfl⟩ := Prod.mk.inj (Option.some.inj h)
      exact ⟨⟨hfits, hsafe.previous, hsafe.rollback, hsafe.apart⟩, trivial⟩
  | unlinkRollback =>
      obtain ⟨rfl, rfl⟩ := Prod.mk.inj (Option.some.inj h)
      refine ⟨⟨hsafe.current, hsafe.previous, by nofun, ?_⟩, fits_select⟩
      intro pending hpending releaseId htarget
      exact ⟨(hsafe.apart pending hpending releaseId htarget).1, by nofun⟩

/-- A step that deletes has a spare directory. -/
theorem spare_of_removes {point : Point} (h : point.Fits files)
    (hremoves : point.removes = some releaseId) :
  files.Spare releaseId
  := by
  cases point with
  | recoverRemove package =>
      obtain rfl := Option.some.inj hremoves
      apply h
  | removeOld package previous =>
      obtain rfl := Option.some.inj hremoves
      apply h.2.2
  | handleRemove package =>
      obtain rfl := Option.some.inj hremoves
      apply h
  | _ => cases hremoves

/-- A step that deletes still fits when it has deleted a part. -/
theorem Point.Fits.tear {point : Point} {payload manifest signature : Bool} (h : point.Fits files)
    (hremoves : point.removes = some releaseId) :
  point.Fits (files.tear releaseId payload manifest signature)
  := by
  cases point with
  | recoverRemove package => apply Files.Spare.setVersion h
  | removeOld package previous => exact ⟨h.1, h.2.1, h.2.2.setVersion⟩
  | handleRemove package => apply Files.Spare.setVersion h
  | _ => cases hremoves

/-! ### All runs -/

/-- The files are safe and fit the next step. -/
def State.Safe (s : State) : Prop := s.files.Safe ∧ s.point.Fits s.files

theorem safe_step {s t : State} {a : Action} (hs : s.Safe) (h : next s a = some t) :
  t.Safe
  := by
  cases a with
  | call call =>
      rw [next] at h
      split at h
      · obtain rfl := Option.some.inj h
        exact ⟨hs.1, trivial⟩
      · cases h
  | advance =>
      obtain ⟨⟨files', point'⟩, hperform, rfl⟩ := Option.map_eq_some_iff.mp h
      apply perform_safe hs.1 hs.2 hperform
  | tear payload manifest signature =>
      obtain ⟨releaseId, hremoves, rfl⟩ := Option.map_eq_some_iff.mp h
      exact ⟨hs.1.setVersion (spare_of_removes hs.2 hremoves), hs.2.tear hremoves⟩
  | raise =>
      rw [next] at h
      split at h
      · cases h
      · obtain rfl := Option.some.inj h
        exact ⟨hs.1, fits_interrupt hs.2⟩
  | crash =>
      obtain rfl := Option.some.inj h
      exact ⟨hs.1, trivial⟩

theorem safe_of_reachable {s : State} (h : updater.Reachable s) :
  s.Safe
  := by
  apply h.invariant
  · rintro s rfl
    exact ⟨⟨trivial, by nofun, by nofun, by nofun⟩, trivial⟩
  · intro s a t hs hstep
    apply safe_step hs hstep

/-- In every state that can be reached, also in the middle of an operation, the active pointer is to
the base payload or to a directory that was staged for its release, has all its parts, and that no
step has started to delete; so the active payload resolves. -/
theorem active_payload_intact {s : State} (h : updater.Reachable s) :
  (s.files.current = .base ∨ ∃ release dir, s.files.current = .payload release
    ∧ s.files.versions release.releaseId = some dir ∧ dir.package.release = release ∧ dir.Whole)
    ∧ ∃ selection, s.files.resolveActive = .ok selection
  := by
  have hcurrent : s.files.Intact s.files.current := (safe_of_reachable h).1.current
  refine ⟨?_, hcurrent.selection⟩
  cases heq : s.files.current with
  | base =>
      left
      rfl
  | payload release =>
      right
      rw [heq] at hcurrent
      obtain ⟨dir, hdir⟩ := hcurrent
      exact ⟨release, dir, rfl, hdir⟩

/-! ### A run -/

/-- A package of the version. -/
def samplePackage (version : String) : Package :=
  ⟨⟨version.toList, "c".toList, "1".toList⟩, version.toList, "s".toList⟩

/-- A package is installed and found healthy; the installation of another dies before it is
selected, and so does the next attempt while it deletes what the first has left. -/
def sampleInstalls : List Action :=
  .call (.install (samplePackage "1")) :: List.replicate 7 .advance
    ++ .call (.complete true) :: List.replicate 3 .advance
    ++ .call (.install (samplePackage "2")) :: List.replicate 5 .advance
    ++ [.crash, .call (.install (samplePackage "2")), .advance, .tear false true true, .crash]

/-- The active payload is still that of the package that was found healthy. -/
theorem sampleInstalls_intact :
  ∃ s, sampleInstalls.foldlM next .fresh = some s
    ∧ s.files.current = .payload (samplePackage "1").release
    ∧ ∃ selection, s.files.resolveActive = .ok selection
  := by
  have hrun : (sampleInstalls.foldlM next .fresh).map (fun s => s.files.current)
      = some (.payload (samplePackage "1").release) := by rfl
  obtain ⟨s, hs, hcurrent⟩ := Option.map_eq_some_iff.mp hrun
  refine ⟨s, hs, hcurrent, (active_payload_intact ?_).2⟩
  apply (TransitionSystem.Reachable.initial rfl).later
  apply TransitionSystem.later_of_foldlM (fun s a t h => h) hs

end Updater

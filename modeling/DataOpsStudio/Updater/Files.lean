import DataOpsStudio.Library.Text
import DataOpsStudio.Library.TransitionSystem
import Mathlib.Logic.Function.Basic

/-!
# The files of the updater

The updater selects payloads with three small files: `current.json` names the active payload,
`pending.json` an update whose health is not yet verified, and `rollback.json` the way back from
the last committed update.  The payloads lie in one directory for each release.  The operations
hold a lock and so do not overlap, but an exception or a crash can come between any two of their
file operations, and the deletion of a directory can stop half way.
-/

namespace Updater

/-! ### Files -/

/-- The release that a payload belongs to. -/
structure ReleaseIdentity where
  version : Text
  commit : Text
  imageVersion : Text
deriving DecidableEq

/-- `_release_id`, the name of the directory of a release. -/
def ReleaseIdentity.releaseId (release : ReleaseIdentity) : Text :=
  release.version ++ "--".toList ++ release.commit

/-- A pointer to a payload.  A missing `current.json` points to the base payload. -/
inductive Record where
  | base
  | payload (release : ReleaseIdentity)
deriving DecidableEq

/-- The `release_id` of a pointer. -/
def Record.releaseId : Record → Option Text
  | .base => none
  | .payload release => some release.releaseId

/-- A package whose signature was verified: its release, and the bytes of its `manifest.json` and
`signature.json`. -/
structure Package where
  release : ReleaseIdentity
  manifestBytes : Text
  signatureBytes : Text
deriving DecidableEq

/-- The directory of a release: the package it was staged from, which of its parts are still
there, and whether a step has started to delete it. -/
structure VersionDir where
  package : Package
  payload : Bool
  manifest : Bool
  signature : Bool
  touched : Bool
deriving DecidableEq

/-- The content of `pending.json`. -/
structure Pending where
  previous : Record
  target : Record
deriving DecidableEq

/-- The content of `rollback.json`, with its fields `from` and `to`. -/
structure Rollback where
  source : Record
  target : Record
deriving DecidableEq

/-- The files of the updater. -/
structure Files where
  current : Record
  pending : Option Pending
  rollback : Option Rollback
  versions : Text → Option VersionDir

/-- What the operations raise; an interruption is an exception that comes from outside. -/
inductive UpdateError where
  | payloadMissing
  | alreadyPending
  | invalidPendingTarget
  | differentRelease
  | alreadyInstalled
  | collides
  | noPending
  | pendingMismatch
  | pendingFirst
  | noRollback
  | rollbackMismatch
  | interrupted
deriving DecidableEq

def UpdateError.message : UpdateError → String
  | .payloadMissing => "active update payload is missing"
  | .alreadyPending => "an update is already pending health verification"
  | .invalidPendingTarget => "invalid pending update target"
  | .differentRelease => "pending update belongs to a different signed release"
  | .alreadyInstalled => "update release is already installed"
  | .collides => "update release id collides with different staged content"
  | .noPending => "no update is pending health verification"
  | .pendingMismatch => "active payload does not match pending update"
  | .pendingFirst => "pending health verification must be completed before rollback"
  | .noRollback => "no committed update is available for rollback"
  | .rollbackMismatch => "active payload does not match rollback source"
  | .interrupted => ""

/-- A selected payload; the root is that of the bundle or the payload of a release id. -/
structure RuntimeSelection where
  root : Option Text
  release : Option ReleaseIdentity
deriving DecidableEq

/-! ### What the operations read -/

/-- The directory of the release has a payload directory. -/
def Files.hasPayload (files : Files) (releaseId : Text) : Bool :=
  match files.versions releaseId with
  | some dir => dir.payload
  | none => false

/-- `_selection`. -/
def Files.selection (files : Files) : Record → Except UpdateError RuntimeSelection
  | .base => .ok ⟨none, none⟩
  | .payload release =>
      if files.hasPayload release.releaseId then
        .ok ⟨some release.releaseId, some release⟩
      else
        .error .payloadMissing

/-- `_resolve_active_unlocked`. -/
def Files.resolveActive (files : Files) : Except UpdateError RuntimeSelection :=
  files.selection files.current

/-- The directory has the manifest and the signature of the package. -/
def VersionDir.sameRelease (dir : VersionDir) (package : Package) : Bool :=
  dir.manifest && dir.package.manifestBytes = package.manifestBytes
    && (dir.signature && dir.package.signatureBytes = package.signatureBytes)

/-- The directory of the package's release has the manifest and the signature of the package. -/
def Files.sameRelease (files : Files) (package : Package) : Bool :=
  match files.versions package.release.releaseId with
  | some dir => dir.sameRelease package
  | none => false

/-- The checks of `_recover_incomplete_pending`: whether an incomplete update is to be removed. -/
def Files.recoverIncompletePending (files : Files) (package : Package) :
    Except UpdateError Bool :=
  match files.pending with
  | none => .ok false
  | some pending => do
      let _ ← files.selection pending.previous
      let _ ← files.selection pending.target
      if files.current ≠ pending.previous then .error .alreadyPending
      else if pending.target.releaseId = none then .error .invalidPendingTarget
      else if pending.target.releaseId ≠ some package.release.releaseId then
        .error .differentRelease
      else if !files.sameRelease package then .error .differentRelease
      else .ok true

/-- `_rollback_references`. -/
def Files.rollbackReferences (files : Files) (releaseId : Text) : Except UpdateError Bool :=
  match files.rollback with
  | none => .ok false
  | some rollback => do
      let _ ← files.selection rollback.source
      if rollback.source.releaseId = some releaseId then .ok true
      else do
        let _ ← files.selection rollback.target
        .ok (decide (rollback.target.releaseId = some releaseId))

/-- What `_install_unlocked` checks before it stages a package: whether there is an old directory
of the release. -/
def Files.checkTarget (files : Files) (package : Package) : Except UpdateError Bool := do
  let _ ← files.selection files.current
  match files.versions package.release.releaseId with
  | none => .ok false
  | some _ =>
      if files.current.releaseId = some package.release.releaseId then .error .alreadyInstalled
      else
        let references ← files.rollbackReferences package.release.releaseId
        if references then .error .alreadyInstalled
        else if !files.sameRelease package then .error .collides
        else .ok true

/-! ### Operations -/

/-- The operations. -/
inductive Call where
  | install (package : Package)
  | complete (success : Bool)
  | rollback

/-- How an operation has ended. -/
inductive Outcome where
  | installed (release : ReleaseIdentity) (previous : Option ReleaseIdentity)
  | selected (selection : RuntimeSelection)
  | raised (error : UpdateError)
deriving DecidableEq

/-- Which file operation comes next, with the local variables of the operation. -/
inductive Point where
  | idle (last : Option Outcome)
  | start (call : Call)
  | recoverRemove (package : Package)
  | recoverUnlink (package : Package)
  | checkTarget (package : Package)
  | removeOld (package : Package) (previous : Record)
  | extract (package : Package) (previous : Record)
  | place (package : Package) (previous : Record)
  | writePending (package : Package) (previous : Record)
  | writeCurrent (package : Package) (previous : Record)
  | installed (package : Package) (previous : Record)
  | handle (package : Package) (previous : Record)
  | handleRemove (package : Package)
  | handleUnlink
  | writeRollback (pending : Pending)
  | restore (pending : Pending)
  | unlinkPending
  | switchBack (rollback : Rollback)
  | unlinkRollback

/-- An operation that has raised. -/
def Point.raised (error : UpdateError) : Point := .idle (some (.raised error))

/-- The end of an operation that returns a selection. -/
def Files.select (files : Files) : Point :=
  match files.resolveActive with
  | .ok selection => .idle (some (.selected selection))
  | .error e => .raised e

/-- The files with another directory of a release, or with none. -/
def Files.setVersion (files : Files) (releaseId : Text) (dir : Option VersionDir) : Files :=
  { files with versions := Function.update files.versions releaseId dir }

theorem Files.versions_setVersion_self (files : Files) (releaseId : Text)
    (dir : Option VersionDir) :
  (files.setVersion releaseId dir).versions releaseId = dir
  := Function.update_self _ _ _

theorem Files.versions_setVersion_of_ne (files : Files) {releaseId other : Text}
    (dir : Option VersionDir) (h : other ≠ releaseId) :
  (files.setVersion releaseId dir).versions other = files.versions other
  := Function.update_of_ne h _ _

/-- A directory that was just staged. -/
def Package.staged (package : Package) : VersionDir := ⟨package, true, true, true, false⟩

/-- The pointer to the payload of a package. -/
def Package.record (package : Package) : Record := .payload package.release

/-- The first reads of `_complete_unlocked` and its checks. -/
def Files.startComplete (files : Files) (success : Bool) : Except UpdateError Point :=
  match files.pending with
  | none => .error .noPending
  | some pending => do
      let _ ← files.selection pending.previous
      let _ ← files.selection pending.target
      if files.current ≠ pending.target then
        if !success ∧ files.current = pending.previous then .ok .unlinkPending
        else .error .pendingMismatch
      else if success then .ok (.writeRollback pending)
      else .ok (.restore pending)

/-- The first reads of `_rollback_unlocked` and its checks. -/
def Files.startRollback (files : Files) : Except UpdateError Point :=
  match files.pending with
  | some _ => .error .pendingFirst
  | none =>
      match files.rollback with
      | none => .error .noRollback
      | some rollback => do
          let _ ← files.selection rollback.source
          let _ ← files.selection rollback.target
          if files.current ≠ rollback.source then .error .rollbackMismatch
          else .ok (.switchBack rollback)

/-- The first reads of an operation. -/
def Files.start (files : Files) : Call → Except UpdateError Point
  | .install package => do
      let incomplete ← files.recoverIncompletePending package
      if incomplete then .ok (.recoverRemove package) else .ok (.checkTarget package)
  | .complete success => files.startComplete success
  | .rollback => files.startRollback

/-- The last check of the exception handler of `_install_unlocked`. -/
def Files.afterRemove (files : Files) (package : Package) : Point :=
  if files.pending.isSome && (files.versions package.release.releaseId).isNone then .handleUnlink
  else .raised .interrupted

/-- The exception handler of `_install_unlocked` up to its first file operation. -/
def Files.handle (files : Files) (package : Package) (previous : Record) : Point :=
  if files.current ≠ previous then .raised .interrupted
  else if (files.versions package.release.releaseId).isSome then .handleRemove package
  else files.afterRemove package

/-- The point that the checks lead to. -/
def Point.ofExcept : Except UpdateError Point → Point
  | .ok point => point
  | .error e => .raised e

/-- The release that a pointer selects. -/
def Record.release : Record → Option ReleaseIdentity
  | .base => none
  | .payload release => some release

/-- The next file operation of an operation, with the reads that follow it. -/
def perform (files : Files) : Point → Option (Files × Point)
  | .idle _ => none
  | .start call => some (files, .ofExcept (files.start call))
  | .recoverRemove package =>
      some (files.setVersion package.release.releaseId none, .recoverUnlink package)
  | .recoverUnlink package => some ({ files with pending := none }, .checkTarget package)
  | .checkTarget package =>
      some (files, .ofExcept ((files.checkTarget package).map (fun old =>
        if old then .removeOld package files.current else .extract package files.current)))
  | .removeOld package previous =>
      some (files.setVersion package.release.releaseId none, .extract package previous)
  | .extract package previous => some (files, .place package previous)
  | .place package previous =>
      match files.versions package.release.releaseId with
      | some _ => some (files, .handle package previous)
      | none =>
          some (files.setVersion package.release.releaseId (some package.staged),
            .writePending package previous)
  | .writePending package previous =>
      some ({ files with pending := some ⟨previous, package.record⟩ },
        .writeCurrent package previous)
  | .writeCurrent package previous =>
      some ({ files with current := package.record }, .installed package previous)
  | .installed package previous =>
      some (files, .idle (some (.installed package.release previous.release)))
  | .handle package previous => some (files, files.handle package previous)
  | .handleRemove package =>
      some (files.setVersion package.release.releaseId none,
        (files.setVersion package.release.releaseId none).afterRemove package)
  | .handleUnlink => some ({ files with pending := none }, .raised .interrupted)
  | .writeRollback pending =>
      some ({ files with rollback := some ⟨pending.target, pending.previous⟩ }, .unlinkPending)
  | .restore pending => some ({ files with current := pending.previous }, .unlinkPending)
  | .unlinkPending =>
      some ({ files with pending := none }, { files with pending := none }.select)
  | .switchBack rollback => some ({ files with current := rollback.target }, .unlinkRollback)
  | .unlinkRollback =>
      some ({ files with rollback := none }, { files with rollback := none }.select)

/-- Where an exception leads to.  Only the staging of a package handles exceptions, and its handler
goes on when the deletion of the directory raises. -/
def Point.interrupt (files : Files) : Point → Point
  | .extract package previous => .handle package previous
  | .place package previous => .handle package previous
  | .writePending package previous => .handle package previous
  | .writeCurrent package previous => .handle package previous
  | .installed package previous => .handle package previous
  | .handleRemove package => files.afterRemove package
  | _ => .raised .interrupted

/-- The release whose directory the next step deletes. -/
def Point.removes : Point → Option Text
  | .recoverRemove package => some package.release.releaseId
  | .removeOld package _ => some package.release.releaseId
  | .handleRemove package => some package.release.releaseId
  | _ => none

/-- A directory some of whose files were deleted: what the parts are that are still there. -/
def VersionDir.tear (dir : VersionDir) (payload manifest signature : Bool) : VersionDir where
  package := dir.package
  payload := dir.payload && payload
  manifest := dir.manifest && manifest
  signature := dir.signature && signature
  touched := true

/-- The files after the deletion of a directory has gone on, but not come to its end. -/
def Files.tear (files : Files) (releaseId : Text) (payload manifest signature : Bool) : Files :=
  files.setVersion releaseId
    ((files.versions releaseId).map (fun dir => dir.tear payload manifest signature))

/-! ### Runs -/

/-- The files, and where the operation is that holds the lock. -/
structure State where
  files : Files
  point : Point

/-- An operation is called, makes its next file operation, deletes a part of a directory, is
interrupted by an exception, or dies. -/
inductive Action where
  | call (call : Call)
  | advance
  | tear (payload manifest signature : Bool)
  | raise
  | crash

/-- A step of a run, if it can be taken. -/
def next (s : State) : Action → Option State
  | .call call =>
      match s.point with
      | .idle _ => some { s with point := .start call }
      | _ => none
  | .advance => (perform s.files s.point).map (fun r => ⟨r.1, r.2⟩)
  | .tear payload manifest signature =>
      s.point.removes.map (fun releaseId =>
        { s with files := s.files.tear releaseId payload manifest signature })
  | .raise =>
      match s.point with
      | .idle _ => none
      | point => some { s with point := point.interrupt s.files }
  | .crash => some { s with point := .idle none }

/-- A fresh bundle: nothing was installed yet. -/
def State.fresh : State where
  files := ⟨.base, none, none, fun _ => none⟩
  point := .idle none

/-- The updater on a bundle, from a fresh one on. -/
def updater : TransitionSystem State Action where
  initial s := s = .fresh
  step s a t := next s a = some t

end Updater

import DataOpsStudio.Results.Spool
import Mathlib.Algebra.GroupWithZero.Nat
import Mathlib.Logic.Function.Basic
import Mathlib.Tactic.Common

/-!
# Hard links

A snapshot of a spool is a directory of its own.  Its part files are hard links to the files of the
source where the file system has them, and copies where it does not, so that a file may be written
through one name and read through another.  A part is written to a file that no manifest lists, in
place if there is such a file, and the manifest that lists it is written after it.

To a reader the store is one in which a snapshot copies the rows.
-/

namespace Results

open Text

/-! ### Files and names -/

/-- A directory whose part files are names of inodes. -/
structure LinkedDir where
  manifest : Option SpoolManifest := none
  links : ℕ → Option ℕ := fun _ => none

def LinkedDir.readManifest (dir : LinkedDir) : SpoolManifest :=
  dir.manifest.getD {}

/-- The directories of a store, and the rows in its files. -/
structure LinkedStore (Id Row : Type) where
  dirs : Id → Option LinkedDir := fun _ => none
  inodes : List (List Row) := []

/-- What is done to the part files when rows are appended. -/
inductive DiskAction (Row : Type) where
  | writePart (index : ℕ) (rows : List Row)
  | unlinkPart (index : ℕ)

/-- The part file that an action is about. -/
def DiskAction.index {Row : Type} : DiskAction Row → ℕ
  | .writePart index _ => index
  | .unlinkPart index => index

/-- What the store raises. -/
inductive StoreError where
  | sealedSpool
  | sameResultSet
  | snapshotExists
  | fileNotFound
deriving DecidableEq

/-- A manifest as it is written: its version goes up, and what is truncated has more rows. -/
def SpoolManifest.filed (manifest : SpoolManifest) : SpoolManifest :=
  { manifest with
    hasMore := manifest.hasMore || manifest.truncated
    resultVersion := manifest.resultVersion + 1 }

/-- The manifest of a snapshot, whose parts have the sizes of their files. -/
def SpoolManifest.snapshot (manifest : SpoolManifest) (bytes : PartInfo → ℕ) : SpoolManifest :=
  SpoolManifest.filed
    { parts := manifest.parts.map fun part => { part with bytes := bytes part }
      columns := manifest.columns
      loadedRows := manifest.loadedRows
      dataBytes := (manifest.parts.map bytes).sum
      isSealed := true
      truncated := manifest.truncated
      hasMore := manifest.hasMore }

/-! ### Appending rows to the files -/

section Actions

variable {Row : Type}

/-- The rows are written; where they need too many bytes the file is removed, and those rows that
fit are written. -/
def fitActions (limits : SpoolLimits Row) (index : ℕ) (candidates : List Row)
    (remainingBytes : ℕ) : List (DiskAction Row) :=
  .writePart index candidates ::
    if limits.partBytes candidates ≤ remainingBytes then []
    else
      .unlinkPart index ::
        match fitRowsToRemainingBytes limits candidates remainingBytes with
        | [] => []
        | row :: more => [.writePart index (row :: more)]

/-- Writes those of the candidates that fit to a new part, and then the manifest. -/
def partActions (limits : SpoolLimits Row) (manifest : SpoolManifest) (candidates : List Row) :
    List (DiskAction Row) × SpoolManifest :=
  let index := manifest.parts.length + 1
  let remainingBytes := limits.maxBytes - manifest.dataBytes
  (fitActions limits index candidates remainingBytes,
    match fitRowsToRemainingBytes limits candidates remainingBytes with
    | [] => { manifest with truncated := true }
    | row :: more =>
        let written := row :: more
        let manifest := { manifest with
          truncated := manifest.truncated || written.length < candidates.length }
        manifest.addPart limits index written)

/-- The part files that are written when rows are appended to a spool, and the manifest that is
written after them, if one is. -/
def appendActions (limits : SpoolLimits Row) (rows : List Row) (manifest : SpoolManifest) :
    Except StoreError (List (DiskAction Row) × Option SpoolManifest) :=
  if manifest.isSealed then .error .sealedSpool
  else if manifest.truncated then .ok ([], none)
  else if limits.maxRows ≤ manifest.loadedRows then
    .ok ([], some { manifest with truncated := true })
  else
    let candidates := rows.take (limits.maxRows - manifest.loadedRows)
    if limits.maxBytes ≤ manifest.dataBytes then
      .ok ([], some { manifest with truncated := true })
    else
      let actions := partActions limits
        { manifest with truncated := candidates.length < rows.length } candidates
      .ok (actions.1, some actions.2)

end Actions

/-! ### The store with hard links -/

namespace LinkedStore

variable {Id Row : Type}

def dir (store : LinkedStore Id Row) (id : Id) : LinkedDir :=
  (store.dirs id).getD {}

/-- The rows in a part file. -/
def file? (store : LinkedStore Id Row) (id : Id) (index : ℕ) : Option (List Row) :=
  ((store.dir id).links index).bind fun inode => store.inodes[inode]?

/-- A spool as it is read: the parts that its manifest lists. -/
def view (store : LinkedStore Id Row) (id : Id) : SpoolDir Row :=
  { manifest := (store.dir id).manifest
    files := Dict.ofList ((store.dir id).readManifest.parts.map fun part =>
      (part.index, (store.file? id part.index).getD [])) }

variable [DecidableEq Id]

def setDir (store : LinkedStore Id Row) (id : Id) (dir : LinkedDir) : LinkedStore Id Row :=
  { store with dirs := Function.update store.dirs id (some dir) }

def setInodes (store : LinkedStore Id Row) (inodes : List (List Row)) : LinkedStore Id Row :=
  { store with inodes := inodes }

/-- To look for a manifest makes the directory. -/
def touch (store : LinkedStore Id Row) (id : Id) : LinkedStore Id Row :=
  store.setDir id (store.dir id)

/-- Writes to the disk.  A file that is there is written in place. -/
def perform (store : LinkedStore Id Row) (id : Id) : DiskAction Row → LinkedStore Id Row
  | .writePart index rows =>
      match (store.dir id).links index with
      | some inode => store.setInodes (store.inodes.set inode rows)
      | none =>
          (store.setDir id { store.dir id with
            links := Function.update (store.dir id).links index
              (some store.inodes.length) }).setInodes (store.inodes ++ [rows])
  | .unlinkPart index =>
      store.setDir id { store.dir id with
        links := Function.update (store.dir id).links index none }

/-- Performs one action after the other. -/
def performAll (store : LinkedStore Id Row) (id : Id) (actions : List (DiskAction Row)) :
    LinkedStore Id Row :=
  actions.foldl (fun store action => store.perform id action) store

def writeManifest (store : LinkedStore Id Row) (id : Id) (manifest : SpoolManifest) :
    LinkedStore Id Row :=
  store.setDir id { store.dir id with manifest := some manifest.filed }

def appendSpool (limits : SpoolLimits Row) (id : Id) (rows : List Row)
    (store : LinkedStore Id Row) : Except StoreError (LinkedStore Id Row) :=
  if rows.isEmpty then .ok store
  else
    (appendActions limits rows (store.dir id).readManifest).map fun actions =>
      let store := (store.touch id).performAll id actions.1
      match actions.2 with
      | none => store
      | some manifest => store.writeManifest id manifest

/-- An append that ends after some of the part files have been written. -/
def appendInterrupted (limits : SpoolLimits Row) (id : Id) (rows : List Row) (stop : ℕ)
    (store : LinkedStore Id Row) : Except StoreError (LinkedStore Id Row) :=
  if rows.isEmpty then .ok store
  else
    (appendActions limits rows (store.dir id).readManifest).map fun actions =>
      (store.touch id).performAll id (actions.1.take stop)

/-- Changes the manifest of a spool that is not sealed; `none` leaves it. -/
def changeManifest (id : Id) (change : SpoolManifest → Option SpoolManifest)
    (store : LinkedStore Id Row) : Except StoreError (LinkedStore Id Row) :=
  let manifest := (store.dir id).readManifest
  if manifest.isSealed then .error .sealedSpool
  else
    match change manifest with
    | none => .ok (store.touch id)
    | some manifest => .ok (store.writeManifest id manifest)

/-- Links the parts of the source into the new directory; a part is copied where the file system
refuses the link. -/
def linkParts (source : LinkedDir) (linkable : ℕ → Bool) :
    List PartInfo → (ℕ → Option ℕ) → List (List Row) →
      Except StoreError ((ℕ → Option ℕ) × List (List Row))
  | [], links, inodes => .ok (links, inodes)
  | part :: parts, links, inodes =>
      match source.links part.index with
      | none => .error .fileNotFound
      | some inode =>
          if linkable part.index then
            linkParts source linkable parts
              (Function.update links part.index (some inode)) inodes
          else
            linkParts source linkable parts
              (Function.update links part.index (some inodes.length))
              (inodes ++ [(inodes[inode]?).getD []])

def snapshotSpool (limits : SpoolLimits Row) (source target : Id) (linkable : ℕ → Bool)
    (store : LinkedStore Id Row) : Except StoreError (LinkedStore Id Row) :=
  if source = target then .error .sameResultSet
  else
    match (store.dir source).manifest with
    | none => .error .fileNotFound
    | some manifest =>
        if (store.dirs target).isSome then .error .snapshotExists
        else
          (linkParts (store.dir source) linkable manifest.parts (fun _ => none)
            store.inodes).map fun linked =>
              (store.setDir target
                { manifest := some (manifest.snapshot fun part =>
                    limits.partBytes ((store.file? source part.index).getD []))
                  links := linked.1 }).setInodes linked.2

def deleteSpool (id : Id) (store : LinkedStore Id Row) : LinkedStore Id Row :=
  { store with dirs := Function.update store.dirs id none }

end LinkedStore

/-! ### The operations of the store -/

/-- What is done to the store.  To read a spool makes its directory. -/
inductive StoreOp (Id Row : Type) where
  | read (id : Id)
  | append (id : Id) (rows : List Row)
  | appendInterrupted (id : Id) (rows : List Row) (stop : ℕ)
  | markTruncated (id : Id)
  | setPagination (id : Id) (hasMore : Bool)
  | setColumns (id : Id) (columns : List Text)
  | snapshot (source target : Id) (linkable : ℕ → Bool)
  | delete (id : Id)

namespace LinkedStore

variable {Id Row : Type} [DecidableEq Id]

def step (limits : SpoolLimits Row) (store : LinkedStore Id Row) :
    StoreOp Id Row → Except StoreError (LinkedStore Id Row)
  | .read id => .ok (store.touch id)
  | .append id rows => store.appendSpool limits id rows
  | .appendInterrupted id rows stop => store.appendInterrupted limits id rows stop
  | .markTruncated id =>
      store.changeManifest id fun manifest =>
        if manifest.truncated ∧ manifest.hasMore then none
        else some { manifest with truncated := true, hasMore := true }
  | .setPagination id hasMore =>
      store.changeManifest id fun manifest =>
        some { manifest with hasMore := hasMore || manifest.truncated }
  | .setColumns id columns =>
      store.changeManifest id fun manifest => some { manifest with columns := columns }
  | .snapshot source target linkable => store.snapshotSpool limits source target linkable
  | .delete id => .ok (store.deleteSpool id)

end LinkedStore

/-! ### The store with copies -/

/-- A store in which every directory has its own rows. -/
structure CopyStore (Id Row : Type) where
  dirs : Id → Option (SpoolDir Row) := fun _ => none

namespace CopyStore

variable {Id Row : Type}

def dir (store : CopyStore Id Row) (id : Id) : SpoolDir Row :=
  (store.dirs id).getD {}

variable [DecidableEq Id]

def setDir (store : CopyStore Id Row) (id : Id) (dir : SpoolDir Row) : CopyStore Id Row :=
  { store with dirs := Function.update store.dirs id (some dir) }

def touch (store : CopyStore Id Row) (id : Id) : CopyStore Id Row :=
  store.setDir id (store.dir id)

/-- Applies an operation to one spool. -/
def modify (store : CopyStore Id Row) (id : Id)
    (operation : SpoolDir Row → Except ResultStoreError (SpoolDir Row)) :
    Except StoreError (CopyStore Id Row) :=
  match operation (store.dir id) with
  | .error .sealedSpool => .error .sealedSpool
  | .ok dir => .ok (store.setDir id dir)

/-- A snapshot has the rows of its source. -/
def snapshotSpool (limits : SpoolLimits Row) (source target : Id) (store : CopyStore Id Row) :
    Except StoreError (CopyStore Id Row) :=
  if source = target then .error .sameResultSet
  else
    match (store.dir source).manifest with
    | none => .error .fileNotFound
    | some manifest =>
        if (store.dirs target).isSome then .error .snapshotExists
        else
          .ok (store.setDir target { store.dir source with
            manifest := some (manifest.snapshot fun part =>
              limits.partBytes ((store.dir source).partRows part)) })

/-- An append that is interrupted leaves the rows as they are. -/
def step (limits : SpoolLimits Row) (store : CopyStore Id Row) :
    StoreOp Id Row → Except StoreError (CopyStore Id Row)
  | .read id => .ok (store.touch id)
  | .append id rows =>
      if rows.isEmpty then .ok store else store.modify id (Results.appendSpool limits rows)
  | .appendInterrupted id rows _ =>
      if rows.isEmpty then .ok store
      else if (store.dir id).readManifest.isSealed then .error .sealedSpool
      else .ok (store.touch id)
  | .markTruncated id => store.modify id markSpoolTruncated
  | .setPagination id hasMore => store.modify id (setSpoolPagination hasMore)
  | .setColumns id columns => store.modify id (setSpoolColumns columns)
  | .snapshot source target _ => store.snapshotSpool limits source target
  | .delete id => .ok { store with dirs := Function.update store.dirs id none }

end CopyStore

end Results

import DataOpsStudio.Library.Text
import Mathlib.Algebra.Ring.Int.Defs
import Mathlib.Data.List.Nodup

/-!
# The extraction of an update

The files of an update lie in an archive, and a signed manifest says what they are.  They are
checked and written in one loop: after each turn the files that are written are those of the records
that were read.  What is left over in the archive is looked for at the end.
-/

namespace Updater

/-! ### Archives and manifests -/

/-- The bytes of a file. -/
abbrev Bytes := List UInt8

/-- A value of a manifest, as it is read from JSON. -/
inductive Json where
  | null
  | bool (b : Bool)
  | int (n : ℤ)
  | float (digits : Text)
  | str (s : Text)
  | list (items : List Json)
  | dict (items : List (Text × Json))

/-- An entry of an archive: its name, its attributes, and what each read of it gives, where a read
may raise. -/
structure ZipInfo where
  filename : Text
  externalAttr : ℕ
  reads : List (Option Bytes)

/-- What is raised: an error with a message, a missing entry, or an error of the archive or of the
file system. -/
inductive Raised where
  | valueError (message : Text)
  | keyError (name : Text)
  | badZip
  | osError
deriving DecidableEq

/-- Raises an error when something is the case. -/
def raiseIf (condition : Bool) (message : String) : Except Raised Unit :=
  if condition then .error (.valueError message.toList) else .ok ()

/-- Whether an entry is a directory. -/
def ZipInfo.isDir (info : ZipInfo) : Bool := info.filename.getLast? == some '/'

/-- The entry of a name; where there are several it is the last one. -/
def getinfo (archive : List ZipInfo) (name : Text) : Except Raised ZipInfo :=
  match archive.reverse.find? (fun info => info.filename == name) with
  | some info => .ok info
  | none => .error (.keyError name)

/-- Whether an entry is a symbolic link. -/
def ZipInfo.isSymlink (info : ZipInfo) : Bool :=
  let unixMode := info.externalAttr >>> 16
  unixMode != 0 && (unixMode &&& 0o170000) == 0o120000

/-! ### Paths -/

/-- A path: its root, and the names of its parts. -/
structure PurePosixPath where
  root : Text
  names : List Text

/-- Reads a path.  Empty parts and single dots are dropped, and exactly two slashes in front are a
root of their own. -/
def purePosixPath (path : Text) : PurePosixPath where
  root :=
    if "//".toList.isPrefixOf path && !"///".toList.isPrefixOf path then "//".toList
    else if "/".toList.isPrefixOf path then "/".toList
    else []
  names := (path.splitOn '/').filter (fun part => part != [] && part != ".".toList)

namespace PurePosixPath

def parts (pure : PurePosixPath) : List Text :=
  if pure.root = [] then pure.names else pure.root :: pure.names

def isAbsolute (pure : PurePosixPath) : Bool := pure.root != []

def asPosix (pure : PurePosixPath) : Text :=
  if pure.root = [] ∧ pure.names = [] then ".".toList
  else pure.root ++ Text.join "/".toList pure.names

end PurePosixPath

/-- The parts of a path after going up where it says so; there are no links to follow. -/
def resolve (parts : List Text) : List Text :=
  parts.foldl (fun place part => if part = "..".toList then place.dropLast else place ++ [part]) []

def windowsInvalidPathChars : List Char := "<>:\"|?*".toList

def windowsReservedNames : List Text :=
  ["con", "prn", "aux", "nul", "com1", "com2", "com3", "com4", "com5", "com6", "com7", "com8",
    "com9", "lpt1", "lpt2", "lpt3", "lpt4", "lpt5", "lpt6", "lpt7", "lpt8", "lpt9"].map
    String.toList

/-- Whether a part of a path means something else on Windows. -/
def unsafeWindowsComponent (casefold : Text → Text) (part : Text) : Bool :=
  let normalized := part.rdropWhile (fun c => c == ' ' || c == '.')
  let stem := casefold (normalized.takeWhile (fun c => c != '.'))
  normalized != part || part.any (fun c => windowsInvalidPathChars.contains c)
    || windowsReservedNames.contains stem

/-! ### The file system -/

/-- A file system: the bytes of its files, and its directories. -/
structure Tree where
  file? : List Text → Option Bytes
  isDir : List Text → Bool

/-- Makes a directory and all directories above it.  It raises when one of them is a file, and where
the file system refuses. -/
def Tree.mkdir (tree : Tree) (refuses : List Text → Bool) (place : List Text) :
    Except Raised Tree :=
  if place.inits.any (fun above => (tree.file? above).isSome) || refuses place then .error .osError
  else .ok { tree with isDir := fun other => tree.isDir other || other.isPrefixOf place }

/-- Writes the bytes of a file. -/
def Tree.write (tree : Tree) (place : List Text) (bytes : Bytes) : Tree :=
  { tree with file? := Function.update tree.file? place (some bytes) }

/-- Opens a file to write it, in place of one that is there.  It raises over a directory, and where
the file system refuses. -/
def Tree.openFile (tree : Tree) (refuses : List Text → Bool) (place : List Text) :
    Except Raised Tree :=
  if tree.isDir place || refuses place then .error .osError
  else .ok (tree.write place [])

/-! ### The loop -/

def maxFiles : ℕ := 20000

def maxPayloadBytes : ℕ := 128 * 1024 * 1024

/-- A copy of a stream: what was digested and written so far, and its size. -/
structure Copied where
  digested : Bytes
  written : Bytes
  size : ℕ

/-- `_sha256_stream`, which copies what is read up to an empty read. -/
def sha256Stream (copied : Copied) : List (Option Bytes) → Except Raised Copied
  | [] => .ok copied
  | none :: _ => .error .badZip
  | some chunk :: reads =>
      if chunk = [] then .ok copied
      else if maxPayloadBytes < copied.size + chunk.length then
        .error (.valueError "update payload exceeds size limit".toList)
      else sha256Stream
        ⟨copied.digested ++ chunk, copied.written ++ chunk, copied.size + chunk.length⟩ reads

/-- The variables of the loop over the records. -/
structure Progress where
  expectedNames : List Text
  totalSize : ℤ
  seen : List Text
  hasApp : Bool
  hasFrontend : Bool
  tree : Tree

/-- Whether the keys of a record are as they must be. -/
def isFileRecord (fields : List (Text × Json)) : Bool :=
  let keys := ["path".toList, "sha256".toList, "size".toList]
  keys.all (fun key => (fields.map Prod.fst).contains key)
    && (fields.map Prod.fst).all (fun key => keys.contains key)

/-- The fields of a record. -/
def recordFields : Json → Except Raised (List (Text × Json))
  | .dict fields =>
      if isFileRecord fields then .ok fields
      else .error (.valueError "invalid update file record".toList)
  | _ => .error (.valueError "invalid update file record".toList)

/-- A field that must be a text. -/
def strField (fields : List (Text × Json)) (key message : String) : Except Raised Text :=
  match fields.lookup key.toList with
  | some (.str s) => .ok s
  | _ => .error (.valueError message.toList)

/-- A field that must be an integer. -/
def intField (fields : List (Text × Json)) (key message : String) : Except Raised ℤ :=
  match fields.lookup key.toList with
  | some (.int n) => .ok n
  | _ => .error (.valueError message.toList)

/-- Whether a text is the hexadecimal text of a digest. -/
def isSha256 (s : Text) : Bool :=
  s.length == 64 && s.all (fun c => "0123456789abcdef".toList.contains c)

/-- What an extraction works with: case folding, the digest of bytes, what the file system refuses,
the archive and the destination. -/
structure Extraction where
  casefold : Text → Text
  hexdigest : Bytes → Text
  refuses : List Text → Bool
  archive : List ZipInfo
  destination : List Text

namespace Extraction

/-- The name of a file in the archive. -/
def archiveName (path : Text) : Text := "payload/".toList ++ path

/-- Where a file is written to. -/
def output (x : Extraction) (path : Text) : List Text :=
  resolve (x.destination ++ (purePosixPath path).names)

/-- Copies an entry to its place. -/
def copyEntry (x : Extraction) (tree : Tree) (path sha256 : Text) (size : ℤ) :
    Except Raised Tree := do
  let info ← getinfo x.archive (archiveName path)
  raiseIf info.isSymlink "update payload must not contain symlinks"
  let destinationRoot := resolve x.destination
  let place := x.output path
  raiseIf (!destinationRoot.isPrefixOf place) "unsafe update path"
  let tree ← tree.mkdir x.refuses place.dropLast
  let tree ← tree.openFile x.refuses place
  let copied ← sha256Stream ⟨[], [], 0⟩ info.reads
  let tree := tree.write place copied.written
  raiseIf (copied.size != size || x.hexdigest copied.digested != sha256)
    ("update file verification failed: " ++ String.ofList path)
  return tree

/-- One turn of the loop. -/
def extractFile (x : Extraction) (progress : Progress) (item : Json) : Except Raised Progress := do
  let fields ← recordFields item
  let path ← strField fields "path" "invalid or duplicate update path"
  let pure := purePosixPath path
  let folded := x.casefold path
  raiseIf (progress.seen.contains folded) "invalid or duplicate update path"
  raiseIf (pure.isAbsolute || pure.asPosix != path || pure.parts.contains "..".toList
    || path.contains '\\') "unsafe update path"
  raiseIf (pure.parts.any (unsafeWindowsComponent x.casefold)) "unsafe update path"
  let isApp := "app/".toList.isPrefixOf path
  let isFrontend := !isApp && "frontend/dist/".toList.isPrefixOf path
  raiseIf (!isApp && !isFrontend) "payload may contain only app/ and frontend/dist/"
  let sha256 ← strField fields "sha256" "invalid update file sha256"
  raiseIf (!isSha256 sha256) "invalid update file sha256"
  let size ← intField fields "size" "invalid update file size"
  raiseIf (decide (size < 0)) "invalid update file size"
  let totalSize := progress.totalSize + size
  raiseIf (decide ((maxPayloadBytes : ℤ) < totalSize)) "update payload exceeds size limit"
  let tree ← x.copyEntry progress.tree path sha256 size
  return {
    expectedNames := progress.expectedNames ++ [archiveName path]
    totalSize := totalSize
    seen := progress.seen ++ [folded]
    hasApp := progress.hasApp || isApp
    hasFrontend := progress.hasFrontend || isFrontend
    tree := tree }

/-- The names of the entries that are no directories. -/
def actualNames (x : Extraction) : List Text :=
  (x.archive.filter (fun info => !info.isDir)).map ZipInfo.filename

/-- `_extract`, with the file system that it leaves behind. -/
def extract (x : Extraction) (manifest : List (Text × Json)) (tree : Tree) :
    Except Raised Tree := do
  let some (.list files) := manifest.lookup "files".toList
    | .error (.valueError "invalid update file list".toList)
  raiseIf (!(decide (1 ≤ files.length) && decide (files.length ≤ maxFiles)))
    "invalid update file list"
  let progress ← files.foldlM x.extractFile
    ⟨["manifest.json".toList, "signature.json".toList], 0, [], false, false, tree⟩
  raiseIf (!progress.hasApp || !progress.hasFrontend) "payload must contain app/ and frontend/dist/"
  raiseIf (!(x.actualNames.all (fun name => progress.expectedNames.contains name)
    && progress.expectedNames.all (fun name => x.actualNames.contains name)))
    "update package contains unmanifested files"
  return progress.tree

end Extraction

/-! ### Steps that do not raise -/

theorem bind_eq_ok {ε α β : Type} {m : Except ε α} {f : α → Except ε β} {b : β} :
  (m >>= f) = .ok b ↔ ∃ a, m = .ok a ∧ f a = .ok b
  := by
  cases m with
  | error e =>
      constructor
      · intro h
        cases h
      · rintro ⟨a, h, -⟩
        cases h
  | ok a =>
      constructor
      · intro h
        exact ⟨a, rfl, h⟩
      · rintro ⟨a', h, h'⟩
        cases h
        exact h'

theorem raiseIf_eq_ok {condition : Bool} {message : String} {u : Unit} :
  raiseIf condition message = .ok u ↔ condition = false
  := by
  rw [raiseIf]
  cases condition with
  | false => exact iff_of_true rfl rfl
  | true =>
      refine iff_of_false ?_ Bool.noConfusion
      intro h
      cases h

theorem Tree.mkdir_file? {tree tree' : Tree} {refuses : List Text → Bool} {place : List Text}
    (h : tree.mkdir refuses place = .ok tree') :
  tree'.file? = tree.file?
  := by
  rw [Tree.mkdir] at h
  split at h
  · cases h
  · cases h
    rfl

theorem Tree.openFile_file? {tree tree' : Tree} {refuses : List Text → Bool} {place : List Text}
    (h : tree.openFile refuses place = .ok tree') :
  tree'.file? = Function.update tree.file? place (some [])
  := by
  rw [Tree.openFile] at h
  split at h
  · cases h
  · cases h
    rfl

/-- The bytes of an entry, when no read raises. -/
def ZipInfo.content? (info : ZipInfo) : Option Bytes :=
  (info.reads.takeWhile (fun read => read != some [])).foldr
    (fun read rest => read.bind (fun chunk => rest.map (fun bytes => chunk ++ bytes))) (some [])

/-- What was digested is what was written, and the size is its length. -/
theorem sha256Stream_spec {copied copied' : Copied} {reads : List (Option Bytes)}
    (h : sha256Stream copied reads = .ok copied') (hsame : copied.digested = copied.written)
    (hsize : copied.size = copied.written.length) :
  copied'.digested = copied'.written ∧ copied'.size = copied'.written.length
    ∧ ∃ bytes, ZipInfo.content? ⟨[], 0, reads⟩ = some bytes
      ∧ copied'.written = copied.written ++ bytes
  := by
  induction reads generalizing copied with
  | nil =>
      cases h
      exact ⟨hsame, hsize, [], rfl, (List.append_nil _).symm⟩
  | cons read reads ih =>
      cases read with
      | none => cases h
      | some chunk =>
          rw [sha256Stream] at h
          split at h
          · rename_i hempty
            cases h
            refine ⟨hsame, hsize, [], ?_, (List.append_nil _).symm⟩
            rw [ZipInfo.content?, hempty]
            rfl
          · rename_i hchunk
            split at h
            · cases h
            · obtain ⟨hdigested, hlength, bytes, hbytes, hwritten⟩ := ih h
                (by rw [hsame]) (by rw [hsize, List.length_append])
              refine ⟨hdigested, hlength, chunk ++ bytes, ?_, ?_⟩
              · rw [ZipInfo.content?] at hbytes ⊢
                rw [List.takeWhile_cons_of_pos (by simpa using hchunk), List.foldr_cons]
                rw [hbytes]
                rfl
              · rw [hwritten, List.append_assoc]

/-! ### Records -/

/-- What a record of the manifest says of a file. -/
structure FileRecord where
  path : Text
  sha256 : Text
  size : ℤ
deriving DecidableEq

/-- Reads a record of the manifest. -/
def fileRecord? : Json → Option FileRecord
  | .dict fields =>
      if isFileRecord fields then
        match fields.lookup "path".toList, fields.lookup "sha256".toList,
          fields.lookup "size".toList with
        | some (.str path), some (.str sha256), some (.int size) => some ⟨path, sha256, size⟩
        | _, _, _ => none
      else none
  | _ => none

/-- The records of a manifest. -/
def fileRecords? (manifest : List (Text × Json)) : Option (List FileRecord) :=
  match manifest.lookup "files".toList with
  | some (.list files) => files.mapM fileRecord?
  | _ => none

namespace Extraction

/-- The bytes of a file in the archive. -/
def content? (x : Extraction) (path : Text) : Option Bytes :=
  match getinfo x.archive (archiveName path) with
  | .ok info => info.content?
  | .error _ => none

/-- Bytes of a file are as a record says. -/
structure Matches (x : Extraction) (record : FileRecord) (bytes : Bytes) : Prop where
  content : x.content? record.path = some bytes
  size : (bytes.length : ℤ) = record.size
  sha256 : x.hexdigest bytes = record.sha256

theorem copyEntry_ok {x : Extraction} {tree tree' : Tree} {path sha256 : Text} {size : ℤ}
    (h : x.copyEntry tree path sha256 size = .ok tree') :
  ∃ bytes, x.Matches ⟨path, sha256, size⟩ bytes
    ∧ tree'.file? = Function.update tree.file? (x.output path) (some bytes)
  := by
  obtain ⟨info, hinfo, h⟩ := bind_eq_ok.mp h
  obtain ⟨-, -, h⟩ := bind_eq_ok.mp h
  obtain ⟨-, -, h⟩ := bind_eq_ok.mp h
  obtain ⟨made, hmade, h⟩ := bind_eq_ok.mp h
  obtain ⟨opened, hopened, h⟩ := bind_eq_ok.mp h
  obtain ⟨copied, hcopied, h⟩ := bind_eq_ok.mp h
  obtain ⟨_, hverified, h⟩ := bind_eq_ok.mp h
  cases h
  obtain ⟨hdigested, hlength, bytes, hbytes, hwritten⟩ := sha256Stream_spec hcopied rfl rfl
  rw [List.nil_append] at hwritten
  rw [raiseIf_eq_ok, Bool.or_eq_false_iff, bne_eq_false_iff_eq, bne_eq_false_iff_eq, hdigested,
    hlength, hwritten] at hverified
  refine ⟨bytes, ⟨?_, hverified.1, hverified.2⟩, ?_⟩
  · rw [content?, hinfo]
    exact hbytes
  · rw [hwritten]
    change Function.update opened.file? _ _ = _
    rw [Tree.openFile_file? hopened, Tree.mkdir_file? hmade, Function.update_idem]

/-- The path of a record stays below the destination and is spelled as it is read. -/
structure SafePath (path : Text) : Prop where
  relative : (purePosixPath path).root = []
  spelled : (purePosixPath path).asPosix = path
  noUp : "..".toList ∉ (purePosixPath path).names
  managed : "app/".toList <+: path ∨ "frontend/dist/".toList <+: path

/-- What one turn of the loop did. -/
structure Turn (x : Extraction) (progress progress' : Progress) (record : FileRecord)
    (bytes : Bytes) : Prop where
  fresh : x.casefold record.path ∉ progress.seen
  safe : SafePath record.path
  contents : x.Matches record bytes
  limit : progress'.totalSize ≤ maxPayloadBytes
  expectedNames : progress'.expectedNames = progress.expectedNames ++ [archiveName record.path]
  totalSize : progress'.totalSize = progress.totalSize + record.size
  seen : progress'.seen = progress.seen ++ [x.casefold record.path]
  files : progress'.tree.file?
    = Function.update progress.tree.file? (x.output record.path) (some bytes)

theorem fileRecord?_eq {item : Json} {fields : List (Text × Json)} {path sha256 : Text} {size : ℤ}
    {message message' message'' : String} (hfields : recordFields item = .ok fields)
    (hpath : strField fields "path" message = .ok path)
    (hsha256 : strField fields "sha256" message' = .ok sha256)
    (hsize : intField fields "size" message'' = .ok size) :
  fileRecord? item = some ⟨path, sha256, size⟩
  := by
  cases item with
  | dict items =>
      rw [recordFields] at hfields
      split at hfields
      · rename_i hrecord
        cases hfields
        rw [strField] at hpath hsha256
        rw [intField] at hsize
        split at hpath
        · rename_i hlookup
          cases hpath
          split at hsha256
          · rename_i hlookup'
            cases hsha256
            split at hsize
            · rename_i hlookup''
              cases hsize
              rw [fileRecord?, if_pos hrecord, hlookup, hlookup', hlookup'']
            · cases hsize
          · cases hsha256
        · cases hpath
      · cases hfields
  | _ => cases hfields

theorem turn_of_extractFile {x : Extraction} {progress progress' : Progress} {item : Json}
    (h : x.extractFile progress item = .ok progress') :
  ∃ record bytes, fileRecord? item = some record ∧ x.Turn progress progress' record bytes
  := by
  obtain ⟨fields, hfields, h⟩ := bind_eq_ok.mp h
  obtain ⟨path, hpath, h⟩ := bind_eq_ok.mp h
  obtain ⟨_, hseen, h⟩ := bind_eq_ok.mp h
  obtain ⟨_, hsafe, h⟩ := bind_eq_ok.mp h
  obtain ⟨_, _, h⟩ := bind_eq_ok.mp h
  obtain ⟨_, hmanaged, h⟩ := bind_eq_ok.mp h
  obtain ⟨sha256, hsha256, h⟩ := bind_eq_ok.mp h
  obtain ⟨_, _, h⟩ := bind_eq_ok.mp h
  obtain ⟨size, hsize, h⟩ := bind_eq_ok.mp h
  obtain ⟨_, _, h⟩ := bind_eq_ok.mp h
  obtain ⟨_, hlimit, h⟩ := bind_eq_ok.mp h
  obtain ⟨tree, htree, h⟩ := bind_eq_ok.mp h
  cases h
  obtain ⟨bytes, hmatches, hfiles⟩ := copyEntry_ok htree
  rw [raiseIf_eq_ok] at hseen hsafe hmanaged hlimit
  rw [Bool.or_eq_false_iff, Bool.or_eq_false_iff, Bool.or_eq_false_iff] at hsafe
  obtain ⟨⟨⟨habsolute, hspelled⟩, hup⟩, -⟩ := hsafe
  have hroot : (purePosixPath path).root = [] := by
    rw [PurePosixPath.isAbsolute, bne_eq_false_iff_eq] at habsolute
    exact habsolute
  refine ⟨⟨path, sha256, size⟩, bytes, fileRecord?_eq hfields hpath hsha256 hsize, ?_⟩
  constructor
  · intro hmem
    rw [List.contains_iff_mem.mpr hmem] at hseen
    cases hseen
  · constructor
    · exact hroot
    · exact bne_eq_false_iff_eq.mp hspelled
    · intro hmem
      rw [PurePosixPath.parts, if_pos hroot, List.contains_iff_mem.mpr hmem] at hup
      cases hup
    · rw [← List.isPrefixOf_iff_prefix, ← List.isPrefixOf_iff_prefix]
      cases happ : "app/".toList.isPrefixOf path with
      | true => exact .inl rfl
      | false =>
          rw [happ] at hmanaged
          cases hfrontend : "frontend/dist/".toList.isPrefixOf path with
          | true => exact .inr rfl
          | false =>
              rw [hfrontend] at hmanaged
              cases hmanaged
  · exact hmatches
  · exact Int.not_lt.mp (of_decide_eq_false hlimit)
  · rfl
  · rfl
  · rfl
  · exact hfiles

/-! ### The whole loop -/

/-- What the loop did with the records of a list, of which the bytes are given. -/
structure Looped (x : Extraction) (progress progress' : Progress)
    (written : List (FileRecord × Bytes)) : Prop where
  fresh : (progress.seen ++ written.map (fun file => x.casefold file.1.path)).Nodup
  safe : ∀ file ∈ written, SafePath file.1.path
  contents : ∀ file ∈ written, x.Matches file.1 file.2
  limit : progress.totalSize ≤ maxPayloadBytes → progress'.totalSize ≤ maxPayloadBytes
  expectedNames : progress'.expectedNames
    = progress.expectedNames ++ written.map (fun file => archiveName file.1.path)
  totalSize : progress'.totalSize
    = progress.totalSize + (written.map (fun file => file.1.size)).sum
  files : progress'.tree.file? = written.foldl
    (fun file? file => Function.update file? (x.output file.1.path) (some file.2))
    progress.tree.file?

theorem looped_of_extractFiles {x : Extraction} {files : List Json} {progress progress' : Progress}
    (h : files.foldlM x.extractFile progress = .ok progress') (hseen : progress.seen.Nodup) :
  ∃ written, files.mapM fileRecord? = some (written.map Prod.fst)
    ∧ x.Looped progress progress' written
  := by
  induction files generalizing progress with
  | nil =>
      cases h
      refine ⟨[], rfl, ?_⟩
      constructor
      · rw [List.map_nil, List.append_nil]
        exact hseen
      · exact fun _ hfile => absurd hfile List.not_mem_nil
      · exact fun _ hfile => absurd hfile List.not_mem_nil
      · exact id
      · exact (List.append_nil _).symm
      · exact (Int.add_zero _).symm
      · rfl
  | cons item files ih =>
      rw [List.foldlM_cons] at h
      obtain ⟨turned, hturned, h⟩ := bind_eq_ok.mp h
      obtain ⟨record, bytes, hrecord, hturn⟩ := turn_of_extractFile hturned
      have hnodup : turned.seen.Nodup := by
        rw [hturn.seen, List.nodup_append]
        refine ⟨hseen, List.nodup_singleton _, ?_⟩
        rintro a ha b hb rfl
        rw [List.mem_singleton.mp hb] at ha
        exact hturn.fresh ha
      obtain ⟨written, hmap, hlooped⟩ := ih h hnodup
      refine ⟨(record, bytes) :: written, ?_, ?_⟩
      · rw [List.mapM_cons, hrecord, hmap]
        rfl
      · constructor
        · have hfresh := hlooped.fresh
          rw [hturn.seen, List.append_assoc, List.singleton_append] at hfresh
          exact hfresh
        · intro file hfile
          rcases List.mem_cons.mp hfile with rfl | hfile
          · exact hturn.safe
          · exact hlooped.safe file hfile
        · intro file hfile
          rcases List.mem_cons.mp hfile with rfl | hfile
          · exact hturn.contents
          · exact hlooped.contents file hfile
        · exact fun _ => hlooped.limit hturn.limit
        · rw [hlooped.expectedNames, hturn.expectedNames, List.append_assoc,
            List.singleton_append, List.map_cons]
        · rw [hlooped.totalSize, hturn.totalSize, Int.add_assoc, List.map_cons, List.sum_cons]
        · rw [hlooped.files, hturn.files, List.foldl_cons]

/-! ### Where files are written -/

theorem resolve_append {place names : List Text} (h : "..".toList ∉ names) :
  resolve (place ++ names) = resolve place ++ names
  := by
  induction names generalizing place with
  | nil => rw [List.append_nil, List.append_nil]
  | cons name names ih =>
      rw [List.mem_cons, not_or] at h
      obtain ⟨hname, hnames⟩ := h
      rw [List.append_cons, ih hnames, resolve, List.foldl_append, List.foldl_cons,
        List.foldl_nil, if_neg (Ne.symm hname), ← resolve, List.append_assoc,
        List.singleton_append]

theorem output_eq {x : Extraction} {path : Text} (h : SafePath path) :
  x.output path = resolve x.destination ++ (purePosixPath path).names
  := resolve_append h.noUp

/-- Paths that are written to one place are the same. -/
theorem eq_of_output_eq {x : Extraction} {path path' : Text} (h : SafePath path)
    (h' : SafePath path') (heq : x.output path = x.output path') :
  path = path'
  := by
  rw [output_eq h, output_eq h'] at heq
  have hnames := List.append_cancel_left heq
  rw [← h.spelled, ← h'.spelled, PurePosixPath.asPosix, PurePosixPath.asPosix, h.relative,
    h'.relative, hnames]

theorem names_ne_nil {path : Text} (h : SafePath path) :
  (purePosixPath path).names ≠ []
  := by
  intro hnil
  have hspelled := h.spelled
  rw [PurePosixPath.asPosix, if_pos ⟨h.relative, hnil⟩] at hspelled
  have hmanaged := h.managed
  rw [← hspelled] at hmanaged
  revert hmanaged
  decide

/-- Updates at different places are all kept. -/
theorem foldl_update {α β γ : Type} [DecidableEq β] (key : α → β) (value : α → γ) (items : List α)
    (f : β → γ) (hdistinct : (items.map key).Nodup) :
  (∀ item ∈ items, items.foldl (fun g item => Function.update g (key item) (value item)) f
      (key item) = value item)
    ∧ ∀ b, b ∉ items.map key →
      items.foldl (fun g item => Function.update g (key item) (value item)) f b = f b
  := by
  induction items generalizing f with
  | nil => exact ⟨fun _ h => absurd h List.not_mem_nil, fun _ _ => rfl⟩
  | cons item items ih =>
      rw [List.map_cons, List.nodup_cons] at hdistinct
      obtain ⟨hkept, hframe⟩ := ih (Function.update f (key item) (value item)) hdistinct.2
      constructor
      · intro other hother
        rw [List.foldl_cons]
        rcases List.mem_cons.mp hother with rfl | hother
        · rw [hframe _ hdistinct.1, Function.update_self]
        · exact hkept other hother
      · intro b hb
        rw [List.map_cons, List.mem_cons, not_or] at hb
        rw [List.foldl_cons, hframe b hb.2, Function.update_of_ne hb.1]

/-! ### What an extraction leaves behind -/

/-- A place is below the destination. -/
def Inside (x : Extraction) (place : List Text) : Prop :=
  ∃ names, names ≠ [] ∧ "..".toList ∉ names ∧ place = resolve x.destination ++ names

/-- There are no files in the destination. -/
def IsEmpty (x : Extraction) (tree : Tree) : Prop :=
  ∀ place, x.Inside place → tree.file? place = none

/-- An archive and the records of its manifest belong together. -/
structure Managed (x : Extraction) (records : List FileRecord) : Prop where
  distinct : (records.map (fun record => x.casefold record.path)).Nodup
  contents : ∀ record ∈ records, ∃ bytes, x.Matches record bytes
  entries : ∀ name, (∃ info ∈ x.archive, info.isDir = false ∧ info.filename = name)
    ↔ name = "manifest.json".toList ∨ name = "signature.json".toList
      ∨ ∃ record ∈ records, name = archiveName record.path
  total : (records.map FileRecord.size).sum ≤ maxPayloadBytes

/-- The files in the destination are those of the records, and all other files are as before. -/
structure Extracted (x : Extraction) (records : List FileRecord) (tree tree' : Tree) : Prop where
  recorded : ∀ record ∈ records, ∃ bytes, x.Matches record bytes
    ∧ tree'.file? (x.output record.path) = some bytes
  inside : ∀ record ∈ records, x.Inside (x.output record.path)
    ∧ Text.join "/".toList (purePosixPath record.path).names = record.path
  only : ∀ place, x.Inside place → (tree'.file? place).isSome = true →
    ∃ record ∈ records, x.output record.path = place
  outside : ∀ place, ¬x.Inside place → tree'.file? place = tree.file? place

theorem inside_output {x : Extraction} {path : Text} (h : SafePath path) :
  x.Inside (x.output path)
  := ⟨(purePosixPath path).names, names_ne_nil h, h.noUp, output_eq h⟩

theorem join_names {path : Text} (h : SafePath path) :
  Text.join "/".toList (purePosixPath path).names = path
  := by
  have hspelled := h.spelled
  rw [PurePosixPath.asPosix, if_neg (fun hboth => names_ne_nil h hboth.2), h.relative,
    List.nil_append] at hspelled
  exact hspelled

/-- The records of which the loop wrote the files leave behind these files alone. -/
theorem extracted_of_looped {x : Extraction} {progress progress' : Progress}
    {written : List (FileRecord × Bytes)} (h : x.Looped progress progress' written)
    (hempty : x.IsEmpty progress.tree) :
  x.Extracted (written.map Prod.fst) progress.tree progress'.tree
  := by
  have hplaces : (written.map (fun file => x.output file.1.path)).Nodup := by
    have hfolded := (List.nodup_append.mp h.fresh).2.1
    rw [List.nodup_iff_pairwise_ne, List.pairwise_map] at hfolded ⊢
    apply hfolded.imp_of_mem
    intro file file' hfile hfile' hne heq
    exact hne (congrArg x.casefold (eq_of_output_eq (h.safe file hfile) (h.safe file' hfile') heq))
  obtain ⟨hkept, hframe⟩ := foldl_update (fun file : FileRecord × Bytes => x.output file.1.path)
    (fun file => some file.2) written progress.tree.file? hplaces
  rw [← h.files] at hkept hframe
  constructor
  · intro record hrecord
    obtain ⟨file, hfile, rfl⟩ := List.mem_map.mp hrecord
    exact ⟨file.2, h.contents file hfile, hkept file hfile⟩
  · intro record hrecord
    obtain ⟨file, hfile, rfl⟩ := List.mem_map.mp hrecord
    exact ⟨inside_output (h.safe file hfile), join_names (h.safe file hfile)⟩
  · intro place hinside hsome
    by_cases hmem : place ∈ written.map (fun file => x.output file.1.path)
    · obtain ⟨file, hfile, hplace⟩ := List.mem_map.mp hmem
      exact ⟨file.1, List.mem_map_of_mem hfile, hplace⟩
    · rw [hframe place hmem, hempty place hinside] at hsome
      cases hsome
  · intro place houtside
    apply hframe place
    intro hmem
    obtain ⟨file, hfile, rfl⟩ := List.mem_map.mp hmem
    exact houtside (inside_output (h.safe file hfile))

theorem mem_actualNames_iff {x : Extraction} {name : Text} :
  name ∈ x.actualNames ↔ ∃ info ∈ x.archive, info.isDir = false ∧ info.filename = name
  := by
  rw [actualNames, List.mem_map]
  constructor
  · rintro ⟨info, hinfo, hname⟩
    obtain ⟨hmem, hdir⟩ := List.mem_filter.mp hinfo
    exact ⟨info, hmem, by simpa using hdir, hname⟩
  · rintro ⟨info, hmem, hdir, hname⟩
    exact ⟨info, List.mem_filter.mpr ⟨hmem, by simpa using hdir⟩, hname⟩

/-- When nothing is raised, the archive and the manifest belong together, and the files of the
records are in the destination. -/
theorem extracted_of_extract {x : Extraction} {manifest : List (Text × Json)} {tree tree' : Tree}
    (h : x.extract manifest tree = .ok tree') (hempty : x.IsEmpty tree) :
  ∃ records, fileRecords? manifest = some records ∧ x.Managed records
    ∧ x.Extracted records tree tree'
  := by
  rw [extract] at h
  split at h
  · rename_i files hfiles
    obtain ⟨_, hlength, h⟩ := bind_eq_ok.mp h
    obtain ⟨progress, hprogress, h⟩ := bind_eq_ok.mp h
    obtain ⟨_, _, h⟩ := bind_eq_ok.mp h
    obtain ⟨_, hnames, h⟩ := bind_eq_ok.mp h
    cases h
    obtain ⟨written, hrecords, hlooped⟩ := looped_of_extractFiles hprogress List.nodup_nil
    refine ⟨written.map Prod.fst, ?_, ?_, extracted_of_looped hlooped hempty⟩
    · rw [fileRecords?, hfiles]
      exact hrecords
    · constructor
      · rw [List.map_map]
        exact hlooped.fresh
      · intro record hrecord
        obtain ⟨file, hfile, rfl⟩ := List.mem_map.mp hrecord
        exact ⟨file.2, hlooped.contents file hfile⟩
      · intro name
        rw [raiseIf_eq_ok, Bool.not_eq_false', Bool.and_eq_true, List.all_eq_true,
          List.all_eq_true] at hnames
        have hsame : name ∈ x.actualNames ↔ name ∈ progress.expectedNames :=
          ⟨fun hmem => List.contains_iff_mem.mp (hnames.1 name hmem),
            fun hmem => List.contains_iff_mem.mp (hnames.2 name hmem)⟩
        rw [← mem_actualNames_iff, hsame, hlooped.expectedNames, List.mem_append, List.mem_pair,
          or_assoc]
        have hwritten : name ∈ written.map (fun file => archiveName file.1.path)
            ↔ ∃ record ∈ written.map Prod.fst, name = archiveName record.path := by
          rw [List.mem_map]
          constructor
          · rintro ⟨file, hfile, rfl⟩
            exact ⟨file.1, List.mem_map_of_mem hfile, rfl⟩
          · rintro ⟨record, hrecord, rfl⟩
            obtain ⟨file, hfile, rfl⟩ := List.mem_map.mp hrecord
            exact ⟨file, hfile, rfl⟩
        rw [hwritten]
      · have htotal := hlooped.totalSize
        rw [Int.zero_add] at htotal
        rw [List.map_map, Function.comp_def, ← htotal]
        exact hlooped.limit (Int.natCast_nonneg maxPayloadBytes)
  · cases h

/-- An extraction that raises nothing leaves behind exactly the files of the manifest, and it raises
whenever the archive and the manifest do not belong together. -/
theorem extract_exact {x : Extraction} {tree : Tree} (hempty : x.IsEmpty tree)
    (manifest : List (Text × Json)) :
  (∀ tree', x.extract manifest tree = .ok tree' →
      ∃ records, fileRecords? manifest = some records ∧ x.Managed records
        ∧ x.Extracted records tree tree')
    ∧ ((¬∃ records, fileRecords? manifest = some records ∧ x.Managed records) →
      ∃ raised, x.extract manifest tree = .error raised)
  := by
  constructor
  · exact fun tree' h => extracted_of_extract h hempty
  · intro hnot
    cases h : x.extract manifest tree with
    | error raised => exact ⟨raised, rfl⟩
    | ok tree' =>
        obtain ⟨records, hrecords, hmanaged, -⟩ := extracted_of_extract h hempty
        exact absurd ⟨records, hrecords, hmanaged⟩ hnot

/-- An archive with one empty file for each part of a payload, and a directory. -/
def sample : Extraction where
  casefold := id
  hexdigest := fun _ => "e3b0c44298fc1c149afbf4c8996fb92427ae41e4649b934ca495991b7852b855".toList
  refuses := fun _ => false
  archive := ["manifest.json", "signature.json", "payload/app/", "payload/app/a",
    "payload/frontend/dist/b"].map (fun name => ⟨name.toList, 0, []⟩)
  destination := ["srv".toList]

/-- The manifest of the archive. -/
def sampleManifest : List (Text × Json) :=
  [("files".toList, .list (["app/a", "frontend/dist/b"].map (fun path => .dict
    [("path".toList, .str path.toList), ("sha256".toList, .str (sample.hexdigest [])),
      ("size".toList, .int 0)])))]

/-- The file system before the extraction: the destination and nothing else. -/
def sampleTree : Tree := ⟨fun _ => none, fun place => place == ["srv".toList]⟩

theorem extract_exact_sample :
  (sample.extract sampleManifest sampleTree).isOk = true
    ∧ (∀ tree', sample.extract sampleManifest sampleTree = .ok tree' →
      ∃ records, fileRecords? sampleManifest = some records ∧ sample.Managed records
        ∧ sample.Extracted records sampleTree tree')
    ∧ ((¬∃ records, fileRecords? sampleManifest = some records ∧ sample.Managed records) →
      ∃ raised, sample.extract sampleManifest sampleTree = .error raised)
  := ⟨by decide, extract_exact (fun _ _ => rfl) sampleManifest⟩

end Extraction

end Updater

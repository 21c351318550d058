import DataOpsStudio.Results.HardLinks
import DataOpsStudio.Library.Operations

/-!
# Files with two names

A file with two names is a part that the manifests of both directories list, and only files that no
manifest lists are written.  Hence what is done to a spool is not seen in another one, and an
operation on the store with hard links does what it does on the store with copies.
-/

namespace Results

open Text

variable {Id Row : Type} [DecidableEq Id]

/-! ### Directories -/

namespace LinkedStore

variable {store : LinkedStore Id Row} {id id' : Id}

omit [DecidableEq Id] in
@[simp]
theorem dir_setInodes {inodes : List (List Row)} :
  (store.setInodes inodes).dir id = store.dir id
  := rfl

theorem dir_setDir {dir : LinkedDir} :
  (store.setDir id dir).dir id' = if id' = id then dir else store.dir id'
  := by
  rw [LinkedStore.dir, setDir]
  dsimp only
  rw [Function.update_apply]
  split
  · rfl
  · rfl

theorem isSome_setDir {dir : LinkedDir} :
  ((store.setDir id dir).dirs id').isSome = (decide (id' = id) || (store.dirs id').isSome)
  := by
  rw [setDir]
  dsimp only
  rw [Function.update_apply]
  split
  case isTrue h =>
    rw [decide_eq_true h]
    rfl
  case isFalse h =>
    rw [decide_eq_false h]
    rfl

@[simp]
theorem dir_touch :
  (store.touch id).dir id' = store.dir id'
  := by
  rw [touch, dir_setDir]
  split
  case isTrue h => rw [h]
  case isFalse => rfl

@[simp]
theorem file?_touch {index : ℕ} :
  (store.touch id).file? id' index = store.file? id' index
  := by
  rw [file?, dir_touch]
  rfl

/-- The manifest of the directory lists the part file. -/
def Listed (store : LinkedStore Id Row) (id : Id) (index : ℕ) : Prop :=
  ∃ part ∈ (store.dir id).readManifest.parts, part.index = index

/-- A file that has two names is listed under both of them. -/
structure Apart (store : LinkedStore Id Row) : Prop where
  fresh : ∀ id index inode, (store.dir id).links index = some inode → inode < store.inodes.length
  apart : ∀ id index id' index' inode, (store.dir id).links index = some inode →
    (store.dir id').links index' = some inode →
      (id = id' ∧ index = index') ∨ (store.Listed id index ∧ store.Listed id' index')

/-! ### Writing a file -/

theorem dir_writeManifest {manifest : SpoolManifest} :
  (store.writeManifest id manifest).dir id'
    = if id' = id then { store.dir id with manifest := some manifest.filed } else store.dir id'
  := dir_setDir

theorem file?_writeManifest {manifest : SpoolManifest} {index : ℕ} :
  (store.writeManifest id manifest).file? id' index = store.file? id' index
  := by
  rw [file?, dir_writeManifest]
  split
  case isTrue h =>
    rw [h]
    rfl
  case isFalse => rfl

/-- An action on a part file keeps the manifests. -/
theorem manifest_perform (action : DiskAction Row) :
  ((store.perform id action).dir id').manifest = (store.dir id').manifest
  := by
  cases action with
  | writePart index rows =>
      rw [perform]
      split
      case h_1 => rfl
      case h_2 =>
        rw [dir_setInodes, dir_setDir]
        split
        case isTrue h => rw [h]
        case isFalse => rfl
  | unlinkPart index =>
      rw [perform, dir_setDir]
      split
      case isTrue h => rw [h]
      case isFalse => rfl

theorem listed_perform {action : DiskAction Row} {index : ℕ} :
  (store.perform id action).Listed id' index ↔ store.Listed id' index
  := by
  rw [Listed, Listed, LinkedDir.readManifest, manifest_perform]
  rfl

/-- The names after an action: they are as before, but for the file that the action is about. -/
theorem links_perform {action : DiskAction Row} {index : ℕ}
    (h : ¬(id' = id ∧ index = action.index)) :
  ((store.perform id action).dir id').links index = (store.dir id').links index
  := by
  cases action with
  | writePart index' rows =>
      rw [perform]
      split
      case h_1 => rfl
      case h_2 =>
        rw [dir_setInodes, dir_setDir]
        split
        case isTrue hid =>
          subst hid
          apply Function.update_of_ne
          intro heq
          exact h ⟨rfl, heq⟩
        case isFalse => rfl
  | unlinkPart index' =>
      rw [perform, dir_setDir]
      split
      case isTrue hid =>
        subst hid
        apply Function.update_of_ne
        intro heq
        exact h ⟨rfl, heq⟩
      case isFalse => rfl

/-- The name that an action is about has its own file afterwards, or none, unless it has been
written in place. -/
theorem links_perform_index (store : LinkedStore Id Row) (id : Id) (action : DiskAction Row) :
  ((store.perform id action).dir id).links action.index = (store.dir id).links action.index
    ∨ ((store.perform id action).dir id).links action.index = none
    ∨ ((store.perform id action).dir id).links action.index = some store.inodes.length
      ∧ (store.perform id action).inodes.length = store.inodes.length + 1
  := by
  cases action with
  | writePart index rows =>
      rw [perform, DiskAction.index]
      split
      case h_1 => exact .inl rfl
      case h_2 =>
        right
        right
        rw [dir_setInodes, dir_setDir, if_pos rfl]
        exact ⟨Function.update_self _ _ _, List.length_append⟩
  | unlinkPart index =>
      right
      left
      rw [perform, dir_setDir, if_pos rfl, DiskAction.index]
      apply Function.update_self

theorem length_perform (action : DiskAction Row) :
  store.inodes.length ≤ (store.perform id action).inodes.length
  := by
  cases action with
  | writePart index rows =>
      rw [perform]
      split
      case h_1 => exact (List.length_set ..).ge
      case h_2 => exact Nat.le.intro List.length_append.symm
  | unlinkPart index => rfl

/-- An action on a file that is not listed keeps the files with two names listed. -/
theorem Apart.perform (h : store.Apart) {action : DiskAction Row} :
  (store.perform id action).Apart
  := by
  have hold : ∀ id' index inode, ((store.perform id action).dir id').links index = some inode →
      (store.dir id').links index = some inode
        ∨ (id' = id ∧ index = action.index ∧ inode = store.inodes.length
          ∧ (store.perform id action).inodes.length = store.inodes.length + 1) := by
    intro id' index inode hlink
    by_cases hat : id' = id ∧ index = action.index
    · obtain ⟨rfl, rfl⟩ := hat
      obtain hsame | hnone | ⟨hnew, hlength⟩ := links_perform_index store id' action
      · exact .inl (hsame.symm.trans hlink)
      · cases hnone.symm.trans hlink
      · exact .inr ⟨rfl, rfl, Option.some.inj (hlink.symm.trans hnew), hlength⟩
    · exact .inl ((links_perform hat).symm.trans hlink)
  constructor
  · intro id' index inode hlink
    obtain hbefore | ⟨-, -, rfl, hlength⟩ := hold _ _ _ hlink
    · exact (h.fresh _ _ _ hbefore).trans_le (length_perform action)
    · omega
  · intro id₁ index₁ id₂ index₂ inode h₁ h₂
    rw [listed_perform, listed_perform]
    obtain hbefore₁ | ⟨rfl, rfl, rfl, -⟩ := hold _ _ _ h₁
    · obtain hbefore₂ | ⟨-, -, rfl, -⟩ := hold _ _ _ h₂
      · exact h.apart _ _ _ _ _ hbefore₁ hbefore₂
      · exact absurd (h.fresh _ _ _ hbefore₁) (Nat.lt_irrefl _)
    · obtain hbefore₂ | ⟨rfl, rfl, -, -⟩ := hold _ _ _ h₂
      · exact absurd (h.fresh _ _ _ hbefore₂) (Nat.lt_irrefl _)
      · exact .inl ⟨rfl, rfl⟩

/-- An action on a file that is not listed keeps the rows of the files that are. -/
theorem Apart.file?_perform (h : store.Apart) {action : DiskAction Row}
    (haside : ¬store.Listed id action.index) {index : ℕ} (hlisted : store.Listed id' index) :
  (store.perform id action).file? id' index = store.file? id' index
  := by
  have hat : ¬(id' = id ∧ index = action.index) := by
    rintro ⟨rfl, rfl⟩
    exact haside hlisted
  rw [file?, file?, links_perform hat]
  cases hlink : (store.dir id').links index with
  | none => rfl
  | some inode =>
      simp only [Option.bind_some]
      have hfresh := h.fresh _ _ _ hlink
      cases action with
      | unlinkPart index' => rfl
      | writePart index' rows =>
          rw [LinkedStore.perform]
          split
          case h_1 inode' hinode' =>
            apply List.getElem?_set_ne
            rintro rfl
            obtain hsame | hboth := h.apart _ _ _ _ _ hinode' hlink
            · exact hat ⟨hsame.1.symm, hsame.2.symm⟩
            · exact haside hboth.1
          case h_2 => exact List.getElem?_append_left hfresh

/-- What a file holds that has just been written. -/
theorem Apart.file?_writePart (h : store.Apart) {index : ℕ} {rows : List Row} :
  (store.perform id (.writePart index rows)).file? id index = some rows
  := by
  rw [LinkedStore.perform]
  split
  case h_1 inode hinode =>
    rw [file?, dir_setInodes, hinode]
    simp only [Option.bind_some]
    exact List.getElem?_set_self (h.fresh _ _ _ hinode)
  case h_2 =>
    rw [file?, dir_setInodes, dir_setDir, if_pos rfl]
    simp only [Function.update_self, Option.bind_some]
    exact List.getElem?_concat_length

theorem isSome_perform (action : DiskAction Row) (hid : (store.dirs id).isSome) :
  ((store.perform id action).dirs id').isSome = (store.dirs id').isSome
  := by
  have hset : ∀ dir : LinkedDir,
      ((store.setDir id dir).dirs id').isSome = (store.dirs id').isSome := by
    intro dir
    rw [isSome_setDir]
    by_cases h : id' = id
    · rw [decide_eq_true h, Bool.true_or, h, hid]
    · rw [decide_eq_false h, Bool.false_or]
  cases action with
  | writePart index rows =>
      rw [perform]
      split
      case h_1 => rfl
      case h_2 => exact hset _
  | unlinkPart index => exact hset _

end LinkedStore

/-! ### The store with copies -/

namespace CopyStore

variable {copies : CopyStore Id Row} {id id' : Id} {dir : SpoolDir Row}

theorem dir_setDir :
  (copies.setDir id dir).dir id' = if id' = id then dir else copies.dir id'
  := by
  rw [CopyStore.dir, setDir]
  dsimp only
  rw [Function.update_apply]
  split
  · rfl
  · rfl

theorem isSome_setDir :
  ((copies.setDir id dir).dirs id').isSome = (decide (id' = id) || (copies.dirs id').isSome)
  := by
  rw [setDir]
  dsimp only
  rw [Function.update_apply]
  split
  case isTrue h =>
    rw [decide_eq_true h]
    rfl
  case isFalse h =>
    rw [decide_eq_false h]
    rfl

@[simp]
theorem dir_touch :
  (copies.touch id).dir id' = copies.dir id'
  := by
  rw [touch, dir_setDir]
  split
  case isTrue h => rw [h]
  case isFalse => rfl

end CopyStore

/-- A directory with hard links has the manifest and the rows of a spool. -/
structure Shows (store : LinkedStore Id Row) (id : Id) (dir : SpoolDir Row) : Prop where
  manifest : (store.dir id).manifest = dir.manifest
  filed : ∀ part ∈ dir.readManifest.parts, store.file? id part.index = some (dir.partRows part)

/-- The store with hard links has what the store with copies has. -/
structure Refines (store : LinkedStore Id Row) (copies : CopyStore Id Row) : Prop where
  apart : store.Apart
  present : ∀ id, (store.dirs id).isSome = (copies.dirs id).isSome
  shown : ∀ id, Shows store id (copies.dir id)
  sound : ∀ id, (copies.dir id).Sound

namespace Refines

variable {store : LinkedStore Id Row} {copies : CopyStore Id Row} {id : Id}

omit [DecidableEq Id] in
theorem readManifest_eq (h : Refines store copies) (id : Id) :
  (store.dir id).readManifest = (copies.dir id).readManifest
  := by
  rw [LinkedDir.readManifest, (h.shown id).manifest]
  rfl

theorem touch (h : Refines store copies) (id : Id) :
  Refines (store.touch id) (copies.touch id)
  := by
  constructor
  · constructor
    · intro id' index inode hlink
      rw [LinkedStore.dir_touch] at hlink
      exact h.apart.fresh _ _ _ hlink
    · simpa [LinkedStore.Listed] using h.apart.apart
  · intro id'
    rw [LinkedStore.touch, CopyStore.touch, LinkedStore.isSome_setDir, CopyStore.isSome_setDir,
      h.present]
  · intro id'
    rw [CopyStore.dir_touch]
    constructor
    · rw [LinkedStore.dir_touch]
      exact (h.shown id').manifest
    · simpa using (h.shown id').filed
  · intro id'
    rw [CopyStore.dir_touch]
    exact h.sound id'

/-- An action on a file that is not listed is not seen. -/
theorem perform (h : Refines store copies) (hid : (store.dirs id).isSome)
    {action : DiskAction Row} (haside : ¬store.Listed id action.index) :
  Refines (store.perform id action) copies
  := by
  constructor
  · exact h.apart.perform
  · intro id'
    rw [LinkedStore.isSome_perform action hid, h.present]
  · intro id'
    constructor
    · rw [LinkedStore.manifest_perform, (h.shown id').manifest]
    · intro part hpart
      rw [h.apart.file?_perform haside]
      · exact (h.shown id').filed part hpart
      · exact ⟨part, h.readManifest_eq id' ▸ hpart, rfl⟩
  · exact h.sound

theorem performAll (h : Refines store copies) (hid : (store.dirs id).isSome)
    {actions : List (DiskAction Row)}
    (haside : ∀ action ∈ actions, ¬store.Listed id action.index) :
  Refines (store.performAll id actions) copies ∧ ((store.performAll id actions).dirs id).isSome
  := by
  induction actions generalizing store with
  | nil => exact ⟨h, hid⟩
  | cons action actions ih =>
      rw [List.forall_mem_cons] at haside
      apply ih (h.perform hid haside.1)
      · rw [LinkedStore.isSome_perform action hid, hid]
      · intro action' haction'
        rw [LinkedStore.listed_perform]
        exact haside.2 action' haction'

/-- A manifest is written that lists what has been listed, and files that have been written. -/
theorem writeManifest (h : Refines store copies) (hid : (store.dirs id).isSome)
    {manifest : SpoolManifest} {dir : SpoolDir Row} (hdir : dir.Sound)
    (hmanifest : dir.manifest = some manifest.filed)
    (hlisted : ∀ part ∈ (copies.dir id).readManifest.parts, part ∈ manifest.parts)
    (hfiled : ∀ part ∈ manifest.parts, store.file? id part.index = some (dir.partRows part)) :
  Refines (store.writeManifest id manifest) (copies.setDir id dir)
  := by
  have hgrows : ∀ id' index, store.Listed id' index →
      (store.writeManifest id manifest).Listed id' index := by
    rintro id' index ⟨part, hpart, hindex⟩
    rw [LinkedStore.Listed, LinkedStore.dir_writeManifest]
    split
    case isTrue heq =>
      subst heq
      rw [h.readManifest_eq] at hpart
      exact ⟨part, hlisted part hpart, hindex⟩
    case isFalse => exact ⟨part, hpart, hindex⟩
  have hlinks : ∀ id' index, ((store.writeManifest id manifest).dir id').links index
      = (store.dir id').links index := by
    intro id' index
    rw [LinkedStore.dir_writeManifest]
    split
    case isTrue heq => rw [heq]
    case isFalse => rfl
  constructor
  · constructor
    · intro id' index inode hlink
      rw [hlinks] at hlink
      exact h.apart.fresh _ _ _ hlink
    · intro id₁ index₁ id₂ index₂ inode h₁ h₂
      rw [hlinks] at h₁ h₂
      obtain hsame | hboth := h.apart.apart _ _ _ _ _ h₁ h₂
      · exact .inl hsame
      · exact .inr ⟨hgrows _ _ hboth.1, hgrows _ _ hboth.2⟩
  · intro id'
    rw [LinkedStore.writeManifest, LinkedStore.isSome_setDir, CopyStore.isSome_setDir, h.present]
  · intro id'
    rw [CopyStore.dir_setDir]
    split
    case isTrue heq =>
      subst heq
      constructor
      · rw [LinkedStore.dir_writeManifest, if_pos rfl, hmanifest]
      · intro part hpart
        rw [SpoolDir.readManifest, hmanifest] at hpart
        rw [LinkedStore.file?_writeManifest]
        exact hfiled part hpart
    case isFalse hne =>
      constructor
      · rw [LinkedStore.dir_writeManifest, if_neg hne]
        exact (h.shown id').manifest
      · intro part hpart
        rw [LinkedStore.file?_writeManifest]
        exact (h.shown id').filed part hpart
  · intro id'
    rw [CopyStore.dir_setDir]
    split
    · exact hdir
    · exact h.sound id'

end Refines

/-! ### Appending -/

section Appending

variable {limits : SpoolLimits Row} {dir : SpoolDir Row} {rows : List Row}

omit [DecidableEq Id] in
theorem index_of_mem_fitActions {index remainingBytes : ℕ} {candidates : List Row}
    {action : DiskAction Row} (h : action ∈ fitActions limits index candidates remainingBytes) :
  action.index = index
  := by
  rw [fitActions, List.mem_cons] at h
  obtain rfl | h := h
  · rfl
  split at h
  case isTrue => exact (List.not_mem_nil h).elim
  rw [List.mem_cons] at h
  obtain rfl | h := h
  · rfl
  split at h
  case h_1 => exact (List.not_mem_nil h).elim
  obtain rfl := List.mem_singleton.mp h
  rfl

/-- The last that is written of a part are the rows that fit. -/
theorem fitActions_of_fit {index remainingBytes : ℕ} {candidates : List Row} {row : Row}
    {more : List Row}
    (h : fitRowsToRemainingBytes limits candidates remainingBytes = row :: more) :
  ∃ earlier, fitActions limits index candidates remainingBytes
    = earlier ++ [.writePart index (row :: more)]
  := by
  rw [fitActions]
  split
  case isTrue hfits =>
    rw [fitRowsToRemainingBytes, if_pos hfits] at h
    exact ⟨[], by rw [h, List.nil_append]⟩
  case isFalse => exact ⟨[.writePart index candidates, .unlinkPart index], by rw [h]; rfl⟩

/-- What is written when rows are appended: the manifest lists what it has listed, and a part that
is new to it has been written last. -/
structure Writes (dir : SpoolDir Row) (actions : List (DiskAction Row)) (manifest : SpoolManifest)
    (dir' : SpoolDir Row) : Prop where
  written : dir'.manifest = some manifest.filed
  listed : ∀ part ∈ dir.readManifest.parts, part ∈ manifest.parts
  filed : ∀ part ∈ manifest.parts,
    (part ∈ dir.readManifest.parts ∧ dir'.partRows part = dir.partRows part)
      ∨ ∃ earlier, actions = earlier ++ [.writePart part.index (dir'.partRows part)]

/-- A manifest that lists what has been listed needs no files. -/
theorem Writes.of_parts {actions : List (DiskAction Row)} {manifest : SpoolManifest}
    (h : manifest.parts = dir.readManifest.parts) :
  Writes dir actions manifest (dir.writeManifest manifest)
  := by
  constructor
  · rfl
  · intro part hpart
    rw [h]
    exact hpart
  · intro part hpart
    rw [h] at hpart
    exact .inl ⟨hpart, rfl⟩

/-- The part files and the manifest of an append are those of the append to a spool of its own. -/
theorem partActions_spec (hdir : dir.Sound) {manifest : SpoolManifest}
    (hparts : manifest.parts = dir.readManifest.parts) (candidates : List Row) :
  Writes dir (partActions limits manifest candidates).1 (partActions limits manifest candidates).2
    (appendPart limits dir manifest candidates)
  := by
  rw [appendPart, partActions]
  dsimp only
  cases hfit : fitRowsToRemainingBytes limits candidates (limits.maxBytes - manifest.dataBytes) with
  | nil => exact .of_parts hparts
  | cons row more =>
      dsimp only
      constructor
      · rfl
      · intro part hpart
        apply List.mem_append_left
        rw [hparts]
        exact hpart
      · intro part hpart
        rw [SpoolManifest.addPart, List.mem_append, List.mem_singleton] at hpart
        obtain hold | rfl := hpart
        · left
          rw [hparts] at hold
          refine ⟨hold, ?_⟩
          have hkept : (dir.writePart (dir.readManifest.parts.length + 1) (row :: more)).partRows
              part = dir.partRows part := partRows_writePart hdir hold
          rw [← hkept, hparts]
          rfl
        · right
          obtain ⟨earlier, hearlier⟩ := fitActions_of_fit hfit
          use earlier
          rw [hearlier]
          simp [SpoolDir.partRows, SpoolDir.writeManifest, SpoolDir.writePart, Dict.get?_set_self]

/-- What an append does to a spool that takes rows. -/
structure Plan (limits : SpoolLimits Row) (rows : List Row) (dir : SpoolDir Row)
    (actions : List (DiskAction Row)) (manifest : Option SpoolManifest) (dir' : SpoolDir Row) :
    Prop where
  mutable : dir.readManifest.isSealed = false
  planned : appendActions limits rows dir.readManifest = .ok (actions, manifest)
  appended : Results.appendSpool limits rows dir = .ok dir'
  aside : ∀ action ∈ actions, action.index = dir.readManifest.parts.length + 1
  writes : (manifest = none ∧ actions = [] ∧ dir' = dir)
    ∨ ∃ manifest', manifest = some manifest' ∧ Writes dir actions manifest' dir'

/-- An append to the files is refused where the append to the spool is, and has a plan where it is
not. -/
theorem appendActions_spec (limits : SpoolLimits Row) (hdir : dir.Sound)
    (hrows : rows.isEmpty = false) :
  (dir.readManifest.isSealed = true
      ∧ appendActions limits rows dir.readManifest = .error .sealedSpool
      ∧ Results.appendSpool limits rows dir = .error .sealedSpool)
    ∨ ∃ actions manifest dir', Plan limits rows dir actions manifest dir'
  := by
  cases hsealed : dir.readManifest.isSealed with
  | true =>
      left
      rw [appendActions, Results.appendSpool, hsealed, if_pos rfl]
      dsimp only
      rw [hrows]
      exact ⟨rfl, rfl, rfl⟩
  | false =>
      right
      have hplan : ∀ {actions manifest dir'},
          appendActions limits rows dir.readManifest = .ok (actions, manifest) →
          Results.appendSpool limits rows dir = .ok dir' →
          (∀ action ∈ actions, action.index = dir.readManifest.parts.length + 1) →
          ((manifest = none ∧ actions = [] ∧ dir' = dir)
            ∨ ∃ manifest', manifest = some manifest' ∧ Writes dir actions manifest' dir') →
          ∃ actions manifest dir', Plan limits rows dir actions manifest dir' := by
        intro actions manifest dir' h₁ h₂ h₃ h₄
        exact ⟨actions, manifest, dir', hsealed, h₁, h₂, h₃, h₄⟩
      rw [appendActions, Results.appendSpool, hsealed] at hplan
      simp only [hrows, Bool.false_eq_true, if_false] at hplan
      split at hplan
      case isTrue =>
        exact hplan rfl rfl (fun _ h => (List.not_mem_nil h).elim) (.inl ⟨rfl, rfl, rfl⟩)
      split at hplan
      case isTrue =>
        exact hplan rfl rfl (fun _ h => (List.not_mem_nil h).elim)
          (.inr ⟨_, rfl, .of_parts rfl⟩)
      split at hplan
      case isTrue =>
        exact hplan rfl rfl (fun _ h => (List.not_mem_nil h).elim)
          (.inr ⟨_, rfl, .of_parts rfl⟩)
      refine hplan rfl rfl ?_ (.inr ⟨_, rfl, ?_⟩)
      · intro action haction
        exact index_of_mem_fitActions haction
      · apply partActions_spec hdir
        rfl

end Appending

/-! ### One step -/

namespace Refines

variable {limits : SpoolLimits Row} {store : LinkedStore Id Row} {copies : CopyStore Id Row}
  {id : Id}

omit [DecidableEq Id] in
/-- The file that comes after those that are listed. -/
theorem not_listed (h : Refines store copies) {index : ℕ}
    (hindex : index = (copies.dir id).readManifest.parts.length + 1) :
  ¬store.Listed id index
  := by
  rintro ⟨part, hpart, hat⟩
  rw [h.readManifest_eq] at hpart
  have hle := (h.sound id).numbered part hpart
  omega

theorem isSome_touch :
  ((store.touch id).dirs id).isSome
  := by
  rw [LinkedStore.touch, LinkedStore.isSome_setDir, decide_eq_true rfl]
  rfl

theorem setDir_touch {dir : SpoolDir Row} :
  (copies.touch id).setDir id dir = copies.setDir id dir
  := by
  rw [CopyStore.touch, CopyStore.setDir, CopyStore.setDir, CopyStore.setDir]
  simp only [Function.update_idem]

/-- The part files of an append that have been written are not seen. -/
theorem partly (h : Refines store copies) {actions : List (DiskAction Row)}
    (haside : ∀ action ∈ actions,
      action.index = (copies.dir id).readManifest.parts.length + 1) :
  Refines ((store.touch id).performAll id actions) (copies.touch id)
    ∧ (((store.touch id).performAll id actions).dirs id).isSome
  := by
  apply (h.touch id).performAll isSome_touch
  intro action haction
  apply (h.touch id).not_listed
  rw [CopyStore.dir_touch]
  exact haside action haction

theorem append (h : Refines store copies) (rows : List Row) :
  AgreeOn Refines (store.step limits (.append id rows)) (copies.step limits (.append id rows))
  := by
  rw [LinkedStore.step, LinkedStore.appendSpool, CopyStore.step]
  cases hrows : rows.isEmpty with
  | true => exact .inr ⟨store, copies, rfl, rfl, h⟩
  | false =>
      simp only [Bool.false_eq_true, if_false]
      rw [h.readManifest_eq, CopyStore.modify]
      obtain ⟨-, hactions, hspool⟩ | ⟨actions, manifest, dir', hplan⟩ :=
        appendActions_spec limits (h.sound id) hrows
      · rw [hactions, hspool]
        exact .inl ⟨_, rfl, rfl⟩
      rw [hplan.planned, hplan.appended]
      refine .inr ⟨_, _, rfl, rfl, ?_⟩
      have hdir' := (appendSpool_spec limits (h.sound id) hplan.appended).sound
      obtain ⟨hpartly, hpresent⟩ := h.partly hplan.aside
      obtain ⟨rfl, rfl, rfl⟩ | ⟨manifest', rfl, hwrites⟩ := hplan.writes
      · exact h.touch id
      · rw [← setDir_touch]
        apply hpartly.writeManifest hpresent hdir' hwrites.written
        · rw [CopyStore.dir_touch]
          exact hwrites.listed
        · intro part hpart
          obtain ⟨hold, hrows⟩ | ⟨earlier, hearlier⟩ := hwrites.filed part hpart
          · have htouch : (copies.touch id).dir id = copies.dir id := CopyStore.dir_touch
            rw [hrows, ← htouch]
            apply (hpartly.shown id).filed
            rw [CopyStore.dir_touch]
            exact hold
          · rw [hearlier, LinkedStore.performAll, List.foldl_append]
            apply LinkedStore.Apart.file?_writePart
            apply (h.partly _).1.apart
            intro action haction
            apply hplan.aside
            rw [hearlier]
            exact List.mem_append_left _ haction

theorem appendInterrupted (h : Refines store copies) (rows : List Row) (stop : ℕ) :
  AgreeOn Refines (store.step limits (.appendInterrupted id rows stop))
    (copies.step limits (.appendInterrupted id rows stop))
  := by
  rw [LinkedStore.step, LinkedStore.appendInterrupted, CopyStore.step]
  cases hrows : rows.isEmpty with
  | true => exact .inr ⟨store, copies, rfl, rfl, h⟩
  | false =>
      simp only [Bool.false_eq_true, if_false]
      rw [h.readManifest_eq]
      obtain ⟨hsealed, hactions, -⟩ | ⟨actions, manifest, dir', hplan⟩ :=
        appendActions_spec limits (h.sound id) hrows
      · rw [hactions, hsealed]
        exact .inl ⟨_, rfl, rfl⟩
      rw [hplan.planned, hplan.mutable]
      refine .inr ⟨_, _, rfl, rfl, ?_⟩
      apply (h.partly _).1
      intro action haction
      exact hplan.aside action (List.mem_of_mem_take haction)

/-- A change of the manifest that keeps its parts. -/
theorem changeManifest (h : Refines store copies)
    {change : SpoolManifest → Option SpoolManifest}
    {operation : SpoolDir Row → Except ResultStoreError (SpoolDir Row)}
    (hchange : ∀ manifest manifest', change manifest = some manifest' →
      manifest'.parts = manifest.parts ∧ manifest'.loadedRows = manifest.loadedRows)
    (hoperation : ∀ dir, operation dir
      = if dir.readManifest.isSealed then .error .sealedSpool
        else match change dir.readManifest with
          | none => .ok dir
          | some manifest => .ok (dir.writeManifest manifest)) :
  AgreeOn Refines (LinkedStore.changeManifest id change store) (copies.modify id operation)
  := by
  rw [LinkedStore.changeManifest, CopyStore.modify, hoperation, h.readManifest_eq]
  cases hsealed : (copies.dir id).readManifest.isSealed with
  | true => exact .inl ⟨_, rfl, rfl⟩
  | false =>
      simp only [Bool.false_eq_true, if_false]
      cases hnew : change (copies.dir id).readManifest with
      | none => exact .inr ⟨_, _, rfl, rfl, h.touch id⟩
      | some manifest =>
          obtain ⟨hparts, hloaded⟩ := hchange _ _ hnew
          refine .inr ⟨_, _, rfl, rfl, ?_⟩
          have htouched := h.touch id
          rw [← setDir_touch]
          have hsame : store.writeManifest id manifest
              = (store.touch id).writeManifest id manifest := by
            rw [LinkedStore.writeManifest, LinkedStore.writeManifest, LinkedStore.dir_touch,
              LinkedStore.touch, LinkedStore.setDir, LinkedStore.setDir, LinkedStore.setDir]
            simp only [Function.update_idem]
          rw [hsame]
          apply htouched.writeManifest isSome_touch
          · exact (h.sound id).writeManifest hparts hloaded
          · rfl
          · intro part hpart
            rw [CopyStore.dir_touch] at hpart
            rw [hparts]
            exact hpart
          · intro part hpart
            rw [hparts] at hpart
            rw [LinkedStore.file?_touch]
            exact (h.shown id).filed part hpart

theorem delete (h : Refines store copies) :
  AgreeOn Refines (store.step limits (.delete id)) (copies.step limits (.delete id))
  := by
  refine .inr ⟨_, _, rfl, rfl, ?_⟩
  have hstore : ∀ id', (store.deleteSpool id).dir id' = if id' = id then {} else store.dir id' := by
    intro id'
    rw [LinkedStore.dir, LinkedStore.deleteSpool]
    dsimp only
    rw [Function.update_apply]
    split
    · rfl
    · rfl
  have hcopies : ∀ id',
      CopyStore.dir { copies with dirs := Function.update copies.dirs id none } id'
      = if id' = id then {} else copies.dir id' := by
    intro id'
    rw [CopyStore.dir]
    dsimp only
    rw [Function.update_apply]
    split
    · rfl
    · rfl
  have hkept : ∀ id' index inode,
      ((store.deleteSpool id).dir id').links index = some inode →
        id' ≠ id ∧ (store.dir id').links index = some inode := by
    intro id' index inode hlink
    rw [hstore] at hlink
    split at hlink
    case isTrue => cases hlink
    case isFalse hne => exact ⟨hne, hlink⟩
  have hlisted : ∀ id' index, id' ≠ id → store.Listed id' index →
      (store.deleteSpool id).Listed id' index := by
    intro id' index hne hlisted
    rw [LinkedStore.Listed, hstore, if_neg hne]
    exact hlisted
  constructor
  · constructor
    · intro id' index inode hlink
      exact h.apart.fresh _ _ _ (hkept _ _ _ hlink).2
    · intro id₁ index₁ id₂ index₂ inode h₁ h₂
      obtain ⟨hne₁, h₁⟩ := hkept _ _ _ h₁
      obtain ⟨hne₂, h₂⟩ := hkept _ _ _ h₂
      obtain hsame | hboth := h.apart.apart _ _ _ _ _ h₁ h₂
      · exact .inl hsame
      · exact .inr ⟨hlisted _ _ hne₁ hboth.1, hlisted _ _ hne₂ hboth.2⟩
  · intro id'
    rw [LinkedStore.deleteSpool]
    dsimp only
    rw [Function.update_apply, Function.update_apply]
    split
    · rfl
    · exact h.present id'
  · intro id'
    rw [hcopies]
    constructor
    · rw [hstore]
      split
      · rfl
      · exact (h.shown id').manifest
    · intro part hpart
      split at hpart
      case isTrue => exact (List.not_mem_nil hpart).elim
      case isFalse hne =>
        rw [LinkedStore.file?, hstore, if_neg hne, if_neg hne]
        exact (h.shown id').filed part hpart
  · intro id'
    rw [hcopies]
    split
    · exact SpoolDir.sound_empty
    · exact h.sound id'

end Refines

end Results

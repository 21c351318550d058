import DataOpsStudio.Results.Aliasing

/-!
# Snapshots

The parts of a snapshot are files of the source, or copies of them.  In every run the store with
hard links is seen as the store with copies, and a snapshot keeps the rows that its source had,
whatever is done to the source afterwards.
-/

namespace Results

variable {Id Row : Type} [DecidableEq Id]

/-! ### Taking a snapshot -/

/-- The names of a snapshot to which some parts have been linked: each is the name of the file of
the source or of a copy. -/
structure LinkedParts (source : LinkedDir) (base : List (List Row)) (parts : List PartInfo)
    (links : ℕ → Option ℕ) (inodes : List (List Row)) : Prop where
  grows : base <+: inodes
  named : ∀ index inode, links index = some inode →
    (∃ part ∈ parts, part.index = index) ∧ inode < inodes.length
      ∧ (source.links index = some inode ∨ base.length ≤ inode)
  filed : ∀ part ∈ parts, ∃ inode old, links part.index = some inode
    ∧ source.links part.index = some old ∧ inodes[inode]? = base[old]?

namespace LinkedParts

variable {source : LinkedDir} {base inodes : List (List Row)} {parts : List PartInfo}
  {links : ℕ → Option ℕ}

omit [DecidableEq Id]

/-- No parts yet. -/
theorem none (source : LinkedDir) (base : List (List Row)) :
  LinkedParts source base [] (fun _ => Option.none) base
  := by
  constructor
  · exact List.prefix_refl _
  · intro index inode h
    cases h
  · intro part h
    exact (List.not_mem_nil h).elim

/-- One more part. -/
theorem add (h : LinkedParts source base parts links inodes) {part : PartInfo} {inode old : ℕ}
    {more : List (List Row)} (hsource : source.links part.index = some old)
    (hbound : inode < (inodes ++ more).length)
    (hinode : source.links part.index = some inode ∨ base.length ≤ inode)
    (hrows : (inodes ++ more)[inode]? = base[old]?) :
  LinkedParts source base (parts ++ [part])
    (Function.update links part.index (some inode)) (inodes ++ more)
  := by
  constructor
  · exact h.grows.trans (List.prefix_append _ _)
  · intro index inode' hlink
    rw [Function.update_apply] at hlink
    split at hlink
    case isTrue heq =>
      obtain rfl := Option.some.inj hlink
      subst heq
      exact ⟨⟨part, List.mem_append_right _ (List.mem_singleton.mpr rfl), rfl⟩, hbound, hinode⟩
    case isFalse =>
      obtain ⟨⟨part', hpart', hindex⟩, hlt, hfrom⟩ := h.named _ _ hlink
      refine ⟨⟨part', List.mem_append_left _ hpart', hindex⟩, ?_, hfrom⟩
      rw [List.length_append]
      omega
  · intro part' hpart'
    by_cases heq : part'.index = part.index
    · rw [heq]
      exact ⟨inode, old, Function.update_self _ _ _, hsource, hrows⟩
    · rw [List.mem_append, List.mem_singleton] at hpart'
      obtain hpart' | rfl := hpart'
      · obtain ⟨inode', old', hlink, hold, hsame⟩ := h.filed part' hpart'
        refine ⟨inode', old', ?_, hold, ?_⟩
        · rw [Function.update_of_ne heq, hlink]
        · rw [List.getElem?_append_left (h.named _ _ hlink).2.1, hsame]
      · exact absurd rfl heq

/-- All the parts of a source whose files are there are linked. -/
theorem linkParts (linkable : ℕ → Bool) {rest : List PartInfo}
    (h : LinkedParts source base parts links inodes)
    (hrest : ∀ part ∈ rest, ∃ old, source.links part.index = some old ∧ old < base.length) :
  ∃ links' inodes',
    LinkedStore.linkParts source linkable rest links inodes = .ok (links', inodes')
      ∧ LinkedParts source base (parts ++ rest) links' inodes'
  := by
  induction rest generalizing parts links inodes with
  | nil =>
      rw [List.append_nil]
      exact ⟨links, inodes, rfl, h⟩
  | cons part rest ih =>
      rw [List.forall_mem_cons] at hrest
      obtain ⟨⟨old, hold, hlt⟩, hrest⟩ := hrest
      have hkept : inodes[old]? = base[old]? := by
        obtain ⟨tail, rfl⟩ := h.grows
        exact List.getElem?_append_left hlt
      have hle := h.grows.length_le
      rw [LinkedStore.linkParts, hold, List.append_cons]
      dsimp only
      split
      case isTrue =>
        apply ih _ hrest
        rw [← List.append_nil inodes]
        apply h.add hold
        · rw [List.append_nil]
          omega
        · exact .inl hold
        · rw [List.append_nil, hkept]
      case isFalse =>
        apply ih _ hrest
        apply h.add hold
        · rw [List.length_append, List.length_singleton]
          omega
        · exact .inr hle
        · rw [List.getElem?_concat_length, hkept, List.getElem?_eq_getElem hlt]
          rfl

end LinkedParts

/-! ### The manifest of a snapshot -/

section Manifest

variable {manifest : SpoolManifest} {bytes : PartInfo → ℕ}

omit [DecidableEq Id]

@[simp]
theorem parts_snapshot :
  (manifest.snapshot bytes).parts
    = manifest.parts.map fun part => { part with bytes := bytes part }
  := rfl

theorem snapshot_congr {bytes' : PartInfo → ℕ}
    (h : ∀ part ∈ manifest.parts, bytes part = bytes' part) :
  manifest.snapshot bytes = manifest.snapshot bytes'
  := by
  have hparts : manifest.parts.map (fun part => { part with bytes := bytes part })
      = manifest.parts.map fun part => { part with bytes := bytes' part } := by
    apply List.map_congr_left
    intro part hpart
    rw [h part hpart]
  rw [SpoolManifest.snapshot, SpoolManifest.snapshot, hparts, List.map_congr_left h]

/-- A spool with the files of a source and the manifest of its snapshot. -/
def SpoolDir.snapshot (limits : SpoolLimits Row) (dir : SpoolDir Row) : SpoolDir Row :=
  { dir with
    manifest := some (dir.readManifest.snapshot fun part => limits.partBytes (dir.partRows part)) }

variable {limits : SpoolLimits Row} {dir : SpoolDir Row}

theorem readManifest_snapshot :
  (dir.snapshot limits).readManifest
    = dir.readManifest.snapshot fun part => limits.partBytes (dir.partRows part)
  := rfl

theorem rows_snapshot :
  (dir.snapshot limits).rows = dir.rows
  := by
  rw [SpoolDir.rows, SpoolDir.rows, readManifest_snapshot, parts_snapshot, List.flatMap_map]
  rfl

theorem SpoolDir.Sound.snapshot (h : dir.Sound) :
  (dir.snapshot limits).Sound
  := by
  constructor
  · intro part hpart
    rw [readManifest_snapshot, parts_snapshot] at hpart ⊢
    rw [List.length_map]
    obtain ⟨part, hmem, rfl⟩ := List.mem_map.mp hpart
    exact h.numbered part hmem
  · intro part hpart
    rw [readManifest_snapshot, parts_snapshot] at hpart
    obtain ⟨part, hmem, rfl⟩ := List.mem_map.mp hpart
    exact h.filed part hmem
  · rw [rows_snapshot]
    exact h.counted

end Manifest

/-! ### The step -/

namespace Refines

variable {limits : SpoolLimits Row} {store : LinkedStore Id Row} {copies : CopyStore Id Row}
  {id : Id}

/-- A directory to which the parts of a source are linked. -/
theorem link (limits : SpoolLimits Row) (h : Refines store copies) {source target : Id}
    (hne : source ≠ target)
    {links : ℕ → Option ℕ} {inodes : List (List Row)}
    (hlinked : LinkedParts (store.dir source) store.inodes (copies.dir source).readManifest.parts
      links inodes)
    (habsent : (store.dirs target).isSome = false) :
  Refines
    ((store.setDir target
      { manifest := ((copies.dir source).snapshot limits).manifest
        links := links }).setInodes inodes)
    (copies.setDir target ((copies.dir source).snapshot limits))
  := by
  have hempty : store.dir target = {} := by
    rw [LinkedStore.dir, Option.isSome_eq_false_iff.mp habsent |> Option.isNone_iff_eq_none.mp]
    rfl
  have hgrows := hlinked.grows.length_le
  -- the names outside the snapshot are those of before, and their files are listed as before
  have hlisted : ∀ id' index, store.Listed id' index →
      ((store.setDir target
        { manifest := ((copies.dir source).snapshot limits).manifest
          links := links }).setInodes inodes).Listed id' index := by
    rintro id' index ⟨part, hpart, hindex⟩
    rw [LinkedStore.Listed, LinkedStore.dir_setInodes, LinkedStore.dir_setDir]
    split
    case isTrue heq =>
      subst heq
      rw [hempty] at hpart
      exact (List.not_mem_nil hpart).elim
    case isFalse => exact ⟨part, hpart, hindex⟩
  have htarget : ∀ index, (∃ part ∈ (copies.dir source).readManifest.parts, part.index = index) →
      ((store.setDir target
        { manifest := ((copies.dir source).snapshot limits).manifest
          links := links }).setInodes inodes).Listed target index := by
    rintro index ⟨part, hpart, hindex⟩
    rw [LinkedStore.Listed, LinkedStore.dir_setInodes, LinkedStore.dir_setDir, if_pos rfl]
    exact ⟨_, List.mem_map.mpr ⟨part, hpart, rfl⟩, hindex⟩
  -- a file of the snapshot that has another name is a file of the source
  have hshared : ∀ index id' index' inode, links index = some inode →
      (store.dir id').links index' = some inode → store.Listed id' index' := by
    intro index id' index' inode hlink hother
    obtain ⟨⟨part, hpart, hindex⟩, -, hfrom⟩ := hlinked.named _ _ hlink
    obtain hsource | hlength := hfrom
    · obtain ⟨rfl, rfl⟩ | hboth := h.apart.apart _ _ _ _ _ hsource hother
      · rw [← h.readManifest_eq] at hpart
        exact ⟨part, hpart, hindex⟩
      · exact hboth.2
    · exact absurd (h.apart.fresh _ _ _ hother) (Nat.not_lt.mpr hlength)
  constructor
  · constructor
    · intro id' index inode hlink
      rw [LinkedStore.dir_setInodes, LinkedStore.dir_setDir] at hlink
      split at hlink
      case isTrue => exact (hlinked.named _ _ hlink).2.1
      case isFalse => exact (h.apart.fresh _ _ _ hlink).trans_le hgrows
    · intro id₁ index₁ id₂ index₂ inode h₁ h₂
      rw [LinkedStore.dir_setInodes, LinkedStore.dir_setDir] at h₁ h₂
      split at h₁
      case isTrue heq₁ =>
        subst heq₁
        split at h₂
        case isTrue heq₂ =>
          subst heq₂
          exact .inr ⟨htarget _ (hlinked.named _ _ h₁).1, htarget _ (hlinked.named _ _ h₂).1⟩
        case isFalse =>
          exact .inr ⟨htarget _ (hlinked.named _ _ h₁).1, hlisted _ _ (hshared _ _ _ _ h₁ h₂)⟩
      case isFalse =>
        split at h₂
        case isTrue heq₂ =>
          subst heq₂
          exact .inr ⟨hlisted _ _ (hshared _ _ _ _ h₂ h₁), htarget _ (hlinked.named _ _ h₂).1⟩
        case isFalse =>
          obtain hsame | hboth := h.apart.apart _ _ _ _ _ h₁ h₂
          · exact .inl hsame
          · exact .inr ⟨hlisted _ _ hboth.1, hlisted _ _ hboth.2⟩
  · intro id'
    rw [CopyStore.isSome_setDir, ← h.present]
    exact LinkedStore.isSome_setDir
  · intro id'
    rw [CopyStore.dir_setDir]
    split
    case isTrue heq =>
      subst heq
      constructor
      · rw [LinkedStore.dir_setInodes, LinkedStore.dir_setDir, if_pos rfl]
      · intro part hpart
        obtain ⟨part, hmem, rfl⟩ := List.mem_map.mp hpart
        obtain ⟨inode, old, hlink, hold, hrows⟩ := hlinked.filed part hmem
        have hfile := (h.shown source).filed part hmem
        rw [LinkedStore.file?, hold, Option.bind_some] at hfile
        rw [LinkedStore.file?, LinkedStore.dir_setInodes, LinkedStore.dir_setDir, if_pos rfl]
        dsimp only
        rw [hlink, Option.bind_some]
        exact hrows.trans hfile
    case isFalse hother =>
      constructor
      · rw [LinkedStore.dir_setInodes, LinkedStore.dir_setDir, if_neg hother]
        exact (h.shown id').manifest
      · intro part hpart
        have hfile := (h.shown id').filed part hpart
        rw [← hfile, LinkedStore.file?, LinkedStore.file?, LinkedStore.dir_setInodes,
          LinkedStore.dir_setDir, if_neg hother]
        cases hlink : (store.dir id').links part.index with
        | none => rfl
        | some inode =>
            obtain ⟨tail, rfl⟩ := hlinked.grows
            exact List.getElem?_append_left (h.apart.fresh _ _ _ hlink)
  · intro id'
    rw [CopyStore.dir_setDir]
    split
    · exact (h.sound source).snapshot
    · exact h.sound id'

theorem snapshot (h : Refines store copies) (source target : Id) (linkable : ℕ → Bool) :
  AgreeOn Refines (store.step limits (.snapshot source target linkable))
    (copies.step limits (.snapshot source target linkable))
  := by
  rw [LinkedStore.step, LinkedStore.snapshotSpool, CopyStore.step, CopyStore.snapshotSpool]
  split
  case isTrue => exact .inl ⟨_, rfl, rfl⟩
  case isFalse hne =>
    rw [(h.shown source).manifest, h.present target]
    cases hmanifest : (copies.dir source).manifest with
    | none => exact .inl ⟨_, rfl, rfl⟩
    | some manifest =>
        dsimp only
        split
        case isTrue => exact .inl ⟨_, rfl, rfl⟩
        case isFalse habsent =>
          have hread : (copies.dir source).readManifest = manifest := by
            rw [SpoolDir.readManifest, hmanifest, Option.getD_some]
          have hfiles : ∀ part ∈ manifest.parts, ∃ old,
              (store.dir source).links part.index = some old ∧ old < store.inodes.length := by
            intro part hpart
            rw [← hread] at hpart
            have hfile := (h.shown source).filed part hpart
            obtain ⟨old, hold, -⟩ := Option.bind_eq_some_iff.mp hfile
            exact ⟨old, hold, h.apart.fresh _ _ _ hold⟩
          obtain ⟨links, inodes, hok, hlinked⟩ :=
            (LinkedParts.none (store.dir source) store.inodes).linkParts linkable hfiles
          rw [hok]
          refine .inr ⟨_, _, rfl, rfl, ?_⟩
          rw [List.nil_append, ← hread] at hlinked
          have hbytes : manifest.snapshot (fun part =>
                limits.partBytes ((store.file? source part.index).getD []))
              = manifest.snapshot fun part =>
                limits.partBytes ((copies.dir source).partRows part) := by
            apply snapshot_congr
            intro part hpart
            rw [← hread] at hpart
            rw [(h.shown source).filed part hpart, Option.getD_some]
          rw [hbytes]
          have hlink := h.link limits hne hlinked
            ((Bool.not_eq_true _).mp (h.present target ▸ habsent))
          rw [SpoolDir.snapshot, hread] at hlink
          exact hlink

theorem step (h : Refines store copies) (op : StoreOp Id Row) :
  AgreeOn Refines (store.step limits op) (copies.step limits op)
  := by
  cases op with
  | read id => exact .inr ⟨_, _, rfl, rfl, h.touch id⟩
  | append id rows => exact h.append rows
  | appendInterrupted id rows stop => exact h.appendInterrupted rows stop
  | markTruncated id =>
      rw [LinkedStore.step, CopyStore.step]
      apply h.changeManifest
      · intro manifest manifest' hchange
        split at hchange
        case isTrue => cases hchange
        case isFalse =>
          obtain rfl := Option.some.inj hchange
          exact ⟨rfl, rfl⟩
      · intro dir
        rw [markSpoolTruncated]
        split
        · rfl
        · split
          · rfl
          · rfl
  | setPagination id hasMore =>
      rw [LinkedStore.step, CopyStore.step]
      apply h.changeManifest
      · intro manifest manifest' hchange
        obtain rfl := Option.some.inj hchange
        exact ⟨rfl, rfl⟩
      · intro dir
        rfl
  | setColumns id columns =>
      rw [LinkedStore.step, CopyStore.step]
      apply h.changeManifest
      · intro manifest manifest' hchange
        obtain rfl := Option.some.inj hchange
        exact ⟨rfl, rfl⟩
      · intro dir
        rfl
  | snapshot source target linkable => exact h.snapshot source target linkable
  | delete id => exact h.delete

omit [DecidableEq Id] in
theorem initial :
  Refines ({} : LinkedStore Id Row) {}
  := by
  constructor
  · constructor
    · intro id index inode h
      cases h
    · intro id index id' index' inode h
      cases h
  · intro id
    rfl
  · intro id
    constructor
    · rfl
    · intro part hpart
      exact (List.not_mem_nil hpart).elim
  · intro id
    exact SpoolDir.sound_empty

omit [DecidableEq Id] in
/-- What is read through the files of a spool are the rows of the spool. -/
theorem view_spec (h : Refines store copies) (id : Id) :
  (store.view id).Sound ∧ (store.view id).rows = (copies.dir id).rows
  := by
  have hread : (store.view id).readManifest = (copies.dir id).readManifest := h.readManifest_eq id
  have hrows : ∀ part ∈ (copies.dir id).readManifest.parts,
      (store.view id).partRows part = (copies.dir id).partRows part := by
    intro part hpart
    rw [SpoolDir.partRows, LinkedStore.view]
    dsimp only
    rw [h.readManifest_eq]
    have hlisted : part.index ∈ ((copies.dir id).readManifest.parts.map fun part =>
        (part.index, (store.file? id part.index).getD [])).map Prod.fst :=
      List.mem_map.mpr ⟨_, List.mem_map.mpr ⟨part, hpart, rfl⟩, rfl⟩
    obtain ⟨rows, hget⟩ := Dict.exists_get?_ofList hlisted
    rw [hget, Option.getD_some]
    obtain ⟨part', -, hpair⟩ := List.mem_map.mp (Dict.mem_of_get?_ofList hget)
    obtain ⟨hindex, rfl⟩ := Prod.mk.inj hpair
    rw [hindex, (h.shown id).filed part hpart, Option.getD_some]
  have hall : (store.view id).rows = (copies.dir id).rows := by
    rw [SpoolDir.rows, hread]
    exact List.flatMap_congr hrows
  obtain ⟨hnumbered, hfiled, hcounted⟩ := h.sound id
  refine ⟨⟨?_, ?_, ?_⟩, hall⟩
  · rw [hread]
    exact hnumbered
  · rw [hread]
    intro part hpart
    rw [hrows part hpart]
    exact hfiled part hpart
  · rw [hread, hall]
    exact hcounted

end Refines

/-! ### Runs -/

section Runs

variable {limits : SpoolLimits Row}

/-- A spool in the end of a run. -/
theorem refines_runOps (limits : SpoolLimits Row) {store : LinkedStore Id Row}
    {copies : CopyStore Id Row} (h : Refines store copies) (ops : List (StoreOp Id Row)) :
  (runOps (LinkedStore.step limits) store ops).2 = (runOps (CopyStore.step limits) copies ops).2
    ∧ Refines (runOps (LinkedStore.step limits) store ops).1
        (runOps (CopyStore.step limits) copies ops).1
  := runOps_simulation (fun _ _ op h => h.step op) h ops

/-- The store whose snapshots are hard links is seen as the store whose snapshots are copies: in
every run the same operations raise the same, and every spool has the same manifest and the same
rows. -/
theorem hardLinks_refine_copies (limits : SpoolLimits Row) (ops : List (StoreOp Id Row)) :
  (runOps (LinkedStore.step limits) {} ops).2 = (runOps (CopyStore.step limits) {} ops).2
    ∧ ∀ id, ((runOps (LinkedStore.step limits) {} ops).1.dir id).manifest
          = ((runOps (CopyStore.step limits) {} ops).1.dir id).manifest
        ∧ ∀ offset limit,
          fetchRange ((runOps (LinkedStore.step limits) {} ops).1.view id) offset limit
            = fetchRange ((runOps (CopyStore.step limits) {} ops).1.dir id) offset limit
  := by
  obtain ⟨hraised, hrefines⟩ := refines_runOps limits Refines.initial ops
  refine ⟨hraised, ?_⟩
  intro id
  refine ⟨(hrefines.shown id).manifest, ?_⟩
  intro offset limit
  obtain ⟨hsound, hrows⟩ := hrefines.view_spec id
  rw [fetchRange_eq hsound, fetchRange_eq (hrefines.sound id), hrows]

/-- A sealed spool stays as it is until it is deleted. -/
theorem CopyStore.sealed_step {copies copies' : CopyStore Id Row} {op : StoreOp Id Row}
    {target : Id} {dir : SpoolDir Row} (hdir : copies.dirs target = some dir)
    (hsealed : dir.readManifest.isSealed = true) (hkept : op ≠ .delete target)
    (h : copies.step limits op = .ok copies') :
  copies'.dirs target = some dir
  := by
  have hat : copies.dir target = dir := by
    rw [CopyStore.dir, hdir, Option.getD_some]
  have hset : ∀ {id : Id} {dir' : SpoolDir Row}, (id = target → dir' = dir) →
      (copies.setDir id dir').dirs target = some dir := by
    intro id dir' hsame
    rw [CopyStore.setDir]
    dsimp only
    rw [Function.update_apply]
    split
    case isTrue heq => rw [hsame heq.symm]
    case isFalse => exact hdir
  have hmodify : ∀ {id : Id} {operation : SpoolDir Row → Except ResultStoreError (SpoolDir Row)},
      (operation dir = .error .sealedSpool ∨ id ≠ target) →
      copies.modify id operation = .ok copies' → copies'.dirs target = some dir := by
    intro id operation hrefuses hmodified
    rw [CopyStore.modify] at hmodified
    split at hmodified
    case h_1 => cases hmodified
    case h_2 dir' hdir' =>
      obtain rfl := Except.ok.inj hmodified
      apply hset
      rintro rfl
      obtain hraises | hne := hrefuses
      · rw [hat, hraises] at hdir'
        cases hdir'
      · exact absurd rfl hne
  cases op with
  | read id =>
      obtain rfl := Except.ok.inj h
      apply hset
      rintro rfl
      exact hat
  | append id rows =>
      rw [CopyStore.step] at h
      split at h
      case isTrue =>
        obtain rfl := Except.ok.inj h
        exact hdir
      case isFalse hrows =>
        apply hmodify _ h
        left
        rw [Results.appendSpool, hsealed]
        dsimp only
        rw [if_neg hrows, if_pos rfl]
  | appendInterrupted id rows stop =>
      rw [CopyStore.step] at h
      split at h
      case isTrue =>
        obtain rfl := Except.ok.inj h
        exact hdir
      split at h
      case isTrue => cases h
      case isFalse =>
        obtain rfl := Except.ok.inj h
        apply hset
        rintro rfl
        exact hat
  | markTruncated id =>
      apply hmodify _ h
      left
      rw [markSpoolTruncated, hsealed, if_pos rfl]
  | setPagination id hasMore =>
      apply hmodify _ h
      left
      rw [setSpoolPagination, hsealed, if_pos rfl]
  | setColumns id columns =>
      apply hmodify _ h
      left
      rw [setSpoolColumns, hsealed, if_pos rfl]
  | snapshot source target' linkable =>
      rw [CopyStore.step, CopyStore.snapshotSpool] at h
      split at h
      case isTrue => cases h
      split at h
      case h_1 => cases h
      split at h
      case isTrue => cases h
      case isFalse habsent =>
        obtain rfl := Except.ok.inj h
        apply hset
        rintro rfl
        rw [hdir] at habsent
        exact absurd rfl habsent
  | delete id =>
      obtain rfl := Except.ok.inj h
      dsimp only
      rw [Function.update_of_ne _ _ _]
      · exact hdir
      · rintro rfl
        exact hkept rfl

/-- What a snapshot has made: a sealed spool with the rows of its source. -/
theorem CopyStore.snapshot_spec {copies copies' : CopyStore Id Row} {source target : Id}
    {linkable : ℕ → Bool}
    (h : copies.step limits (.snapshot source target linkable) = .ok copies') :
  copies'.dirs target = some ((copies.dir source).snapshot limits)
  := by
  rw [CopyStore.step, CopyStore.snapshotSpool] at h
  split at h
  case isTrue => cases h
  split at h
  case h_1 => cases h
  case h_2 manifest hmanifest =>
    split at h
    case isTrue => cases h
    case isFalse =>
      obtain rfl := Except.ok.inj h
      rw [SpoolDir.snapshot, SpoolDir.readManifest, hmanifest]
      exact Function.update_self _ _ _

/-- A snapshot keeps the rows of its source: whatever is done to the source and to the other spools
after it has been taken, until it is deleted its rows are those that the source had. -/
theorem snapshot_keeps_rows (limits : SpoolLimits Row) (before later : List (StoreOp Id Row))
    {source target : Id} {linkable : ℕ → Bool} {store : LinkedStore Id Row}
    (hsnapshot : LinkedStore.step limits (runOps (LinkedStore.step limits) {} before).1
      (.snapshot source target linkable) = .ok store)
    (hkept : .delete target ∉ later) (offset limit : ℕ) :
  fetchRange ((runOps (LinkedStore.step limits) store later).1.view target) offset limit
    = fetchRange ((runOps (LinkedStore.step limits) {} before).1.view source) offset limit
  := by
  obtain ⟨-, hbefore⟩ := refines_runOps limits Refines.initial before
  generalize (runOps (LinkedStore.step limits) {} before).1 = first at hsnapshot hbefore ⊢
  generalize (runOps (CopyStore.step limits) {} before).1 = copies at hbefore
  have hagree : AgreeOn Refines (first.step limits (.snapshot source target linkable))
      (copies.step limits (.snapshot source target linkable)) := hbefore.step _
  obtain ⟨e, hraised, -⟩ | ⟨store', copies', hstore, hcopies, htaken⟩ := hagree
  · cases hraised.symm.trans hsnapshot
  obtain rfl := Except.ok.inj (hsnapshot.symm.trans hstore)
  obtain ⟨-, hlater⟩ := refines_runOps limits htaken later
  have hdir : (runOps (CopyStore.step limits) copies' later).1.dirs target
      = some ((copies.dir source).snapshot limits) := by
    apply runOps_invariant fun copies' : CopyStore Id Row =>
      copies'.dirs target = some ((copies.dir source).snapshot limits)
    · intro copies₁ op copies₂ hop hbefore hstep
      apply CopyStore.sealed_step hbefore rfl _ hstep
      rintro rfl
      exact hkept hop
    · exact CopyStore.snapshot_spec hcopies
  obtain ⟨hsound, hrows⟩ := hlater.view_spec target
  obtain ⟨hsource, hsourceRows⟩ := hbefore.view_spec source
  rw [fetchRange_eq hsound, fetchRange_eq hsource, hrows, hsourceRows, CopyStore.dir, hdir,
    Option.getD_some, rows_snapshot]

/-- Two rows are captured, and then the source is appended to and deleted. -/
theorem snapshot_keeps_two_rows :
  let limits : SpoolLimits ℕ := { maxRows := 10, maxBytes := 10, partBytes := List.length }
  let first := (runOps (LinkedStore.step limits) {} [.append 0 [1, 2]]).1
  ∃ store, LinkedStore.step limits first (.snapshot 0 1 fun _ => true) = .ok store
    ∧ fetchRange ((runOps (LinkedStore.step limits) store
        [.append 0 [3], .markTruncated 0, .delete 0, .append 0 [4]]).1.view 1) 0 5
      = fetchRange (first.view 0) 0 5
  := by
  intro limits first
  have htaken : ∃ store,
      LinkedStore.step limits first (.snapshot 0 1 fun _ => true) = .ok store := ⟨_, rfl⟩
  obtain ⟨store, hstore⟩ := htaken
  use store, hstore
  apply snapshot_keeps_rows limits _ _ hstore
  simp

end Runs

end Results

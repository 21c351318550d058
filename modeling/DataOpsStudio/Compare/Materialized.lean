import DataOpsStudio.Compare.Accounting

/-!
# The diff of materialised rows

Files and result snapshots are compared in memory.  Both sides are read into dictionaries by
the normalised identity of their primary keys, so that a key written as a text meets the same
key written as a number, and every key of either side yields one event, in the order of the
keys.  A diff that returns aligns the rows of the two sides: every row stands in one place of
the alignment, two rows stand together when their keys are normalised alike, and the order in
which the rows came leaves no trace.
-/

namespace Compare

open Text

variable {β : Type}

/-! ### The loops -/

/-- The loops of the diff, each of which looks for a cancel request. -/
inductive MaterializedLoop where
  | rows (side : Side)
  | keys

/-- Every thousandth turn of a loop looks for a cancel request. -/
def checkCancel (cancelRequested : MaterializedLoop → ℕ → Bool) (loop : MaterializedLoop)
    (index : ℕ) : Except CompareError Unit :=
  if index % 1000 = 0 ∧ cancelRequested loop index = true then .error (.adapter "cancel requested")
  else .ok ()

/-- Keys are compared as tuples of a flag and a text. -/
instance : Ord (Bool × Text) := lexOrd

/-- The keys in their order. -/
def sortedMatchKeys (keys : List Identity) : List Identity :=
  keys.mergeSort (fun a b => (compare a b).isLE)

/-- The event of the rows that two sides hold under a key, shown under the primary key of the
source row where there is one. -/
def materializedEvent [BEq β] :
    Option (CompareRow β) → Option (CompareRow β) → Option (CompareDiffEvent β)
  | none, some target => diffEvent target.pk none (some target)
  | some source, target => diffEvent source.pk (some source) target
  | none, none => none

section Diff

variable (lib : Builtins) (keyColumns : List CompareColumn) (rules : CompareRules)
variable (cancelRequested : MaterializedLoop → ℕ → Bool)

/-- The key under which a row is matched. -/
def matchKey (row : CompareRow β) : Except CompareError Identity :=
  normalizedCompareIdentity lib keyColumns row.pk rules

/-- Enter one row under its key. -/
def enterRow (side : Side) (state : Dict Identity (CompareRow β) × ℕ) (p : CompareRow β × ℕ) :
    Except CompareError (Dict Identity (CompareRow β) × ℕ) := do
  checkCancel cancelRequested (.rows side) p.2
  let key ← matchKey lib keyColumns rules p.1
  return indexRow (fun _ => key) state p.1

/-- The rows of one side by key; a key that occurs twice is an error. -/
def rowsByKey (rows : List (CompareRow β)) (side : Side) :
    Except CompareError (Dict Identity (CompareRow β)) := do
  let indexed ← rows.zipIdx.foldlM (enterRow lib keyColumns rules cancelRequested side)
    (Dict.empty, 0)
  if indexed.2 ≠ 0 then .error (.duplicateKey side indexed.2 rows.length) else return indexed.1

/-- What is computed for a key, after its turn of the loop has looked for a cancel request. -/
def afterCheck {κ α : Type} (f : κ → α) (p : κ × ℕ) : Except CompareError α := do
  checkCancel cancelRequested .keys p.2
  return f p.1

/-- The events of two lists of rows. -/
def diffMaterializedRows [BEq β] (sourceRows targetRows : List (CompareRow β)) :
    Except CompareError (List (CompareDiffEvent β) × HashdiffProgress) := do
  let sourceByKey ← rowsByKey lib keyColumns rules cancelRequested sourceRows .source
  let targetByKey ← rowsByKey lib keyColumns rules cancelRequested targetRows .target
  let events? ← (sortedMatchKeys (unionKeys sourceByKey targetByKey)).zipIdx.mapM
    (afterCheck cancelRequested
      (fun key => materializedEvent (sourceByKey.get? key) (targetByKey.get? key)))
  let events := events?.reduceOption
  return (events, { rowModeSegments := if events = [] then 0 else 1 })

end Diff

/-! ### The order of the keys -/

theorem sortedMatchKeys_perm (keys : List Identity) :
  (sortedMatchKeys keys).Perm keys
  := by
  apply List.mergeSort_perm

/-- The order in which keys come does not change their sorted list. -/
theorem sortedMatchKeys_congr {keys keys' : List Identity} (h : keys.Perm keys') :
  sortedMatchKeys keys = sortedMatchKeys keys'
  := by
  have hsorted : ∀ l : List Identity,
      (sortedMatchKeys l).Pairwise (fun a b => (compare a b).isLE = true) := by
    intro l
    apply List.pairwise_mergeSort
    · intro a b c hab hbc
      apply Std.TransCmp.isLE_trans hab hbc
    · intro a b
      rw [Std.OrientedOrd.eq_swap (a := b)]
      cases compare a b with
      | lt => rfl
      | eq => rfl
      | gt => rfl
  apply List.Perm.eq_of_pairwise _ (hsorted keys) (hsorted keys')
  · apply (sortedMatchKeys_perm keys).trans
    apply h.trans
    apply (sortedMatchKeys_perm keys').symm
  · intro a b _ _ hab hba
    apply Std.LawfulEqOrd.eq_of_compare
    apply Std.OrientedCmp.isLE_antisymm hab hba

/-! ### Reading the rows of a side -/

section Diff
variable {lib : Builtins} {keyColumns : List CompareColumn} {rules : CompareRules}
variable {cancelRequested : MaterializedLoop → ℕ → Bool}

variable (lib keyColumns rules) in
/-- The normalised key of a row whose key normalises. -/
def normalKey (row : CompareRow β) : Identity :=
  ((matchKey lib keyColumns rules row).toOption).getD []

variable (lib keyColumns rules cancelRequested) in
/-- The loop over the rows of a side gets to its end: it sees no cancel request, and every key
can be normalised. -/
structure ReadsAll (rows : List (CompareRow β)) (side : Side) : Prop where
  uncancelled : ∀ index < rows.length, checkCancel cancelRequested (.rows side) index = .ok ()
  normalises : ∀ row ∈ rows, ∃ key, matchKey lib keyColumns rules row = .ok key

theorem matchKey_eq_normalKey {row : CompareRow β} {key : Identity}
    (h : matchKey lib keyColumns rules row = .ok key) :
  normalKey lib keyColumns rules row = key
  := by
  rw [normalKey, h]
  rfl

/-- The loop over rows returns when it gets to its end, with the rows under their keys. -/
theorem foldlM_enterRow_eq_ok (rows : List (CompareRow β)) (side : Side) (first : ℕ)
    (state result : Dict Identity (CompareRow β) × ℕ) :
  (rows.zipIdx first).foldlM (enterRow lib keyColumns rules cancelRequested side) state
      = .ok result
    ↔ (∀ index < rows.length, checkCancel cancelRequested (.rows side) (first + index) = .ok ())
      ∧ (∀ row ∈ rows, ∃ key, matchKey lib keyColumns rules row = .ok key)
      ∧ rows.foldl (indexRow (normalKey lib keyColumns rules)) state = result
  := by
  induction rows generalizing first state with
  | nil =>
      rw [List.zipIdx_nil, List.foldlM_nil, Outcome.pure_eq_ok]
      simp
  | cons row rest ih =>
      rw [List.zipIdx_cons, List.foldlM_cons, Outcome.bind_eq_ok, List.foldl_cons]
      constructor
      · rintro ⟨next, hstep, hrest⟩
        obtain ⟨⟨⟩, hpoll, hstep⟩ := Outcome.bind_eq_ok.mp hstep
        obtain ⟨key, hkey, hstep⟩ := Outcome.bind_eq_ok.mp hstep
        obtain rfl := Outcome.pure_eq_ok.mp hstep
        obtain ⟨hpolls, hkeys, hresult⟩ := (ih _ _).mp hrest
        refine ⟨?_, ?_, ?_⟩
        · intro index hindex
          cases index with
          | zero => apply hpoll
          | succ index =>
              rw [← Nat.add_assoc, Nat.add_right_comm]
              apply hpolls index (by simpa using hindex)
        · intro row' hrow'
          rcases List.mem_cons.mp hrow' with rfl | hrow'
          · use key
          · apply hkeys row' hrow'
        · rw [← hresult, indexRow, matchKey_eq_normalKey hkey]
          rfl
      · rintro ⟨hpolls, hkeys, hresult⟩
        obtain ⟨key, hkey⟩ := hkeys row List.mem_cons_self
        use indexRow (fun _ => key) state row
        constructor
        · apply Outcome.bind_eq_ok.mpr
          use (), hpolls 0 (by simp)
          apply Outcome.bind_eq_ok.mpr
          use key, hkey
          rfl
        · apply (ih _ _).mpr
          refine ⟨?_, ?_, ?_⟩
          · intro index hindex
            rw [Nat.add_right_comm, Nat.add_assoc]
            apply hpolls (index + 1) (by simpa using hindex)
          · intro row' hrow'
            apply hkeys row' (List.mem_cons_of_mem _ hrow')
          · rw [← hresult, indexRow, indexRow, matchKey_eq_normalKey hkey]

/-- Two rows have the same normalised key. -/
def SameKeyTwice (lib : Builtins) (keyColumns : List CompareColumn) (rules : CompareRules)
    (rows : List (CompareRow β)) : Prop :=
  ¬ rows.Pairwise (fun a b => matchKey lib keyColumns rules a ≠ matchKey lib keyColumns rules b)


/-- A key that cannot be normalised raises an error of its own. -/
theorem matchKey_error {row : CompareRow β} {e : CompareError}
    (h : matchKey lib keyColumns rules row = .error e) :
  e = .invalidOperation ∨ ∃ message, e = .valueError message
  := by
  have hdecimal : ∀ value scale, normalizeDecimal value scale = .error e → e = .invalidOperation := by
    intro value scale h
    rw [normalizeDecimal] at h
    split at h
    · exact (Except.error.inj h).symm
    · exact (Except.error.inj h).symm
    · exact (Except.error.inj h).symm
    · cases h
    · have hquantize := Outcome.map_eq_error.mp h
      rw [quantize] at hquantize
      split at hquantize
      · exact (Except.error.inj hquantize).symm
      · cases hquantize
  have hvalues := Outcome.map_eq_error.mp h
  rw [normalizedValues] at hvalues
  split at hvalues
  · right
    exact ⟨_, (Except.error.inj hvalues).symm⟩
  · left
    obtain ⟨p, -, hp⟩ := Outcome.exists_of_mapM_error hvalues
    rw [normalizeValue] at hp
    split at hp
    · cases hp
    · split at hp
      · apply hdecimal _ _ (Outcome.map_eq_error.mp hp)
      · apply hdecimal _ _ (Outcome.map_eq_error.mp hp)
      · apply hdecimal _ _ (Outcome.map_eq_error.mp hp)
      all_goals cases hp

theorem sameKeyTwice_iff {rows : List (CompareRow β)}
    (h : ∀ row ∈ rows, ∃ key, matchKey lib keyColumns rules row = .ok key) :
  SameKeyTwice lib keyColumns rules rows
    ↔ (indexRows (normalKey lib keyColumns rules) rows).2 ≠ 0
  := by
  rw [SameKeyTwice, ne_eq, indexRows_count_iff, not_iff_not]
  apply List.Pairwise.iff_of_mem
  intro a b ha hb
  obtain ⟨key, hkey⟩ := h a ha
  obtain ⟨other, hother⟩ := h b hb
  rw [matchKey_eq_normalKey hkey, matchKey_eq_normalKey hother, hkey, hother,
    beq_eq_false_iff_ne]
  simp

/-- The rows of a side by key, when the loop over them gets to its end and their keys differ. -/
theorem rowsByKey_eq_ok {rows : List (CompareRow β)} {side : Side}
    {d : Dict Identity (CompareRow β)} :
  rowsByKey lib keyColumns rules cancelRequested rows side = .ok d
    ↔ ReadsAll lib keyColumns rules cancelRequested rows side
      ∧ ¬ SameKeyTwice lib keyColumns rules rows
      ∧ d = (indexRows (normalKey lib keyColumns rules) rows).1
  := by
  rw [rowsByKey, Outcome.bind_eq_ok]
  constructor
  · rintro ⟨indexed, hloop, h⟩
    obtain ⟨hpolls, hkeys, rfl⟩ := (foldlM_enterRow_eq_ok rows side 0 _ _).mp hloop
    split at h
    · cases h
    · rename_i hcount
      refine ⟨⟨by simpa using hpolls, hkeys⟩, ?_, (Outcome.pure_eq_ok.mp h).symm⟩
      rw [sameKeyTwice_iff hkeys]
      apply hcount
  · rintro ⟨⟨hpolls, hkeys⟩, hunique, rfl⟩
    use indexRows (normalKey lib keyColumns rules) rows
    constructor
    · apply (foldlM_enterRow_eq_ok rows side 0 _ _).mpr
      exact ⟨by simpa using hpolls, hkeys, rfl⟩
    · rw [sameKeyTwice_iff hkeys] at hunique
      rw [if_neg hunique]
      rfl

/-- A duplicate is reported when the loop over the rows gets to its end and two of them have the
same key. -/
theorem rowsByKey_duplicateKey {rows : List (CompareRow β)} {side : Side} :
  (∃ side' duplicates total, rowsByKey lib keyColumns rules cancelRequested rows side
      = .error (.duplicateKey side' duplicates total))
    ↔ ReadsAll lib keyColumns rules cancelRequested rows side
      ∧ SameKeyTwice lib keyColumns rules rows
  := by
  constructor
  · rintro ⟨side', duplicates, total, h⟩
    rw [rowsByKey] at h
    rcases Outcome.bind_eq_error.mp h with hloop | ⟨indexed, hloop, h⟩
    · exfalso
      obtain ⟨state, p, -, hp⟩ := Outcome.exists_of_foldlM_error hloop
      rcases Outcome.bind_eq_error.mp hp with hpoll | ⟨-, -, hp⟩
      · rw [checkCancel] at hpoll
        split at hpoll
        · cases hpoll
        · cases hpoll
      · rcases Outcome.bind_eq_error.mp hp with hkey | ⟨key, -, hp⟩
        · rcases matchKey_error hkey with h | ⟨message, h⟩
          · cases h
          · cases h
        · cases hp
    · obtain ⟨hpolls, hkeys, rfl⟩ := (foldlM_enterRow_eq_ok rows side 0 _ _).mp hloop
      split at h
      · rename_i hcount
        use ⟨by simpa using hpolls, hkeys⟩
        apply (sameKeyTwice_iff hkeys).mpr hcount
      · cases h
  · rintro ⟨⟨hpolls, hkeys⟩, htwice⟩
    use side, (indexRows (normalKey lib keyColumns rules) rows).2, rows.length
    rw [rowsByKey]
    apply Outcome.bind_eq_error.mpr
    right
    use indexRows (normalKey lib keyColumns rules) rows
    constructor
    · apply (foldlM_enterRow_eq_ok rows side 0 _ _).mpr
      exact ⟨by simpa using hpolls, hkeys, rfl⟩
    · rw [if_pos ((sameKeyTwice_iff hkeys).mp htwice)]

end Diff

/-! ### The alignment -/

/-- The rows that two sides hold under each key, in the order of the keys. -/
def alignedRows (source target : Dict Identity (CompareRow β)) :
    List (Option (CompareRow β) × Option (CompareRow β)) :=
  (sortedMatchKeys (unionKeys source target)).map (fun key => (source.get? key, target.get? key))

/-- Every row of either side stands in one place, and two rows of the two sides stand in the same
place exactly when they have the same key. -/
structure Aligns (key : CompareRow β → Except CompareError Identity)
    (source target : List (CompareRow β))
    (aligned : List (Option (CompareRow β) × Option (CompareRow β))) : Prop where
  source_rows : (aligned.filterMap Prod.fst).Perm source
  target_rows : (aligned.filterMap Prod.snd).Perm target
  together : ∀ s t, (some s, some t) ∈ aligned ↔ s ∈ source ∧ t ∈ target ∧ key s = key t

section Diff
variable {lib : Builtins} {keyColumns : List CompareColumn} {rules : CompareRules}
variable {cancelRequested : MaterializedLoop → ℕ → Bool}

theorem rowsByKey_items {rows : List (CompareRow β)} {side : Side}
    {d : Dict Identity (CompareRow β)}
    (h : rowsByKey lib keyColumns rules cancelRequested rows side = .ok d) :
  d.items = rows.map (fun row => (normalKey lib keyColumns rules row, row))
  := by
  obtain ⟨hreads, hunique, rfl⟩ := rowsByKey_eq_ok.mp h
  apply indexRows_items
  rw [sameKeyTwice_iff hreads.normalises] at hunique
  apply not_not.mp hunique

theorem rowsByKey_values {rows : List (CompareRow β)} {side : Side}
    {d : Dict Identity (CompareRow β)}
    (h : rowsByKey lib keyColumns rules cancelRequested rows side = .ok d) :
  d.values = rows
  := by
  rw [Dict.values, rowsByKey_items h, List.map_map]
  apply List.map_id

/-- The row under a key is the row with that key. -/
theorem rowsByKey_get? {rows : List (CompareRow β)} {side : Side}
    {d : Dict Identity (CompareRow β)}
    (h : rowsByKey lib keyColumns rules cancelRequested rows side = .ok d) {key : Identity}
    {row : CompareRow β} :
  d.get? key = some row ↔ row ∈ rows ∧ matchKey lib keyColumns rules row = .ok key
  := by
  have hnormal := (rowsByKey_eq_ok.mp h).1.normalises
  rw [Dict.get?_eq_some_iff, rowsByKey_items h, List.mem_map]
  constructor
  · rintro ⟨row', hrow', heq⟩
    obtain ⟨rfl, rfl⟩ := Prod.mk.inj heq
    use hrow'
    obtain ⟨key, hkey⟩ := hnormal row' hrow'
    rw [matchKey_eq_normalKey hkey, hkey]
  · rintro ⟨hrow, hkey⟩
    use row, hrow
    rw [matchKey_eq_normalKey hkey]

theorem alignedRows_aligns {source target : List (CompareRow β)}
    {sourceByKey targetByKey : Dict Identity (CompareRow β)}
    (hs : rowsByKey lib keyColumns rules cancelRequested source .source = .ok sourceByKey)
    (ht : rowsByKey lib keyColumns rules cancelRequested target .target = .ok targetByKey) :
  Aligns (matchKey lib keyColumns rules) source target (alignedRows sourceByKey targetByKey)
  := by
  have hnodup : (sortedMatchKeys (unionKeys sourceByKey targetByKey)).Nodup :=
    (sortedMatchKeys_perm _).nodup_iff.mpr (unionKeys_nodup _ _)
  have hmem : ∀ key, key ∈ sortedMatchKeys (unionKeys sourceByKey targetByKey)
      ↔ key ∈ sourceByKey.keys ∨ key ∈ targetByKey.keys := by
    intro key
    rw [(sortedMatchKeys_perm _).mem_iff, mem_unionKeys]
  constructor
  · rw [alignedRows, List.filterMap_map, ← rowsByKey_values hs]
    apply Dict.filterMap_get?_perm _ hnodup
    intro key hkey
    apply (hmem key).mpr
    left
    apply hkey
  · rw [alignedRows, List.filterMap_map, ← rowsByKey_values ht]
    apply Dict.filterMap_get?_perm _ hnodup
    intro key hkey
    apply (hmem key).mpr
    right
    apply hkey
  · intro s t
    rw [alignedRows, List.mem_map]
    constructor
    · rintro ⟨key, -, heq⟩
      obtain ⟨hsource, htarget⟩ := Prod.mk.inj heq
      obtain ⟨hs', hskey⟩ := (rowsByKey_get? hs).mp hsource
      obtain ⟨ht', htkey⟩ := (rowsByKey_get? ht).mp htarget
      exact ⟨hs', ht', hskey.trans htkey.symm⟩
    · rintro ⟨hs', ht', hkeys⟩
      obtain ⟨key, hkey⟩ := (rowsByKey_eq_ok.mp hs).1.normalises s hs'
      have hsource := (rowsByKey_get? hs).mpr ⟨hs', hkey⟩
      have htarget := (rowsByKey_get? ht).mpr ⟨ht', hkeys.symm.trans hkey⟩
      use key
      constructor
      · apply (hmem key).mpr
        left
        apply Dict.mem_keys_iff.mpr
        use s
      · rw [hsource, htarget]

/-- The dictionaries of rows in two orders hold the same. -/
theorem rowsByKey_perm {rows rows' : List (CompareRow β)} {side : Side}
    {d : Dict Identity (CompareRow β)} (hperm : rows.Perm rows')
    (h : rowsByKey lib keyColumns rules cancelRequested rows side = .ok d) :
  ∃ d', rowsByKey lib keyColumns rules cancelRequested rows' side = .ok d'
    ∧ d.get? = d'.get? ∧ d.keys.Perm d'.keys
  := by
  obtain ⟨⟨hpolls, hkeys⟩, hunique, -⟩ := rowsByKey_eq_ok.mp h
  have h' : rowsByKey lib keyColumns rules cancelRequested rows' side
      = .ok (indexRows (normalKey lib keyColumns rules) rows').1 := by
    apply rowsByKey_eq_ok.mpr
    refine ⟨⟨?_, ?_⟩, ?_, rfl⟩
    · rw [← hperm.length_eq]
      apply hpolls
    · intro row hrow
      apply hkeys row (hperm.mem_iff.mpr hrow)
    · intro htwice
      apply hunique
      intro hdistinct
      apply htwice
      apply (hperm.pairwise_iff _).mp hdistinct
      intro a b hab
      apply hab.symm
  use (indexRows (normalKey lib keyColumns rules) rows').1, h'
  constructor
  · funext key
    apply Option.ext
    intro row
    rw [rowsByKey_get? h, rowsByKey_get? h', hperm.mem_iff]
  · rw [Dict.keys, Dict.keys, rowsByKey_items h, rowsByKey_items h']
    apply (hperm.map _).map

theorem alignedRows_congr {source target source' target' : Dict Identity (CompareRow β)}
    (hs : source.get? = source'.get?) (ht : target.get? = target'.get?)
    (hskeys : source.keys.Perm source'.keys) (htkeys : target.keys.Perm target'.keys) :
  alignedRows source target = alignedRows source' target'
  := by
  have hcontains : source.contains = source'.contains := by
    funext key
    rw [Dict.contains, hs]
    rfl
  rw [alignedRows, alignedRows, hs, ht, sortedMatchKeys_congr]
  rw [unionKeys, unionKeys, hcontains]
  apply hskeys.append (htkeys.filter _)

end Diff

/-! ### The events -/

section Diff
variable [BEq β] {lib : Builtins} {keyColumns : List CompareColumn} {rules : CompareRules}
variable {cancelRequested : MaterializedLoop → ℕ → Bool}

/-- The loop over the keys returns when it sees no cancel request. -/
theorem mapM_afterCheck_eq_ok {κ α : Type} (f : κ → α) (keys : List κ) (first : ℕ)
    (result : List α) :
  (keys.zipIdx first).mapM (afterCheck cancelRequested f) = .ok result
    ↔ (∀ index < keys.length, checkCancel cancelRequested .keys (first + index) = .ok ())
      ∧ result = keys.map f
  := by
  induction keys generalizing first result with
  | nil =>
      rw [List.zipIdx_nil, List.mapM_nil, Outcome.pure_eq_ok]
      simp [eq_comm]
  | cons key rest ih =>
      rw [List.zipIdx_cons, List.mapM_cons, Outcome.bind_eq_ok, List.map_cons]
      constructor
      · rintro ⟨value, hstep, h⟩
        obtain ⟨⟨⟩, hpoll, hstep⟩ := Outcome.bind_eq_ok.mp hstep
        obtain rfl := Outcome.pure_eq_ok.mp hstep
        obtain ⟨values, hrest, h⟩ := Outcome.bind_eq_ok.mp h
        obtain rfl := Outcome.pure_eq_ok.mp h
        obtain ⟨hpolls, rfl⟩ := (ih _ _).mp hrest
        refine ⟨?_, rfl⟩
        intro index hindex
        cases index with
        | zero => apply hpoll
        | succ index =>
            rw [← Nat.add_assoc, Nat.add_right_comm]
            apply hpolls index (by simpa using hindex)
      · rintro ⟨hpolls, rfl⟩
        use f key
        constructor
        · apply Outcome.bind_eq_ok.mpr
          use (), hpolls 0 (by simp)
          rfl
        · apply Outcome.bind_eq_ok.mpr
          refine ⟨rest.map f, (ih _ _).mpr ⟨?_, rfl⟩, rfl⟩
          intro index hindex
          rw [Nat.add_right_comm, Nat.add_assoc]
          apply hpolls (index + 1) (by simpa using hindex)

/-- What a diff that returns has read, aligned and reported. -/
theorem diffMaterializedRows_eq_ok {source target : List (CompareRow β)}
    {events : List (CompareDiffEvent β)} {progress : HashdiffProgress} :
  diffMaterializedRows lib keyColumns rules cancelRequested source target
      = .ok (events, progress)
    ↔ ∃ sourceByKey targetByKey,
        rowsByKey lib keyColumns rules cancelRequested source .source = .ok sourceByKey
        ∧ rowsByKey lib keyColumns rules cancelRequested target .target = .ok targetByKey
        ∧ (∀ index < (alignedRows sourceByKey targetByKey).length,
            checkCancel cancelRequested .keys index = .ok ())
        ∧ events = (alignedRows sourceByKey targetByKey).filterMap
            (fun p => materializedEvent p.1 p.2)
        ∧ progress = { rowModeSegments := if events = [] then 0 else 1 }
  := by
  rw [diffMaterializedRows]
  constructor
  · intro h
    obtain ⟨sourceByKey, hs, h⟩ := Outcome.bind_eq_ok.mp h
    obtain ⟨targetByKey, ht, h⟩ := Outcome.bind_eq_ok.mp h
    obtain ⟨events?, hevents, h⟩ := Outcome.bind_eq_ok.mp h
    obtain ⟨hpolls, rfl⟩ := (mapM_afterCheck_eq_ok _ _ _ _).mp hevents
    obtain ⟨rfl, rfl⟩ := Prod.mk.inj (Outcome.pure_eq_ok.mp h)
    refine ⟨sourceByKey, targetByKey, hs, ht, ?_, ?_, rfl⟩
    · simpa [alignedRows] using hpolls
    · rw [alignedRows, List.filterMap_map, List.reduceOption, List.filterMap_map]
      rfl
  · rintro ⟨sourceByKey, targetByKey, hs, ht, hpolls, rfl, rfl⟩
    apply Outcome.bind_eq_ok.mpr
    use sourceByKey, hs
    apply Outcome.bind_eq_ok.mpr
    use targetByKey, ht
    apply Outcome.bind_eq_ok.mpr
    rw [alignedRows, List.length_map] at hpolls
    refine ⟨_, (mapM_afterCheck_eq_ok _ _ _ _).mpr ⟨by simpa using hpolls, rfl⟩, ?_⟩
    apply Outcome.pure_eq_ok.mpr
    rw [alignedRows, List.filterMap_map, List.reduceOption, List.filterMap_map]
    rfl

omit [BEq β] in
theorem isSome_of_mem_alignedRows {sourceByKey targetByKey : Dict Identity (CompareRow β)}
    {p : Option (CompareRow β) × Option (CompareRow β)}
    (h : p ∈ alignedRows sourceByKey targetByKey) :
  p.1.isSome = true ∨ p.2.isSome = true
  := by
  obtain ⟨key, hkey, rfl⟩ := List.mem_map.mp h
  rcases mem_unionKeys.mp ((sortedMatchKeys_perm _).mem_iff.mp hkey) with hkey | hkey
  · left
    apply Option.isSome_iff_exists.mpr (Dict.mem_keys_iff.mp hkey)
  · right
    apply Option.isSome_iff_exists.mpr (Dict.mem_keys_iff.mp hkey)

/-- Every place of an alignment yields one event. -/
theorem map_materializedEvent {aligned : List (Option (CompareRow β) × Option (CompareRow β))}
    (h : ∀ p ∈ aligned, p.1.isSome = true ∨ p.2.isSome = true) :
  aligned.map (fun p => materializedEvent p.1 p.2)
    = (aligned.filterMap (fun p => materializedEvent p.1 p.2)).map some
  := by
  induction aligned with
  | nil => rfl
  | cons p rest ih =>
      have hevent : ∃ event, materializedEvent p.1 p.2 = some event := by
        obtain ⟨source, target⟩ := p
        cases source with
        | none =>
            cases target with
            | none => simpa using h (none, none) List.mem_cons_self
            | some t => exact ⟨_, rfl⟩
        | some s =>
            cases target with
            | none => exact ⟨_, rfl⟩
            | some t => exact ⟨_, rfl⟩
      obtain ⟨event, hevent⟩ := hevent
      rw [List.map_cons, hevent, ih (fun q hq => h q (List.mem_cons_of_mem _ hq)),
        List.filterMap_cons, hevent, List.map_cons]

/-- The bucket of two rows that stand together. -/
theorem materializedEvent_pair (s t : CompareRow β) :
  materializedEvent (some s) (some t) = some (pairEvent s.pk s t)
  := rfl

/-- The events count the rows of either side. -/
theorem bucketCount_alignedEvents
    (aligned : List (Option (CompareRow β) × Option (CompareRow β))) :
  bucketCount .onlySource (aligned.filterMap (fun p => materializedEvent p.1 p.2))
        + bucketCount .same (aligned.filterMap (fun p => materializedEvent p.1 p.2))
        + bucketCount .diff (aligned.filterMap (fun p => materializedEvent p.1 p.2))
      = (aligned.filterMap Prod.fst).length
    ∧ bucketCount .onlyTarget (aligned.filterMap (fun p => materializedEvent p.1 p.2))
        + bucketCount .same (aligned.filterMap (fun p => materializedEvent p.1 p.2))
        + bucketCount .diff (aligned.filterMap (fun p => materializedEvent p.1 p.2))
      = (aligned.filterMap Prod.snd).length
  := by
  have hpk : ∀ source target : Option (CompareRow β), ∃ pk,
      materializedEvent source target = diffEvent pk source target := by
    intro source target
    cases source with
    | none =>
        cases target with
        | none => exact ⟨[], rfl⟩
        | some t => exact ⟨t.pk, rfl⟩
    | some s => exact ⟨s.pk, by cases target <;> rfl⟩
  constructor
  · rw [add_assoc, add_comm, bucketCount_source, List.countP_filterMap,
      List.length_filterMap_eq_countP]
    apply List.countP_congr
    intro p _
    obtain ⟨pk, hpk⟩ := hpk p.1 p.2
    rw [hpk, diffEvent_source]
  · rw [add_assoc, add_comm, bucketCount_target, List.countP_filterMap,
      List.length_filterMap_eq_countP]
    apply List.countP_congr
    intro p _
    obtain ⟨pk, hpk⟩ := hpk p.1 p.2
    rw [hpk, diffEvent_target]

/-! ### What the diff reports -/

theorem diffMaterializedRows_duplicateKey {source target : List (CompareRow β)} :
  (∃ side duplicates total, diffMaterializedRows lib keyColumns rules cancelRequested source target
      = .error (.duplicateKey side duplicates total))
    ↔ ReadsAll lib keyColumns rules cancelRequested source .source
      ∧ (SameKeyTwice lib keyColumns rules source
        ∨ ReadsAll lib keyColumns rules cancelRequested target .target
          ∧ SameKeyTwice lib keyColumns rules target)
  := by
  constructor
  · rintro ⟨side, duplicates, total, h⟩
    rw [diffMaterializedRows] at h
    rcases Outcome.bind_eq_error.mp h with hs | ⟨sourceByKey, hs, h⟩
    · obtain ⟨hreads, htwice⟩ := rowsByKey_duplicateKey.mp ⟨side, duplicates, total, hs⟩
      use hreads
      left
      apply htwice
    · use (rowsByKey_eq_ok.mp hs).1
      right
      rcases Outcome.bind_eq_error.mp h with ht | ⟨targetByKey, ht, h⟩
      · apply rowsByKey_duplicateKey.mp ⟨side, duplicates, total, ht⟩
      · exfalso
        rcases Outcome.bind_eq_error.mp h with hkeys | ⟨events?, -, h⟩
        · obtain ⟨p, -, hp⟩ := Outcome.exists_of_mapM_error hkeys
          rcases Outcome.bind_eq_error.mp hp with hpoll | ⟨-, -, hp⟩
          · rw [checkCancel] at hpoll
            split at hpoll
            · cases hpoll
            · cases hpoll
          · cases hp
        · cases h
  · rintro ⟨hreads, htwice⟩
    by_cases hsource : SameKeyTwice lib keyColumns rules source
    · obtain ⟨side, duplicates, total, h⟩ := rowsByKey_duplicateKey.mpr ⟨hreads, hsource⟩
      use side, duplicates, total
      apply Outcome.bind_eq_error.mpr
      left
      apply h
    · obtain ⟨side, duplicates, total, h⟩ :=
        rowsByKey_duplicateKey.mpr (htwice.resolve_left hsource)
      use side, duplicates, total
      apply Outcome.bind_eq_error.mpr
      right
      refine ⟨_, rowsByKey_eq_ok.mpr ⟨hreads, hsource, rfl⟩, ?_⟩
      apply Outcome.bind_eq_error.mpr
      left
      apply h

/-- The diff of materialised rows reports a duplicate key exactly when two rows of one side have
the same normalised key and the loops get that far; when every key can be normalised, no side has
a key twice and no cancel request is seen, it returns.  A diff that returns aligns the rows: every
row of either side stands in one place and yields one event, rows of the two sides share a place
exactly when their normalised keys are equal, and are reported as the same exactly when their
values are equal.  The events count every row of either side once, and rows in another order
yield the same events. -/
theorem diffMaterializedRows_aligns
    (lib : Builtins) (keyColumns : List CompareColumn) (rules : CompareRules)
    (cancelRequested : MaterializedLoop → ℕ → Bool) (source target : List (CompareRow β)) :
  ((∃ side duplicates total,
        diffMaterializedRows lib keyColumns rules cancelRequested source target
          = .error (.duplicateKey side duplicates total))
      ↔ ReadsAll lib keyColumns rules cancelRequested source .source
        ∧ (SameKeyTwice lib keyColumns rules source
          ∨ ReadsAll lib keyColumns rules cancelRequested target .target
            ∧ SameKeyTwice lib keyColumns rules target))
    ∧ (ReadsAll lib keyColumns rules cancelRequested source .source →
        ReadsAll lib keyColumns rules cancelRequested target .target →
        ¬ SameKeyTwice lib keyColumns rules source → ¬ SameKeyTwice lib keyColumns rules target →
        (∀ index, checkCancel cancelRequested .keys index = .ok ()) →
        ∃ events progress,
          diffMaterializedRows lib keyColumns rules cancelRequested source target
            = .ok (events, progress))
    ∧ ∀ events progress,
        diffMaterializedRows lib keyColumns rules cancelRequested source target
            = .ok (events, progress) →
          (∃ aligned, Aligns (matchKey lib keyColumns rules) source target aligned
            ∧ aligned.map (fun p => materializedEvent p.1 p.2) = events.map some
            ∧ ∀ s t event, (some s, some t) ∈ aligned →
                materializedEvent (some s) (some t) = some event →
                (event.bucket = .same ↔ (s.values == t.values) = true))
          ∧ bucketCount .onlySource events + bucketCount .same events + bucketCount .diff events
            = source.length
          ∧ bucketCount .onlyTarget events + bucketCount .same events + bucketCount .diff events
            = target.length
          ∧ ∀ source' target', source.Perm source' → target.Perm target' →
              diffMaterializedRows lib keyColumns rules cancelRequested source' target'
                = .ok (events, progress)
  := by
  refine ⟨diffMaterializedRows_duplicateKey, ?_, ?_⟩
  · intro hsource htarget hsunique htunique hpolls
    refine ⟨_, _, diffMaterializedRows_eq_ok.mpr ⟨_, _, rowsByKey_eq_ok.mpr ⟨hsource, hsunique, rfl⟩,
      rowsByKey_eq_ok.mpr ⟨htarget, htunique, rfl⟩, ?_, rfl, rfl⟩⟩
    intro index _
    apply hpolls
  · intro events progress h
    obtain ⟨sourceByKey, targetByKey, hs, ht, hpolls, rfl, rfl⟩ := diffMaterializedRows_eq_ok.mp h
    have haligns := alignedRows_aligns hs ht
    obtain ⟨hsource, htarget⟩ := bucketCount_alignedEvents (alignedRows sourceByKey targetByKey)
    refine ⟨⟨_, haligns, map_materializedEvent (fun p hp => isSome_of_mem_alignedRows hp), ?_⟩,
      hsource.trans haligns.source_rows.length_eq, htarget.trans haligns.target_rows.length_eq, ?_⟩
    · intro s t event _ hevent
      rw [materializedEvent_pair] at hevent
      obtain rfl := Option.some.inj hevent
      rw [pairEvent, rowsEquivalent]
      cases s.values == t.values with
      | false => simp
      | true => simp
    · intro source' target' hsperm htperm
      obtain ⟨sourceByKey', hs', hsget, hskeys⟩ := rowsByKey_perm hsperm hs
      obtain ⟨targetByKey', ht', htget, htkeys⟩ := rowsByKey_perm htperm ht
      have haligned := alignedRows_congr hsget htget hskeys htkeys
      apply diffMaterializedRows_eq_ok.mpr
      refine ⟨sourceByKey', targetByKey', hs', ht', ?_, ?_, rfl⟩
      · rw [← haligned]
        apply hpolls
      · rw [haligned]

end Diff

/-- Two source rows with one key, and a third whose key is not a number. -/
def repeatedAndUnreadable : List (CompareRow Cell) :=
  [⟨[.str "1".toList], [], none, none⟩, ⟨[.str "1".toList], [], none, none⟩,
    ⟨[.str "x".toList], [], none, none⟩]

/-- A key that occurs twice is not reported when another key cannot be normalised. -/
theorem not_diffMaterializedRows_duplicateKey :
  ¬ ∀ (lib : Builtins) (keyColumns : List CompareColumn) (rules : CompareRules)
      (source target : List (CompareRow Cell)),
    (∃ side duplicates total,
        diffMaterializedRows lib keyColumns rules (fun _ _ => false) source target
          = .error (.duplicateKey side duplicates total))
      ↔ SameKeyTwice lib keyColumns rules source ∨ SameKeyTwice lib keyColumns rules target
  := by
  intro h
  have hraises : diffMaterializedRows sampleBuiltins [⟨"id", .integer⟩] {} (fun _ _ => false)
      repeatedAndUnreadable [] = .error .invalidOperation := by
    rfl
  have htwice : SameKeyTwice sampleBuiltins [⟨"id", .integer⟩] {} repeatedAndUnreadable := by
    intro hdistinct
    apply (List.pairwise_cons.mp hdistinct).1 _ List.mem_cons_self
    rfl
  obtain ⟨side, duplicates, total, hduplicate⟩ :=
    (h sampleBuiltins [⟨"id", .integer⟩] {} repeatedAndUnreadable []).mpr (.inl htwice)
  rw [hraises] at hduplicate
  cases hduplicate

end Compare

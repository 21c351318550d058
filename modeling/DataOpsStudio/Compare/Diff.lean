import DataOpsStudio.Compare.Segment
import DataOpsStudio.Compare.Value
import DataOpsStudio.Library.Dict
import DataOpsStudio.Library.Outcome

/-!
# The row-level diff of one segment

Both sides are read into dictionaries by primary key and every key of either side yields
one event.  A primary key that occurs twice on one side is an error and not a silent
overwrite.  The two counting laws say that a diff that returns accounts for every row
it read; the last section describes the events of rows with unique integer keys as a
multiset that is cut along with the key range.
-/

universe u

namespace Compare

variable {β : Type u}

/-- The side of a comparison. -/
inductive Side where
  | source
  | target
deriving DecidableEq

/-- The name of a side in messages. -/
def Side.name : Side → String
  | source => "source"
  | target => "target"

/-- The exceptions a comparison can raise. -/
inductive CompareError where
  | duplicateKey (side : Side) (duplicates total : ℕ)
  | maxRowsExceeded (maxRows : ℕ)
  | valueError (message : String)
  | invalidOperation
  | adapter (message : String)
deriving DecidableEq

/-- The message of an exception; that of a duplicate key carries counts and no key. -/
def CompareError.message : CompareError → String
  | duplicateKey side duplicates total =>
      "duplicate compare key on " ++ side.name ++ ": " ++ toString duplicates ++ "/"
        ++ toString total ++ " rows"
  | maxRowsExceeded maxRows => "max rows exceeded: " ++ toString maxRows
  | valueError message => message
  | invalidOperation => "invalid decimal operation"
  | adapter message => message

/-- The bucket of a diff event. -/
inductive CompareDiffBucket where
  | onlySource
  | onlyTarget
  | diff
  | same
deriving DecidableEq

/-- A row as it is compared: `values` decides equality, `rawValues` is what is shown. -/
structure CompareRow (β : Type u) where
  pk : List PyValue
  values : List β
  rowHash64 : Option ℕ := none
  rawValues : Option (List β) := none

/-- The values shown in events: the raw values unless there are none. -/
def CompareRow.shown (row : CompareRow β) : List β :=
  match row.rawValues with
  | some (v :: vs) => v :: vs
  | _ => row.values

/-- What is reported about one primary key. -/
structure CompareDiffEvent (β : Type u) where
  bucket : CompareDiffBucket
  pk : List PyValue
  sourceValues : Option (List β) := none
  targetValues : Option (List β) := none
deriving DecidableEq

/-- What a segment holds according to one side. -/
structure SegmentFingerprint where
  rowCount : ℕ
  aggregateHash : ℕ
deriving DecidableEq

/-- A side of a comparison, read segment by segment. -/
structure CompareSegmentReader (β : Type u) where
  segmentFingerprint : CompareSegment → Except CompareError SegmentFingerprint
  fetchRows : CompareSegment → Except CompareError (List (CompareRow β))

/-! ### Rows by key -/

section Index

variable {κ : Type} [BEq κ] {ρ : Type u}

/-- Enter a row under its key, counting it as a duplicate when the key is taken. -/
def indexRow (key : ρ → κ) (state : Dict κ ρ × ℕ) (row : ρ) : Dict κ ρ × ℕ :=
  (state.1.set (key row) row, if state.1.contains (key row) then state.2 + 1 else state.2)

/-- The rows by key, and the number of rows whose key was taken when they came. -/
def indexRows (key : ρ → κ) (rows : List ρ) : Dict κ ρ × ℕ :=
  rows.foldl (indexRow key) (Dict.empty, 0)

theorem foldl_indexRow_ge (key : ρ → κ) (rows : List ρ) (state : Dict κ ρ × ℕ) :
  state.2 ≤ (rows.foldl (indexRow key) state).2
  := by
  induction rows generalizing state with
  | nil => apply le_refl
  | cons row rest ih =>
      rw [List.foldl_cons]
      apply le_trans _ (ih _)
      rw [indexRow]
      split
      · apply Nat.le_succ
      · apply le_refl

theorem foldl_indexRow_items (key : ρ → κ) (rows : List ρ) (state : Dict κ ρ × ℕ)
    (h : (rows.foldl (indexRow key) state).2 = state.2) :
  (rows.foldl (indexRow key) state).1.items
    = state.1.items ++ rows.map (fun row => (key row, row))
  := by
  induction rows generalizing state with
  | nil => simp
  | cons row rest ih =>
      rw [List.foldl_cons] at h ⊢
      have hge := foldl_indexRow_ge key rest (indexRow key state row)
      have hnew : state.1.contains (key row) = false := by
        cases hc : state.1.contains (key row) with
        | false => rfl
        | true =>
            have hnext : (indexRow key state row).2 = state.2 + 1 := by
              rw [indexRow, hc, if_pos rfl]
            omega
      have hcount : (indexRow key state row).2 = state.2 := by
        rw [indexRow, hnew, if_neg Bool.false_ne_true]
      have hitems : (indexRow key state row).1.items = state.1.items ++ [(key row, row)] := by
        apply Dict.items_set_of_get?_none
        rw [Dict.contains, Option.isSome_eq_false_iff, Option.isNone_iff_eq_none] at hnew
        apply hnew
      rw [ih _ (h.trans hcount.symm), hitems, List.map_cons, List.append_assoc]
      rfl

/-- Without duplicates the dictionary holds the rows as they came. -/
theorem indexRows_items {key : ρ → κ} {rows : List ρ} (h : (indexRows key rows).2 = 0) :
  (indexRows key rows).1.items = rows.map (fun row => (key row, row))
  := by
  have hitems := foldl_indexRow_items key rows (Dict.empty, 0) h
  simpa [indexRows, Dict.empty] using hitems

theorem foldl_indexRow_count [EquivBEq κ] (key : ρ → κ) (rows : List ρ)
    (state : Dict κ ρ × ℕ)
    (hstate : ∀ row ∈ rows, state.1.contains (key row) = false)
    (hrows : rows.Pairwise (fun a b => (key a == key b) = false)) :
  (rows.foldl (indexRow key) state).2 = state.2
  := by
  induction rows generalizing state with
  | nil => rfl
  | cons row rest ih =>
      obtain ⟨hrow, hrest⟩ := List.pairwise_cons.mp hrows
      rw [List.foldl_cons, ih _ _ hrest]
      · rw [indexRow, hstate row List.mem_cons_self, if_neg Bool.false_ne_true]
      · intro r hr
        rw [Dict.contains, indexRow, Dict.get?_set, hrow r hr, if_neg Bool.false_ne_true]
        apply hstate r (List.mem_cons_of_mem _ hr)

/-- Rows with pairwise different keys have no duplicates. -/
theorem indexRows_count [EquivBEq κ] {key : ρ → κ} {rows : List ρ}
    (h : rows.Pairwise (fun a b => (key a == key b) = false)) :
  (indexRows key rows).2 = 0
  := by
  apply foldl_indexRow_count key rows (Dict.empty, 0) _ h
  intro row _
  rfl

/-- Rows have no duplicates exactly when their keys are pairwise different. -/
theorem indexRows_count_iff [EquivBEq κ] {key : ρ → κ} {rows : List ρ} :
  (indexRows key rows).2 = 0 ↔ rows.Pairwise (fun a b => (key a == key b) = false)
  := by
  constructor
  · intro h
    have hdistinct := (indexRows key rows).1.keys_distinct
    rw [Dict.keys, indexRows_items h, List.map_map] at hdistinct
    apply List.pairwise_map.mp hdistinct
  · apply indexRows_count

/-- The keys of two dictionaries, each once. -/
def unionKeys (source target : Dict κ ρ) : List κ :=
  source.keys ++ target.keys.filter (fun k => !source.contains k)

theorem mem_unionKeys [LawfulBEq κ] {source target : Dict κ ρ} {k : κ} :
  k ∈ unionKeys source target ↔ k ∈ source.keys ∨ k ∈ target.keys
  := by
  rw [unionKeys, List.mem_append, List.mem_filter]
  constructor
  · rintro (h | ⟨h, -⟩)
    · left
      apply h
    · right
      apply h
  · rintro (h | h)
    · left
      apply h
    · cases hk : source.contains k with
      | false =>
          right
          use h
          rfl
      | true =>
          left
          obtain ⟨k', hk', hbeq⟩ := Dict.contains_iff.mp hk
          rw [← eq_of_beq hbeq]
          apply hk'

theorem unionKeys_nodup [LawfulBEq κ] (source target : Dict κ ρ) :
  (unionKeys source target).Nodup
  := by
  apply List.nodup_append.mpr
  refine ⟨Dict.keys_nodup source, (Dict.keys_nodup target).filter _, ?_⟩
  rintro k hk k' hk' rfl
  have hcontains : source.contains k = true := by
    apply Dict.contains_iff.mpr
    use k, hk
    apply BEq.rfl
  simpa [hcontains] using (List.mem_filter.mp hk').2

end Index

/-- The rows of one side by primary key; a key that occurs twice is an error. -/
def rowMap (rows : List (CompareRow β)) (side : Side) :
    Except CompareError (Dict (List PyValue) (CompareRow β)) :=
  let indexed := indexRows CompareRow.pk rows
  if indexed.2 ≠ 0 then .error (.duplicateKey side indexed.2 rows.length)
  else .ok indexed.1

/-- A dictionary of rows that is returned holds the rows as they came. -/
theorem rowMap_items {rows : List (CompareRow β)} {side : Side}
    {d : Dict (List PyValue) (CompareRow β)} (h : rowMap rows side = .ok d) :
  d.items = rows.map (fun row => (row.pk, row))
  := by
  simp only [rowMap] at h
  split at h
  · cases h
  · rename_i hcount
    obtain rfl := Except.ok.inj h
    apply indexRows_items (not_not.mp hcount)

/-- Rows with pairwise different primary keys are entered without an error. -/
theorem exists_rowMap {rows : List (CompareRow β)} (side : Side)
    (h : rows.Pairwise (fun a b => (a.pk == b.pk) = false)) :
  ∃ d, rowMap rows side = .ok d
  := by
  use (indexRows CompareRow.pk rows).1
  simp only [rowMap, indexRows_count h, ne_eq, not_true, if_false]

/-! ### The events of one segment -/

variable [BEq β]

/-- Whether two rows hold the same values. -/
def rowsEquivalent (source target : CompareRow β) : Bool := source.values == target.values

/-- The event of a key held by both sides. -/
def pairEvent (pk : List PyValue) (source target : CompareRow β) : CompareDiffEvent β where
  bucket := if rowsEquivalent source target then .same else .diff
  pk := pk
  sourceValues := some source.shown
  targetValues := some target.shown

/-- The event of a key, from the rows the two sides hold under it. -/
def diffEvent (pk : List PyValue) :
    Option (CompareRow β) → Option (CompareRow β) → Option (CompareDiffEvent β)
  | none, some target =>
      some { bucket := .onlyTarget, pk := pk, targetValues := some target.shown }
  | some source, none =>
      some { bucket := .onlySource, pk := pk, sourceValues := some source.shown }
  | some source, some target => some (pairEvent pk source target)
  | none, none => none

/-- The events of two dictionaries of rows, in the order of the keys. -/
def diffRowMaps (source target : Dict (List PyValue) (CompareRow β)) :
    List (CompareDiffEvent β) :=
  (sortedCompareKeys (unionKeys source target)).filterMap
    (fun pk => diffEvent pk (source.get? pk) (target.get? pk))

/-- The events of the rows both sides hold in a segment. -/
def rowLevelDiff (source target : CompareSegmentReader β) (segment : CompareSegment) :
    Except CompareError (List (CompareDiffEvent β)) := do
  let sourceRows ← rowMap (← source.fetchRows segment) .source
  let targetRows ← rowMap (← target.fetchRows segment) .target
  return diffRowMaps sourceRows targetRows

/-- What a row-level diff that returns has read and reported. -/
theorem rowLevelDiff_ok {source target : CompareSegmentReader β} {segment : CompareSegment}
    {events : List (CompareDiffEvent β)} (h : rowLevelDiff source target segment = .ok events) :
  ∃ sourceRows targetRows sourceMap targetMap,
    source.fetchRows segment = .ok sourceRows ∧ target.fetchRows segment = .ok targetRows
      ∧ rowMap sourceRows .source = .ok sourceMap ∧ rowMap targetRows .target = .ok targetMap
      ∧ events = diffRowMaps sourceMap targetMap
  := by
  obtain ⟨sourceRows, hs, h⟩ := Outcome.bind_eq_ok.mp h
  obtain ⟨sourceMap, hsm, h⟩ := Outcome.bind_eq_ok.mp h
  obtain ⟨targetRows, ht, h⟩ := Outcome.bind_eq_ok.mp h
  obtain ⟨targetMap, htm, h⟩ := Outcome.bind_eq_ok.mp h
  use sourceRows, targetRows, sourceMap, targetMap
  exact ⟨hs, ht, hsm, htm, (Outcome.pure_eq_ok.mp h).symm⟩

/-! ### Every row read is counted once -/

/-- The number of events of a bucket. -/
def bucketCount (bucket : CompareDiffBucket) (events : List (CompareDiffEvent β)) : ℕ :=
  events.countP (fun event => decide (event.bucket = bucket))

omit [BEq β] in
@[simp]
theorem bucketCount_nil (bucket : CompareDiffBucket) :
  bucketCount bucket ([] : List (CompareDiffEvent β)) = 0
  := rfl

omit [BEq β] in
@[simp]
theorem bucketCount_append (bucket : CompareDiffBucket) (l m : List (CompareDiffEvent β)) :
  bucketCount bucket (l ++ m) = bucketCount bucket l + bucketCount bucket m
  := List.countP_append

omit [BEq β] in
theorem bucketCount_source (events : List (CompareDiffEvent β)) :
  bucketCount .same events + bucketCount .diff events + bucketCount .onlySource events
    = events.countP (fun event => decide (event.bucket ≠ .onlyTarget))
  := by
  induction events with
  | nil => rfl
  | cons event rest ih =>
      simp only [bucketCount, List.countP_cons] at ih ⊢
      rw [← ih]
      cases event.bucket with
      | onlySource => simp; omega
      | onlyTarget => simp
      | diff => simp; omega
      | same => simp; omega

omit [BEq β] in
theorem bucketCount_target (events : List (CompareDiffEvent β)) :
  bucketCount .same events + bucketCount .diff events + bucketCount .onlyTarget events
    = events.countP (fun event => decide (event.bucket ≠ .onlySource))
  := by
  induction events with
  | nil => rfl
  | cons event rest ih =>
      simp only [bucketCount, List.countP_cons] at ih ⊢
      rw [← ih]
      cases event.bucket with
      | onlySource => simp
      | onlyTarget => simp; omega
      | diff => simp; omega
      | same => simp; omega

theorem pairEvent_bucket (pk : List PyValue) (source target : CompareRow β) :
  (pairEvent pk source target).bucket = .same ∨ (pairEvent pk source target).bucket = .diff
  := by
  rw [pairEvent]
  cases rowsEquivalent source target with
  | false =>
      right
      rfl
  | true =>
      left
      rfl

theorem diffEvent_source (pk : List PyValue) (source target : Option (CompareRow β)) :
  ((diffEvent pk source target).map (fun event => decide (event.bucket ≠ .onlyTarget))).getD
      false
    = source.isSome
  := by
  cases source with
  | none =>
      cases target with
      | none => rfl
      | some t => rfl
  | some s =>
      cases target with
      | none => rfl
      | some t =>
          rcases pairEvent_bucket pk s t with h | h
          · simp [diffEvent, h]
          · simp [diffEvent, h]

theorem diffEvent_target (pk : List PyValue) (source target : Option (CompareRow β)) :
  ((diffEvent pk source target).map (fun event => decide (event.bucket ≠ .onlySource))).getD
      false
    = target.isSome
  := by
  cases source with
  | none =>
      cases target with
      | none => rfl
      | some t => rfl
  | some s =>
      cases target with
      | none => rfl
      | some t =>
          rcases pairEvent_bucket pk s t with h | h
          · simp [diffEvent, h]
          · simp [diffEvent, h]

/-- The events that show a source row are as many as the source rows. -/
theorem diffRowMaps_source_count (source target : Dict (List PyValue) (CompareRow β)) :
  bucketCount .same (diffRowMaps source target) + bucketCount .diff (diffRowMaps source target)
      + bucketCount .onlySource (diffRowMaps source target)
    = source.items.length
  := by
  have hown : source.keys.countP source.contains = source.keys.length := by
    apply List.countP_eq_length.mpr
    intro k hk
    apply Dict.contains_iff.mpr
    use k, hk
    apply BEq.rfl
  have hother : (target.keys.filter (fun k => !source.contains k)).countP source.contains = 0 := by
    apply List.countP_eq_zero.mpr
    intro k hk
    simpa using (List.mem_filter.mp hk).2
  rw [bucketCount_source, diffRowMaps, List.countP_filterMap,
    (sortedCompareKeys_perm _).countP_eq]
  simp only [diffEvent_source]
  have hunion : (unionKeys source target).countP source.contains = source.keys.length := by
    rw [unionKeys, List.countP_append, hown, hother, add_zero]
  rw [Dict.keys, List.length_map] at hunion
  apply hunion

/-- The events that show a target row are as many as the target rows. -/
theorem diffRowMaps_target_count (source target : Dict (List PyValue) (CompareRow β)) :
  bucketCount .same (diffRowMaps source target) + bucketCount .diff (diffRowMaps source target)
      + bucketCount .onlyTarget (diffRowMaps source target)
    = target.items.length
  := by
  have hrest : (target.keys.filter (fun k => !source.contains k)).countP target.contains
      = target.keys.countP (fun k => !source.contains k) := by
    rw [List.countP_eq_length.mpr, List.countP_eq_length_filter]
    intro k hk
    apply Dict.contains_iff.mpr
    use k, (List.mem_filter.mp hk).1
    apply BEq.rfl
  rw [bucketCount_target, diffRowMaps, List.countP_filterMap,
    (sortedCompareKeys_perm _).countP_eq]
  simp only [diffEvent_target]
  have hunion : (unionKeys source target).countP target.contains = target.keys.length := by
    rw [unionKeys, List.countP_append, Dict.countP_contains_comm, hrest]
    have hlength := List.length_eq_countP_add_countP source.contains (l := target.keys)
    simp only [Bool.not_eq_true, Bool.decide_eq_false] at hlength
    apply hlength.symm
  rw [Dict.keys, List.length_map] at hunion
  apply hunion

/-- A row-level diff that returns counts every row of either side once. -/
theorem rowLevelDiff_counts {source target : CompareSegmentReader β}
    {segment : CompareSegment} {events : List (CompareDiffEvent β)}
    {sourceRows targetRows : List (CompareRow β)}
    (h : rowLevelDiff source target segment = .ok events)
    (hs : source.fetchRows segment = .ok sourceRows)
    (ht : target.fetchRows segment = .ok targetRows) :
  bucketCount .same events + bucketCount .diff events + bucketCount .onlySource events
      = sourceRows.length
    ∧ bucketCount .same events + bucketCount .diff events + bucketCount .onlyTarget events
      = targetRows.length
  := by
  obtain ⟨sourceRows', targetRows', sourceMap, targetMap, hs', ht', hsm, htm, rfl⟩ :=
    rowLevelDiff_ok h
  obtain rfl := Except.ok.inj (hs.symm.trans hs')
  obtain rfl := Except.ok.inj (ht.symm.trans ht')
  constructor
  · rw [diffRowMaps_source_count, rowMap_items hsm, List.length_map]
  · rw [diffRowMaps_target_count, rowMap_items htm, List.length_map]

/-! ### Rows with unique integer keys -/

/-- The integer a row has as its single key. -/
def keyOf (row : CompareRow β) : ℤ :=
  match row.pk with
  | [.int k] => k
  | _ => 0

/-- Every row has a single integer as its key, and no two rows have the same. -/
structure IntegerKeyed (rows : List (CompareRow β)) : Prop where
  single : ∀ row ∈ rows, row.pk = [.int (keyOf row)]
  unique : (rows.map keyOf).Nodup

/-- The row of `rows` with the key of `row`, if any. -/
def partner (rows : List (CompareRow β)) (row : CompareRow β) : Option (CompareRow β) :=
  rows.find? (fun other => decide (keyOf other = keyOf row))

/-- The event of a source row, given the target rows. -/
def sourceEvent (target : List (CompareRow β)) (row : CompareRow β) : CompareDiffEvent β :=
  match partner target row with
  | some other => pairEvent row.pk row other
  | none => { bucket := .onlySource, pk := row.pk, sourceValues := some row.shown }

/-- The event of a target row without a source row. -/
def targetEvent (row : CompareRow β) : CompareDiffEvent β :=
  { bucket := .onlyTarget, pk := row.pk, targetValues := some row.shown }

/-- The events of two lists of rows, each with its key: one for every source row, and one
for every target row without a source row. -/
def plainEvents (source target : List (CompareRow β)) : Multiset (ℤ × CompareDiffEvent β) :=
  (source.map (fun row => (keyOf row, sourceEvent target row)) : List (ℤ × CompareDiffEvent β))
    + ((target.filter (fun row => (partner source row).isNone)).map
        (fun row => (keyOf row, targetEvent row)) : List (ℤ × CompareDiffEvent β))

/-- The events whose key lies in a segment. -/
def eventsIn (events : Multiset (ℤ × CompareDiffEvent β)) (segment : CompareSegment) :
    Multiset (CompareDiffEvent β) :=
  (events.filter (fun p => segment.start ≤ p.1 ∧ p.1 < segment.stop)).map Prod.snd

/-- The rows whose key lies in a segment. -/
def rowsIn (rows : List (CompareRow β)) (segment : CompareSegment) : List (CompareRow β) :=
  rows.filter (fun row => decide (segment.Holds (keyOf row)))

omit [BEq β] in
theorem IntegerKeyed.of_perm {rows fetched : List (CompareRow β)} (h : IntegerKeyed rows)
    (segment : CompareSegment) (hperm : fetched.Perm (rowsIn rows segment)) :
  IntegerKeyed fetched
  := by
  constructor
  · intro row hrow
    apply h.single row
    apply (List.mem_filter.mp (hperm.mem_iff.mp hrow)).1
  · apply ((hperm.map keyOf).nodup_iff).mpr
    apply List.Nodup.sublist _ h.unique
    apply List.Sublist.map
    apply List.filter_sublist

omit [BEq β] in
/-- Rows of one list with the same key are one row. -/
theorem IntegerKeyed.eq_of_keyOf {rows : List (CompareRow β)} (h : IntegerKeyed rows)
    {row other : CompareRow β} (hrow : row ∈ rows) (hother : other ∈ rows)
    (hkey : keyOf row = keyOf other) :
  row = other
  := List.inj_on_of_nodup_map h.unique hrow hother hkey

omit [BEq β] in
theorem IntegerKeyed.partner_eq_some {rows : List (CompareRow β)} (h : IntegerKeyed rows)
    {row other : CompareRow β} :
  partner rows row = some other ↔ other ∈ rows ∧ keyOf other = keyOf row
  := by
  constructor
  · intro hp
    exact ⟨List.mem_of_find?_eq_some hp, by simpa using List.find?_some hp⟩
  · rintro ⟨hmem, hkey⟩
    cases hp : partner rows row with
    | none =>
        have hnone := List.find?_eq_none.mp hp other hmem
        simp [hkey] at hnone
    | some found =>
        have hfound : found ∈ rows := List.mem_of_find?_eq_some hp
        have hfkey : keyOf found = keyOf row := by simpa using List.find?_some hp
        rw [h.eq_of_keyOf hfound hmem (hfkey.trans hkey.symm)]

omit [BEq β] in
/-- Within a segment the partner of a row is found among the rows of the segment. -/
theorem IntegerKeyed.partner_of_perm {rows fetched : List (CompareRow β)}
    (h : IntegerKeyed rows) {segment : CompareSegment}
    (hperm : fetched.Perm (rowsIn rows segment)) {row : CompareRow β}
    (hrow : segment.Holds (keyOf row)) :
  partner fetched row = partner rows row
  := by
  apply Option.ext
  intro other
  rw [(h.of_perm segment hperm).partner_eq_some, h.partner_eq_some, hperm.mem_iff, rowsIn,
    List.mem_filter]
  constructor
  · rintro ⟨⟨hmem, -⟩, hkey⟩
    exact ⟨hmem, hkey⟩
  · rintro ⟨hmem, hkey⟩
    refine ⟨⟨hmem, ?_⟩, hkey⟩
    rw [hkey]
    simpa using hrow

omit [BEq β] in
theorem IntegerKeyed.distinct {rows : List (CompareRow β)} (h : IntegerKeyed rows) :
  rows.Pairwise (fun a b => (a.pk == b.pk) = false)
  := by
  have hne : rows.Pairwise (fun a b => keyOf a ≠ keyOf b) := List.pairwise_map.mp h.unique
  apply List.Pairwise.imp_of_mem _ hne
  intro a b ha hb hab
  rw [h.single a ha, h.single b hb, List.cons_beq_cons, PyValue.int_beq_int]
  simp [hab]

omit [BEq β] in
/-- What a dictionary of rows holds under the key of a row. -/
theorem IntegerKeyed.get?_rowMap {rows : List (CompareRow β)} (h : IntegerKeyed rows)
    {side : Side} {d : Dict (List PyValue) (CompareRow β)} (hd : rowMap rows side = .ok d)
    {row : CompareRow β} (hrow : row.pk = [.int (keyOf row)]) :
  d.get? row.pk = partner rows row
  := by
  apply Option.ext
  intro other
  rw [h.partner_eq_some]
  constructor
  · intro hget
    obtain ⟨k, hk, hmem⟩ := Dict.exists_mem_of_get? hget
    rw [rowMap_items hd] at hmem
    obtain ⟨found, hfound, heq⟩ := List.mem_map.mp hmem
    obtain ⟨rfl, rfl⟩ := Prod.mk.inj heq
    use hfound
    rw [h.single found hfound, hrow, List.cons_beq_cons, PyValue.int_beq_int] at hk
    simpa using hk
  · rintro ⟨hmem, hkey⟩
    apply Dict.get?_of_mem
    rw [rowMap_items hd]
    apply List.mem_map.mpr
    use other, hmem
    rw [h.single other hmem, hrow, hkey]

/-- The events of two lists of rows with unique integer keys. -/
theorem diffRowMaps_eq_plainEvents {source target : List (CompareRow β)}
    (hsource : IntegerKeyed source) (htarget : IntegerKeyed target)
    {sourceMap targetMap : Dict (List PyValue) (CompareRow β)}
    (hs : rowMap source .source = .ok sourceMap) (ht : rowMap target .target = .ok targetMap) :
  (diffRowMaps sourceMap targetMap : Multiset (CompareDiffEvent β))
    = (plainEvents source target).map Prod.snd
  := by
  have hsk : sourceMap.keys = source.map CompareRow.pk := by
    rw [Dict.keys, rowMap_items hs, List.map_map]
    rfl
  have htk : targetMap.keys = target.map CompareRow.pk := by
    rw [Dict.keys, rowMap_items ht, List.map_map]
    rfl
  have hpaired : ∀ row ∈ source,
      diffEvent row.pk (sourceMap.get? row.pk) (targetMap.get? row.pk)
        = some (sourceEvent target row) := by
    intro row hrow
    have hself : partner source row = some row := hsource.partner_eq_some.mpr ⟨hrow, rfl⟩
    rw [hsource.get?_rowMap hs (hsource.single row hrow),
      htarget.get?_rowMap ht (hsource.single row hrow), hself, sourceEvent]
    cases partner target row with
    | none => rfl
    | some other => rfl
  have hunpaired : ∀ row ∈ target.filter (fun row => (partner source row).isNone),
      diffEvent row.pk (sourceMap.get? row.pk) (targetMap.get? row.pk)
        = some (targetEvent row) := by
    intro row hrow
    obtain ⟨hmem, hnone⟩ := List.mem_filter.mp hrow
    have hself : partner target row = some row := htarget.partner_eq_some.mpr ⟨hmem, rfl⟩
    rw [hsource.get?_rowMap hs (htarget.single row hmem),
      htarget.get?_rowMap ht (htarget.single row hmem), hself,
      Option.isNone_iff_eq_none.mp hnone]
    rfl
  have hrest : targetMap.keys.filter (fun k => !sourceMap.contains k)
      = (target.filter (fun row => (partner source row).isNone)).map CompareRow.pk := by
    rw [htk, List.filter_map]
    congr 1
    apply List.filter_congr
    intro row hrow
    rw [Function.comp_apply, Dict.contains, hsource.get?_rowMap hs (htarget.single row hrow)]
    cases partner source row with
    | none => rfl
    | some other => rfl
  have hperm : (diffRowMaps sourceMap targetMap).Perm
      (source.map (sourceEvent target)
        ++ (target.filter (fun row => (partner source row).isNone)).map targetEvent) := by
    apply ((sortedCompareKeys_perm _).filterMap _).trans
    rw [unionKeys, hsk, hrest, List.filterMap_append, List.filterMap_map, List.filterMap_map]
    apply List.Perm.of_eq
    congr 1
    · apply (List.filterMap_congr hpaired).trans
      rw [List.filterMap_eq_map']
    · apply (List.filterMap_congr hunpaired).trans
      rw [List.filterMap_eq_map']
  rw [plainEvents, Multiset.map_add, Multiset.map_coe, Multiset.map_coe, List.map_map,
    List.map_map, Multiset.coe_add]
  apply Multiset.coe_eq_coe.mpr hperm

end Compare

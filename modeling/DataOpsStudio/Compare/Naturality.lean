import DataOpsStudio.Compare.Run
import Mathlib.Data.List.ReduceOption

/-!
# Naturality of the diff

The rows of a diff are matched by their keys and judged by their normalised values; what they show
is only carried to the events.  So the diff is natural in what the rows show.

* Rows whose shown values are changed yield the events whose shown values are changed.
* Two readers whose rows become the same once the shown values are changed yield events that become
  the same, in whatever way a run reads them.
-/

universe u

namespace Compare

variable {β : Type u}

/-! ### Changing what is shown -/

/-- A change of values leaves something of every row, and makes nothing up. -/
def KeepsEmpty (f : List β → List β) : Prop := ∀ values, f values = [] ↔ values = []

/-- A row that shows other values. -/
def CompareRow.mapShown (f : List β → List β) (row : CompareRow β) : CompareRow β :=
  { row with rawValues := some (f row.shown) }

/-- An event that shows other values. -/
def CompareDiffEvent.mapShown (f : List β → List β) (event : CompareDiffEvent β) :
    CompareDiffEvent β :=
  { event with
    sourceValues := event.sourceValues.map f
    targetValues := event.targetValues.map f }

/-- The events of a run, which show other values. -/
def mapEvents (f : List β → List β) (result : List (CompareDiffEvent β) × HashdiffProgress) :
    List (CompareDiffEvent β) × HashdiffProgress :=
  (result.1.map (CompareDiffEvent.mapShown f), result.2)

/-- A reader whose rows show other values. -/
def CompareSegmentReader.mapShown (f : List β → List β) (reader : CompareSegmentReader β) :
    CompareSegmentReader β where
  segmentFingerprint := reader.segmentFingerprint
  fetchRows segment := (reader.fetchRows segment).map (List.map (CompareRow.mapShown f))

variable {f : List β → List β}

/-- What is shown is changed, whether a row shows its raw values or the normalised ones. -/
theorem shown_mapShown (hf : KeepsEmpty f) (row : CompareRow β) :
  (row.mapShown f).shown = f row.shown
  := by
  cases h : f row.shown with
  | nil =>
      have hshown := (hf _).mp h
      have hvalues : row.values = [] := by
        rw [CompareRow.shown] at hshown
        split at hshown
        · cases hshown
        · apply hshown
      rw [CompareRow.shown, CompareRow.mapShown, h]
      apply hvalues
  | cons v vs =>
      rw [CompareRow.shown, CompareRow.mapShown, h]

/-! ### Rows by key -/

section Index

variable {κ : Type} [BEq κ] {ρ σ : Type u}

/-- Rows that are changed without their keys are entered in the same places. -/
theorem indexRow_map {key : ρ → κ} {key' : σ → κ} {g : ρ → σ} (hkey : ∀ row, key' (g row) = key row)
    (state : Dict κ ρ × ℕ) (row : ρ) :
  indexRow key' (state.map (Dict.mapValues g) id) (g row)
    = (indexRow key state row).map (Dict.mapValues g) id
  := by
  rw [indexRow, indexRow, hkey, Prod.map_fst, Dict.contains_mapValues, ← Dict.mapValues_set]
  rfl

theorem indexRows_map {key : ρ → κ} {key' : σ → κ} {g : ρ → σ}
    (hkey : ∀ row, key' (g row) = key row) (rows : List ρ) :
  indexRows key' (rows.map g) = (indexRows key rows).map (Dict.mapValues g) id
  := by
  have hloop : ∀ state : Dict κ ρ × ℕ,
      (rows.map g).foldl (indexRow key') (state.map (Dict.mapValues g) id)
        = (rows.foldl (indexRow key) state).map (Dict.mapValues g) id := by
    induction rows with
    | nil =>
        intro state
        rfl
    | cons row rest ih =>
        intro state
        rw [List.map_cons, List.foldl_cons, List.foldl_cons, indexRow_map hkey]
        apply ih
  apply hloop (Dict.empty, 0)

theorem unionKeys_mapValues (g : ρ → σ) (source target : Dict κ ρ) :
  unionKeys (source.mapValues g) (target.mapValues g) = unionKeys source target
  := by
  have hkeys : ∀ d : Dict κ ρ, (d.mapValues g).keys = d.keys := by
    intro d
    rw [Dict.keys, Dict.keys, Dict.mapValues, List.map_map]
    rfl
  rw [unionKeys, unionKeys, hkeys, hkeys]
  simp only [Dict.contains_mapValues]

end Index

theorem rowMap_mapShown (f : List β → List β) (rows : List (CompareRow β)) (side : Side) :
  rowMap (rows.map (CompareRow.mapShown f)) side
    = (rowMap rows side).map (Dict.mapValues (CompareRow.mapShown f))
  := by
  have hindex : indexRows CompareRow.pk (rows.map (CompareRow.mapShown f))
      = (indexRows CompareRow.pk rows).map (Dict.mapValues (CompareRow.mapShown f)) id :=
    indexRows_map (fun _ => rfl) rows
  simp only [rowMap, hindex, List.length_map, Prod.map_fst, Prod.map_snd, id_eq]
  split
  · rfl
  · rfl

/-! ### The events of one segment -/

section Events

variable [BEq β]

/-- The event of rows that show other values. -/
theorem diffEvent_mapShown (hf : KeepsEmpty f) (pk : List PyValue)
    (source target : Option (CompareRow β)) :
  diffEvent pk (source.map (CompareRow.mapShown f)) (target.map (CompareRow.mapShown f))
    = (diffEvent pk source target).map (CompareDiffEvent.mapShown f)
  := by
  cases source with
  | none =>
      cases target with
      | none => rfl
      | some t =>
          simp only [Option.map_none, Option.map_some, diffEvent, shown_mapShown hf]
          rfl
  | some s =>
      cases target with
      | none =>
          simp only [Option.map_none, Option.map_some, diffEvent, shown_mapShown hf]
          rfl
      | some t =>
          simp only [Option.map_some, diffEvent, pairEvent, shown_mapShown hf]
          rfl

theorem diffRowMaps_mapShown (hf : KeepsEmpty f)
    (source target : Dict (List PyValue) (CompareRow β)) :
  diffRowMaps (source.mapValues (CompareRow.mapShown f)) (target.mapValues (CompareRow.mapShown f))
    = (diffRowMaps source target).map (CompareDiffEvent.mapShown f)
  := by
  rw [diffRowMaps, diffRowMaps, unionKeys_mapValues, List.map_filterMap]
  apply List.filterMap_congr
  intro pk _
  rw [Dict.get?_mapValues, Dict.get?_mapValues]
  apply diffEvent_mapShown hf

theorem rowLevelDiff_mapShown (hf : KeepsEmpty f) (source target : CompareSegmentReader β)
    (segment : CompareSegment) :
  rowLevelDiff (source.mapShown f) (target.mapShown f) segment
    = (rowLevelDiff source target segment).map (List.map (CompareDiffEvent.mapShown f))
  := by
  symm
  apply Outcome.map_bind
  intro sourceRows
  rw [rowMap_mapShown]
  apply Outcome.map_bind
  intro sourceMap
  apply Outcome.map_bind
  intro targetRows
  rw [rowMap_mapShown]
  apply Outcome.map_bind
  intro targetMap
  rw [diffRowMaps_mapShown hf]
  rfl

/-! ### Whole ranges -/

theorem hashdiffLoop_mapShown (hf : KeepsEmpty f) (source target : CompareSegmentReader β)
    (limits : RunLimits) (stack : List (CompareSegment × ℕ)) (progress : HashdiffProgress) :
  hashdiffLoop (source.mapShown f) (target.mapShown f) limits stack progress
    = (hashdiffLoop source target limits stack progress).map (mapEvents f)
  := by
  have hs : (source.mapShown f).segmentFingerprint = source.segmentFingerprint := rfl
  have ht : (target.mapShown f).segmentFingerprint = target.segmentFingerprint := rfl
  fun_induction hashdiffLoop source target limits stack progress with
  | case1 progress =>
      rw [hashdiffLoop]
      rfl
  | case2 segment depth stack progress e hsource =>
      rw [hashdiffLoop, hs, hsource]
      rfl
  | case3 segment depth stack progress s hsource e htarget =>
      rw [hashdiffLoop, hs, ht, hsource]
      simp only [htarget]
      rfl
  | case4 segment depth stack progress fingerprint htarget hsource ih =>
      rw [hashdiffLoop, hs, ht, hsource]
      simp only [htarget, if_true]
      apply ih
  | case5 segment depth stack progress s hsource t htarget hne hdescend ih =>
      rw [hashdiffLoop, hs, ht, hsource]
      simp only [htarget, if_neg hne, if_pos hdescend]
      apply ih
  | case6 segment depth stack progress s hsource t htarget hne hdescend e hdiff =>
      rw [hashdiffLoop, hs, ht, hsource]
      simp only [htarget, if_neg hne, if_neg hdescend, rowLevelDiff_mapShown hf, hdiff]
      rfl
  | case7 segment depth stack progress s hsource t htarget hne hdescend events hdiff e hrest ih =>
      rw [hashdiffLoop, hs, ht, hsource]
      simp only [htarget, if_neg hne, if_neg hdescend, rowLevelDiff_mapShown hf, hdiff]
      rw [hrest] at ih
      simp only [Except.map, ih]
  | case8 segment depth stack progress s hsource t htarget hne hdescend events hdiff rest final
      hrest ih =>
      rw [hashdiffLoop, hs, ht, hsource]
      simp only [htarget, if_neg hne, if_neg hdescend, rowLevelDiff_mapShown hf, hdiff]
      rw [hrest] at ih
      simp only [Except.map, ih, mapEvents, List.map_append]

theorem recursiveHashdiffStream_mapShown (hf : KeepsEmpty f)
    (source target : CompareSegmentReader β) (root : CompareSegment) (limits : RunLimits) :
  recursiveHashdiffStream (source.mapShown f) (target.mapShown f) root limits
    = (recursiveHashdiffStream source target root limits).map (mapEvents f)
  := by
  rw [recursiveHashdiffStream, recursiveHashdiffStream]
  split
  · rw [rowLevelDiff_mapShown hf]
    cases rowLevelDiff source target root with
    | error e => rfl
    | ok events => rfl
  · apply hashdiffLoop_mapShown hf

end Events

/-! ### Materialised rows -/

section Materialized

variable {β : Type} {f : List β → List β}
variable {lib : Builtins} {keyColumns : List CompareColumn} {rules : CompareRules}
variable {cancelRequested : MaterializedLoop → ℕ → Bool}

theorem enterRow_mapShown (f : List β → List β) (side : Side)
    (state : Dict Identity (CompareRow β) × ℕ) (p : CompareRow β × ℕ) :
  (enterRow lib keyColumns rules cancelRequested side state p).map
      (Prod.map (Dict.mapValues (CompareRow.mapShown f)) id)
    = enterRow lib keyColumns rules cancelRequested side
        (state.map (Dict.mapValues (CompareRow.mapShown f)) id) (p.map (CompareRow.mapShown f) id)
  := by
  rw [enterRow, enterRow]
  apply Outcome.map_bind_right
  intro _
  apply Outcome.map_bind_right
  intro key
  apply congrArg Except.ok
  symm
  apply indexRow_map (fun _ => rfl)

theorem rowsByKey_mapShown (f : List β → List β) (rows : List (CompareRow β)) (side : Side) :
  rowsByKey lib keyColumns rules cancelRequested (rows.map (CompareRow.mapShown f)) side
    = (rowsByKey lib keyColumns rules cancelRequested rows side).map
      (Dict.mapValues (CompareRow.mapShown f))
  := by
  symm
  have hloop := Outcome.map_foldlM (f := enterRow lib keyColumns rules cancelRequested side)
    (enterRow_mapShown f side) rows.zipIdx (Dict.empty, 0)
  rw [rowsByKey, rowsByKey, List.zipIdx_map, List.length_map]
  apply (Outcome.map_bind _).trans
  · rw [hloop]
    rfl
  · intro indexed
    simp only [Prod.map_fst, Prod.map_snd, id_eq]
    split
    · rfl
    · rfl

variable [BEq β]

theorem materializedEvent_mapShown (hf : KeepsEmpty f) (source target : Option (CompareRow β)) :
  materializedEvent (source.map (CompareRow.mapShown f)) (target.map (CompareRow.mapShown f))
    = (materializedEvent source target).map (CompareDiffEvent.mapShown f)
  := by
  cases source with
  | none =>
      cases target with
      | none => rfl
      | some t => apply diffEvent_mapShown hf t.pk none (some t)
  | some s => apply diffEvent_mapShown hf s.pk (some s) target

/-- The diff of materialised rows that show other values. -/
theorem diffMaterializedRows_mapShown (hf : KeepsEmpty f) (source target : List (CompareRow β)) :
  diffMaterializedRows lib keyColumns rules cancelRequested
      (source.map (CompareRow.mapShown f)) (target.map (CompareRow.mapShown f))
    = (diffMaterializedRows lib keyColumns rules cancelRequested source target).map (mapEvents f)
  := by
  symm
  rw [diffMaterializedRows, diffMaterializedRows, rowsByKey_mapShown, rowsByKey_mapShown]
  apply Outcome.map_bind
  intro sourceByKey
  apply Outcome.map_bind
  intro targetByKey
  rw [unionKeys_mapValues]
  apply (Outcome.map_bind (f := List.map (Option.map (CompareDiffEvent.mapShown f))) _).trans
  · rw [Outcome.map_mapM]
    congr 1
    apply Outcome.mapM_congr
    intro p _
    apply Outcome.map_bind_right
    intro _
    apply congrArg Except.ok
    simp only [Dict.get?_mapValues, materializedEvent_mapShown hf]
  · intro events?
    have hevents : (events?.map (Option.map (CompareDiffEvent.mapShown f))).reduceOption
        = events?.reduceOption.map (CompareDiffEvent.mapShown f) := by
      apply List.reduceOption_map
    rw [hevents]
    apply congrArg Except.ok
    simp only [mapEvents, List.map_eq_nil_iff]

end Materialized

/-! ### Databases -/

namespace DatabaseCompareReader

/-- Two readers return rows that become the same once the shown values are changed. -/
structure Agree (f : List Cell → List Cell) (reader reader' : DatabaseCompareReader) : Prop where
  bounds : reader.bounds = reader'.bounds
  length : reader.db.rows.length = reader'.db.rows.length
  fingerprint : ∀ segment, reader.segmentFingerprint segment = reader'.segmentFingerprint segment
  rows : ∀ segment, (reader.fetchRows (some segment)).map (List.map (CompareRow.mapShown f))
    = (reader'.fetchRows (some segment)).map (List.map (CompareRow.mapShown f))
  all : ∀ maxRows, (reader.fetchAll maxRows).map (List.map (CompareRow.mapShown f))
    = (reader'.fetchAll maxRows).map (List.map (CompareRow.mapShown f))
  first : ∀ anchor, (reader.fetchFirstAtOrAfter anchor).map (Option.map (CompareRow.mapShown f))
    = (reader'.fetchFirstAtOrAfter anchor).map (Option.map (CompareRow.mapShown f))
  key : ∀ k, (reader.fetchKey k).map (List.map (CompareRow.mapShown f))
    = (reader'.fetchKey k).map (List.map (CompareRow.mapShown f))

end DatabaseCompareReader

section Databases

variable {f : List Cell → List Cell} {source source' target target' : DatabaseCompareReader}

theorem diffAllRows_mapShown (hf : KeepsEmpty f) (sourceRows targetRows : List (CompareRow Cell)) :
  diffAllRows (sourceRows.map (CompareRow.mapShown f)) (targetRows.map (CompareRow.mapShown f))
    = (diffAllRows sourceRows targetRows).map (mapEvents f)
  := by
  symm
  rw [diffAllRows, diffAllRows, rowMap_mapShown, rowMap_mapShown]
  apply Outcome.map_bind
  intro sourceByPk
  apply Outcome.map_bind
  intro targetByPk
  rw [diffRowMaps_mapShown hf]
  apply congrArg Except.ok
  simp only [mapEvents, List.map_eq_nil_iff]

/-- The diff of the rows of two readers. -/
theorem map_diffAllRows (hf : KeepsEmpty f)
    (sourceRows targetRows : Except CompareError (List (CompareRow Cell))) :
  (sourceRows >>= fun s => targetRows >>= fun t => diffAllRows s t).map (mapEvents f)
    = sourceRows.map (List.map (CompareRow.mapShown f)) >>= fun s =>
        targetRows.map (List.map (CompareRow.mapShown f)) >>= fun t => diffAllRows s t
  := by
  apply Outcome.map_bind
  intro s
  apply Outcome.map_bind
  intro t
  rw [diffAllRows_mapShown hf]

theorem segments_mapShown (h : source.Agree f source') :
  source.segments.mapShown f = source'.segments.mapShown f
  := by
  rw [CompareSegmentReader.mapShown, CompareSegmentReader.mapShown]
  congr 1
  · funext segment
    apply h.fingerprint
  · funext segment
    apply h.rows

/-- Readers that agree yield events that agree. -/
theorem runCompareHashdiff_agree (hf : KeepsEmpty f) (hs : source.Agree f source')
    (ht : target.Agree f target') (keyColumns : List CompareColumn) (limits : RunLimits) :
  (runCompareHashdiff source target keyColumns limits).map (mapEvents f)
    = (runCompareHashdiff source' target' keyColumns limits).map (mapEvents f)
  := by
  have henforce : ∀ {reader reader' : DatabaseCompareReader}, reader.Agree f reader' →
      reader.enforceMaxRows = reader'.enforceMaxRows := by
    intro reader reader' h
    funext maxRows
    rw [DatabaseCompareReader.enforceMaxRows, DatabaseCompareReader.enforceMaxRows, h.length]
  cases hkey : singleIntegerKey keyColumns with
  | false =>
      rw [runCompareHashdiff, runCompareHashdiff, hkey]
      simp only [Bool.not_false, if_true, map_diffAllRows hf, hs.all, ht.all]
  | true =>
    have hrange : ∀ root, (recursiveHashdiffStream source.segments target.segments root limits).map
          (mapEvents f)
        = (recursiveHashdiffStream source'.segments target'.segments root limits).map
          (mapEvents f) := by
      intro root
      rw [← recursiveHashdiffStream_mapShown hf, segments_mapShown hs, segments_mapShown ht,
        recursiveHashdiffStream_mapShown hf]
    have hroot : ∀ root? : Option CompareSegment,
        (root?.elim (diffAllRows [] [])
          (fun root => recursiveHashdiffStream source.segments target.segments root limits)).map
            (mapEvents f)
        = (root?.elim (diffAllRows [] [])
          (fun root => recursiveHashdiffStream source'.segments target'.segments root limits)).map
            (mapEvents f) := by
      intro root?
      cases root? with
      | none => rfl
      | some root => apply hrange
    rw [runCompareHashdiff_of_key limits hkey, runCompareHashdiff_of_key limits hkey, henforce hs,
      henforce ht, hs.bounds, ht.bounds]
    apply Outcome.map_bind_congr
    intro _
    apply hroot

/-- The keys that are sampled are those of the rows. -/
theorem firstIntPk_mapShown (f : List Cell → List Cell) (row : Option (CompareRow Cell)) :
  firstIntPk (row.map (CompareRow.mapShown f)) = firstIntPk row
  := by
  cases row with
  | none => rfl
  | some row => rfl

theorem addSampled_agree {reader reader' : DatabaseCompareReader} (h : reader.Agree f reader')
    (start stop anchor : ℤ) (keys : List ℤ) :
  addSampled reader start stop anchor keys = addSampled reader' start stop anchor keys
  := by
  apply Outcome.bind_congr_of_map (h.first anchor)
  intro row row' heq
  rw [← firstIntPk_mapShown f row, heq, firstIntPk_mapShown]

theorem drawKeys_agree (hs : source.Agree f source') (ht : target.Agree f target')
    (sample : SampleCheck) (start stop : ℤ) (left attempt : ℕ) (keys : List ℤ) :
  drawKeys source target sample start stop left attempt keys
    = drawKeys source' target' sample start stop left attempt keys
  := by
  induction left generalizing attempt keys with
  | zero => rfl
  | succ left ih => simp only [drawKeys, addSampled_agree hs, addSampled_agree ht, ih]

/-- The events of the rows with a key. -/
theorem keyEvents_agree (hf : KeepsEmpty f) (hs : source.Agree f source')
    (ht : target.Agree f target') (key : ℤ) :
  (do
      let sourceRows ← source.fetchKey key
      let targetRows ← target.fetchKey key
      let result ← diffAllRows sourceRows targetRows
      return result.1).map (List.map (CompareDiffEvent.mapShown f))
    = (do
      let sourceRows ← source'.fetchKey key
      let targetRows ← target'.fetchKey key
      let result ← diffAllRows sourceRows targetRows
      return result.1).map (List.map (CompareDiffEvent.mapShown f))
  := by
  have hnatural : ∀ sourceRows targetRows : Except CompareError (List (CompareRow Cell)),
      (do
          let sourceRows ← sourceRows
          let targetRows ← targetRows
          let result ← diffAllRows sourceRows targetRows
          return result.1).map (List.map (CompareDiffEvent.mapShown f))
        = (do
          let sourceRows ← sourceRows.map (List.map (CompareRow.mapShown f))
          let targetRows ← targetRows.map (List.map (CompareRow.mapShown f))
          let result ← diffAllRows sourceRows targetRows
          return result.1) := by
    intro sourceRows targetRows
    apply Outcome.map_bind
    intro s
    apply Outcome.map_bind
    intro t
    rw [diffAllRows_mapShown hf]
    apply Outcome.map_bind
    intro result
    rfl
  rw [hnatural, hnatural, hs.key, ht.key]

/-- Readers that agree yield samples that agree. -/
theorem runCompareSampleQuickCheck_agree (hf : KeepsEmpty f) (hs : source.Agree f source')
    (ht : target.Agree f target') (keyColumns : List CompareColumn) (sample : SampleCheck) :
  (runCompareSampleQuickCheck source target keyColumns sample).map (mapEvents f)
    = (runCompareSampleQuickCheck source' target' keyColumns sample).map (mapEvents f)
  := by
  rw [runCompareSampleQuickCheck, runCompareSampleQuickCheck]
  split
  · rfl
  · rw [hs.bounds, ht.bounds]
    simp only []
    split
    · rw [samplePrimaryKeys, samplePrimaryKeys, drawKeys_agree hs ht]
      apply Outcome.map_bind_congr
      intro keys
      have hnatural : ∀ events : Except CompareError (List (List (CompareDiffEvent Cell))),
          (events >>= fun events => .ok (events.flatten,
              ({ rowModeSegments := if events.flatten = [] then 0 else 1 } :
                HashdiffProgress))).map (mapEvents f)
            = events.map (List.map (List.map (CompareDiffEvent.mapShown f)))
              >>= fun events => .ok (events.flatten,
                ({ rowModeSegments := if events.flatten = [] then 0 else 1 } :
                  HashdiffProgress)) := by
        intro events
        apply Outcome.map_bind
        intro events
        rw [← List.map_flatten]
        apply congrArg Except.ok
        simp only [mapEvents, List.map_eq_nil_iff]
      apply (hnatural _).trans
      rw [Outcome.map_mapM, Outcome.mapM_congr (fun key _ => keyEvents_agree hf hs ht key),
        ← Outcome.map_mapM]
      apply (hnatural _).symm
    · rfl

end Databases

end Compare

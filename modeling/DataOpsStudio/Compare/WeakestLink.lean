import DataOpsStudio.Compare.Tracing
import Mathlib.Tactic.NormNum

/-!
# The weakest link of a chain

The confidence of a table upstream is to be the least one of all edges on the way from the focus,
and so with the warnings.  What is reported is the least confidence of the last edges alone.  Both
are the same exactly when no edge before the last ones is weaker than these.
-/

namespace Upstream

open Text

/-- All edges on the way from the focus to the columns of a hop. -/
def UpstreamHop.chainEdges (hop : UpstreamHop) : List UpstreamEdge :=
  hop.slot.flatMap (fun place => (place.map Traced.chain).getD [])

/-- The last edges on the way to the columns of a hop. -/
def UpstreamHop.lastEdges (hop : UpstreamHop) : List UpstreamEdge :=
  hop.slot.filterMap (fun place => place.bind (fun traced => traced.chain.getLast?))

/-- Whether an edge changes how values are written. -/
def IsCast (edge : UpstreamEdge) : Prop := edge.transformationSubtype = "CAST".toList

/-- Whether an edge has only been inferred. -/
def IsInferred (edge : UpstreamEdge) : Prop := edge.inferenceStatus = "inferred".toList

/-- The confidence of a hop is that of the weakest edge on the way from the focus, and there is a
warning for every edge that calls for one. -/
structure WeakestLink (hop : UpstreamHop) : Prop where
  confidence : hop.confidence = clamp (leastConfidence hop.chainEdges)
  cast : ∀ edge ∈ hop.chainEdges, IsCast edge → "cast_value_mismatch_risk".toList ∈ hop.warnings
  inferred : ∀ edge ∈ hop.chainEdges, IsInferred edge → "inferred_edge_used".toList ∈ hop.warnings

/-- No edge on the way from the focus is weaker than all of the last ones, or calls for a warning
that none of these calls for. -/
structure NoWeakerLink (hop : UpstreamHop) : Prop where
  confidence : ∀ edge ∈ hop.chainEdges, ∃ last ∈ hop.lastEdges,
    clamp last.confidence ≤ clamp edge.confidence
  cast : ∀ edge ∈ hop.chainEdges, IsCast edge → ∃ last ∈ hop.lastEdges, IsCast last
  inferred : ∀ edge ∈ hop.chainEdges, IsInferred edge → ∃ last ∈ hop.lastEdges, IsInferred last

/-! ### The least confidence -/

theorem clamp_le_clamp {p q : ℚ} (h : p ≤ q) :
  clamp p ≤ clamp q
  := max_le_max (le_refl _) (min_le_min (le_refl _) h)

/-- The least confidence is that of an edge, and no edge has a smaller one. -/
theorem leastConfidence_spec {hopEdges : List UpstreamEdge} (h : hopEdges ≠ []) :
  (∃ edge ∈ hopEdges, leastConfidence hopEdges = edge.confidence)
    ∧ ∀ edge ∈ hopEdges, leastConfidence hopEdges ≤ edge.confidence
  := by
  have hne : (hopEdges.map UpstreamEdge.confidence) ≠ [] := by simpa using h
  obtain ⟨least, hleast⟩ := Option.isSome_iff_exists.mp (List.isSome_min?_of_ne_nil hne)
  obtain ⟨hmem, hle⟩ := List.min?_eq_some_iff.mp hleast
  rw [leastConfidence, hleast, Option.getD_some]
  constructor
  · obtain ⟨edge, hedge, heq⟩ := List.mem_map.mp hmem
    exact ⟨edge, hedge, heq.symm⟩
  · intro edge hedge
    exact hle _ (List.mem_map_of_mem hedge)

theorem mem_lastEdges_iff {hop : UpstreamHop} {edge : UpstreamEdge} :
  edge ∈ hop.lastEdges ↔ ∃ traced, some traced ∈ hop.slot ∧ traced.chain.getLast? = some edge
  := by
  rw [UpstreamHop.lastEdges, List.mem_filterMap]
  constructor
  · rintro ⟨place, hplace, hlast⟩
    obtain ⟨traced, rfl, hlast⟩ := Option.bind_eq_some_iff.mp hlast
    exact ⟨traced, hplace, hlast⟩
  · rintro ⟨traced, hplace, hlast⟩
    exact ⟨some traced, hplace, hlast⟩

theorem mem_chainEdges_of_mem_lastEdges {hop : UpstreamHop} {edge : UpstreamEdge}
    (h : edge ∈ hop.lastEdges) :
  edge ∈ hop.chainEdges
  := by
  obtain ⟨traced, hplace, hlast⟩ := mem_lastEdges_iff.mp h
  exact List.mem_flatMap.mpr ⟨some traced, hplace, List.mem_of_getLast? hlast⟩

/-! ### Hops that are available -/

/-- What is known of a hop that is available: its confidence and warnings are those of the last
edges. -/
structure LastLinks (hop : UpstreamHop) : Prop where
  ne_nil : hop.lastEdges ≠ []
  confidence : hop.confidence = clamp (leastConfidence hop.edges)
  warnings : hop.warnings = hopWarnings hop.edges hop.slot
  mem_edges : ∀ edge, edge ∈ hop.edges ↔ edge ∈ hop.lastEdges

theorem lastLinks_of_available {focusTable : Text} {keyColumns : List Text}
    {edges : List UpstreamEdge} {includeInferred : Bool} {maxDepth : ℤ} {hop : UpstreamHop}
    (h : hop ∈ buildUpstreamHops focusTable keyColumns edges includeInferred maxDepth)
    (havailable : hop.available = true) :
  LastLinks hop
  := by
  obtain ⟨n, -, item, hslot, hmem⟩ := exists_of_mem_buildUpstreamHops h
  obtain ⟨⟨table, slot⟩, hfound, rfl⟩ := available_of_mem_tableHops hmem havailable
  have hget := Dict.get?_eq_some_iff.mpr hfound
  have hreached := (resolve_ok hslot).slot table slot hget
  have hown := (resolve_ok hslot).own table slot hget
  constructor
  · obtain ⟨traced, htraced⟩ := hown.traced
    obtain ⟨i, hi⟩ := List.mem_iff_getElem?.mp htraced
    obtain ⟨key, -, hchain⟩ := hreached.reached i traced hi
    have hne : traced.chain ≠ [] := by
      rw [← List.length_pos_iff, hchain.length_eq]
      omega
    intro hnil
    have hlast : traced.chain.getLast hne
        ∈ (availableHop (n + 1) (resolve edges includeInferred item.1 item.2)
          (table, slot)).lastEdges :=
      mem_lastEdges_iff.mpr ⟨traced, htraced, List.getLast?_eq_some_getLast hne⟩
    rw [hnil] at hlast
    cases hlast
  · rfl
  · rfl
  · intro edge
    rw [mem_lastEdges_iff]
    exact hown.mem_iff edge

theorem mem_hopWarnings_cast {hopEdges : List UpstreamEdge} {slot : Slot} :
  "cast_value_mismatch_risk".toList ∈ hopWarnings hopEdges slot ↔ ∃ edge ∈ hopEdges, IsCast edge
  := by
  have hany : hopEdges.any (fun edge => edge.transformationSubtype = "CAST".toList) = true
      ↔ ∃ edge ∈ hopEdges, IsCast edge := by
    rw [List.any_eq_true]
    simp only [decide_eq_true_eq, IsCast]
  rw [hopWarnings, List.mem_append, List.mem_append, ← hany]
  constructor
  · rintro ((h | h) | h)
    · split at h
      · rename_i hcast
        exact hcast
      · cases h
    · split at h
      · exact absurd h (by decide)
      · cases h
    · split at h
      · exact absurd h (by decide)
      · cases h
  · intro h
    rw [if_pos h]
    exact .inl (.inl List.mem_cons_self)

theorem mem_hopWarnings_inferred {hopEdges : List UpstreamEdge} {slot : Slot} :
  "inferred_edge_used".toList ∈ hopWarnings hopEdges slot ↔ ∃ edge ∈ hopEdges, IsInferred edge
  := by
  have hany : hopEdges.any (fun edge => edge.inferenceStatus = "inferred".toList) = true
      ↔ ∃ edge ∈ hopEdges, IsInferred edge := by
    rw [List.any_eq_true]
    simp only [decide_eq_true_eq, IsInferred]
  rw [hopWarnings, List.mem_append, List.mem_append, ← hany]
  constructor
  · rintro ((h | h) | h)
    · split at h
      · exact absurd h (by decide)
      · cases h
    · split at h
      · rename_i hinferred
        exact hinferred
      · cases h
    · split at h
      · exact absurd h (by decide)
      · cases h
  · intro h
    rw [if_pos h]
    exact .inl (.inr List.mem_cons_self)

theorem LastLinks.weakestLink_iff {hop : UpstreamHop} (h : LastLinks hop) :
  WeakestLink hop ↔ NoWeakerLink hop
  := by
  have hlast : ∀ P : UpstreamEdge → Prop,
      (∃ edge ∈ hop.edges, P edge) ↔ ∃ last ∈ hop.lastEdges, P last := by
    intro P
    simp only [h.mem_edges]
  obtain ⟨first, hfirst⟩ := List.exists_mem_of_ne_nil _ h.ne_nil
  have hchain : hop.chainEdges ≠ [] :=
    List.ne_nil_of_mem (mem_chainEdges_of_mem_lastEdges hfirst)
  have hedges : hop.edges ≠ [] := List.ne_nil_of_mem ((h.mem_edges first).mpr hfirst)
  obtain ⟨⟨weakest, hweakest, hleast⟩, hle⟩ := leastConfidence_spec hchain
  obtain ⟨⟨own, hown, hownLeast⟩, hownLe⟩ := leastConfidence_spec hedges
  have hconfidence : hop.confidence = clamp (leastConfidence hop.chainEdges)
      ↔ ∀ edge ∈ hop.chainEdges, ∃ last ∈ hop.lastEdges,
        clamp last.confidence ≤ clamp edge.confidence := by
    rw [h.confidence]
    constructor
    · intro heq edge hedge
      refine ⟨own, (h.mem_edges own).mp hown, ?_⟩
      rw [← hownLeast, heq]
      exact clamp_le_clamp (hle edge hedge)
    · intro hall
      apply le_antisymm
      · obtain ⟨last, hmem, hlastLe⟩ := hall weakest hweakest
        rw [hleast]
        exact (clamp_le_clamp (hownLe last ((h.mem_edges last).mpr hmem))).trans hlastLe
      · rw [hownLeast]
        apply clamp_le_clamp
        exact hle own (mem_chainEdges_of_mem_lastEdges ((h.mem_edges own).mp hown))
  constructor
  · rintro ⟨hconf, hcast, hinferred⟩
    constructor
    · exact hconfidence.mp hconf
    · intro edge hedge hedgeCast
      have hwarning := hcast edge hedge hedgeCast
      rw [h.warnings, mem_hopWarnings_cast, hlast] at hwarning
      exact hwarning
    · intro edge hedge hedgeInferred
      have hwarning := hinferred edge hedge hedgeInferred
      rw [h.warnings, mem_hopWarnings_inferred, hlast] at hwarning
      exact hwarning
  · rintro ⟨hconf, hcast, hinferred⟩
    constructor
    · exact hconfidence.mpr hconf
    · intro edge hedge hedgeCast
      rw [h.warnings, mem_hopWarnings_cast, hlast]
      exact hcast edge hedge hedgeCast
    · intro edge hedge hedgeInferred
      rw [h.warnings, mem_hopWarnings_inferred, hlast]
      exact hinferred edge hedge hedgeInferred

/-- What is reported of the hops that are available is that of the weakest link exactly when no
edge on the way to them is weaker than the last ones. -/
theorem weakestLinks_iff (focusTable : Text) (keyColumns : List Text) (edges : List UpstreamEdge)
    (includeInferred : Bool) (maxDepth : ℤ) :
  (∀ hop ∈ buildUpstreamHops focusTable keyColumns edges includeInferred maxDepth,
      hop.available = true → WeakestLink hop)
    ↔ ∀ hop ∈ buildUpstreamHops focusTable keyColumns edges includeInferred maxDepth,
      hop.available = true → NoWeakerLink hop
  := by
  constructor
  · intro h hop hhop havailable
    exact (lastLinks_of_available hhop havailable).weakestLink_iff.mp (h hop hhop havailable)
  · intro h hop hhop havailable
    exact (lastLinks_of_available hhop havailable).weakestLink_iff.mpr (h hop hhop havailable)

/-! ### A weak first link -/

/-- An edge along which the column `id` is passed on from a table to another. -/
def passOn (sourceTable targetTable : String) (confidence : ℚ) : UpstreamEdge where
  sourceTable := sourceTable.toList
  sourceColumn := "id".toList
  targetTable := targetTable.toList
  targetColumn := "id".toList
  transformation := "DIRECT".toList
  transformationSubtype := "DIRECT".toList
  inferenceStatus := "confirmed".toList
  confidence

/-- A doubtful edge to the focus, and a certain one before it. -/
def doubtful : List UpstreamEdge := [passOn "dwd" "ads" (3 / 5), passOn "ods" "dwd" 1]

/-- The second table upstream is reported without a doubt. -/
theorem not_weakestLinks_doubtful :
  ¬ ∀ hop ∈ buildUpstreamHops "ads".toList ["id".toList] doubtful false 5,
      hop.available = true → WeakestLink hop
  := by
  intro h
  have hhop : (buildUpstreamHops "ads".toList ["id".toList] doubtful false 5)[1]?.map
      (fun hop => (hop.available, hop.edges, hop.chainEdges))
        = some (true, [passOn "ods" "dwd" 1], doubtful) := by
    rfl
  obtain ⟨hop, hget, hseen⟩ := Option.map_eq_some_iff.mp hhop
  obtain ⟨havailable, hrest⟩ := Prod.mk.inj hseen
  obtain ⟨hedges, hchain⟩ := Prod.mk.inj hrest
  have hmem := List.mem_of_getElem? hget
  have hweakest := (h hop hmem havailable).confidence
  rw [(lastLinks_of_available hmem havailable).confidence, hedges, hchain] at hweakest
  have hlast : leastConfidence [passOn "ods" "dwd" 1] = 1 := rfl
  have hleast : leastConfidence doubtful = min (3 / 5) 1 := rfl
  rw [hlast, hleast, clamp, clamp, confidenceFloor, confidenceCeiling] at hweakest
  norm_num at hweakest

end Upstream

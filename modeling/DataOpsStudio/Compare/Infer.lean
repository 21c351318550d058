import DataOpsStudio.Compare.Normalize
import Mathlib.Data.List.Lex
import Mathlib.Data.List.Sort
import Mathlib.Data.Finset.Card
import Mathlib.Data.Prod.Lex
import Mathlib.Data.String.Basic
import Mathlib.Data.Finset.Dedup

/-!
# Inferring a comparison

Before two tables are compared, it is inferred which columns belong together and which of them
identify the rows.  Columns belong together if their types are compatible and their names are the
same or alike.  A column that is alike to several ones is left to the user, so that what is
confirmed pairs each column with at most one, in whatever order the columns are listed and
whichever side is called the source.  The key is a key of both tables.
-/

namespace Compare

open Text

/-! ### Columns and indexes -/

/-- A column of a table, as the metadata of its database describes it. -/
structure TableColumn where
  name : String
  type : ColumnType := .unknown
  primaryKey : Bool := false
deriving DecidableEq

/-- An index of a table. -/
structure TableIndex where
  columns : List String
  isUnique : Bool := false
  isPrimary : Bool := false

inductive MappingReason where
  | exact
  | normalized
  | typeCompatible
deriving DecidableEq

inductive ConflictKind where
  | oneToMany
  | manyToOne
  | manyToMany
deriving DecidableEq

inductive PrimaryKeyReason where
  | primaryKey
  | uniqueIndex
deriving DecidableEq

/-- Columns that may belong together.  Confidences are in thousandths. -/
structure ColumnMappingCandidate where
  sourceColumn : String
  targetColumn : String
  sourceType : ColumnType
  targetType : ColumnType
  confidence : ℕ
  reason : MappingReason
  conflict : Bool := false
  conflictKind : Option ConflictKind := none
deriving DecidableEq

structure PrimaryKeyCandidate where
  sourceColumns : List String
  targetColumns : List String
  confidence : ℕ
  reason : PrimaryKeyReason
deriving DecidableEq

/-- What is inferred: the user may change it before the comparison is run. -/
structure CompareInferenceDraft where
  mappings : List ColumnMappingCandidate
  pkCandidates : List PrimaryKeyCandidate
  needsManualPk : Bool
  compareRules : CompareRules
  columns : List TableColumn

/-! ### Names -/

def phraseAliases : List (Text × Text) :=
  [("编号".toList, "id".toList), ("名称".toList, "name".toList), ("姓名".toList, "name".toList),
    ("用户".toList, "user".toList), ("账号".toList, "account".toList),
    ("金额".toList, "amount".toList), ("数量".toList, "quantity".toList),
    ("日期".toList, "date".toList), ("时间".toList, "time".toList),
    ("状态".toList, "status".toList), ("类型".toList, "type".toList),
    ("描述".toList, "description".toList), ("备注".toList, "remark".toList)]

def tokenAliases : List (Text × Text) :=
  [("uid".toList, "id".toList), ("pk".toList, "id".toList), ("num".toList, "number".toList),
    ("no".toList, "number".toList), ("amt".toList, "amount".toList),
    ("qty".toList, "quantity".toList), ("cnt".toList, "count".toList),
    ("dt".toList, "date".toList), ("ts".toList, "time".toList),
    ("desc".toList, "description".toList), ("memo".toList, "remark".toList)]

def affixTokens : List Text :=
  ["src".toList, "source".toList, "s".toList, "tgt".toList, "target".toList, "dst".toList,
    "dest".toList, "old".toList, "new".toList, "ods".toList, "dwd".toList, "tbl".toList,
    "tb".toList]

/-- The characters that tokens are made of. -/
def isTokenChar (c : Char) : Bool := c.isLower || c.isDigit

/-- Parts a capital letter from what is in front of it. -/
def splitCase : Text → Text
  | a :: b :: s =>
      if isTokenChar a && b.isUpper then a :: '_' :: splitCase (b :: s)
      else a :: splitCase (b :: s)
  | s => s

/-- Leaves out affixes in front, but never the last token. -/
def dropAffixes : List Text → List Text
  | token :: next :: rest =>
      if token ∈ affixTokens then dropAffixes (next :: rest) else token :: next :: rest
  | tokens => tokens

section Names

variable (lower : Text → Text)

def normalizedTokens (name : String) : List Text :=
  let value := phraseAliases.foldl (fun value phrase =>
    replace phrase.1 ('_' :: phrase.2 ++ ['_']) value) (lower (splitCase name.toList))
  let tokens := ((value.splitOnP fun c => !isTokenChar c).filter (· ≠ [])).map fun token =>
    (tokenAliases.lookup token).getD token
  (dropAffixes (dropAffixes tokens).reverse).reverse

def normalizedIdentifier (name : String) : Text := (normalizedTokens lower name).flatten

end Names

/-- Whether the tokens of one name are among those of the other. -/
def tokenSubsetMatch (sourceTokens targetTokens : List Text) : Bool :=
  if sourceTokens = [] ∨ targetTokens = [] then false
  else
    let sourceSet := sourceTokens.toFinset
    let targetSet := targetTokens.toFinset
    if sourceSet = targetSet then true
    else
      let shared := sourceSet ∩ targetSet
      let smaller := min sourceSet.card targetSet.card
      decide (shared.Nonempty ∧ shared.card = smaller ∧ 2 ≤ smaller)

/-! ### Columns that belong together -/

def ColumnType.isNumeric : ColumnType → Bool
  | .integer | .float | .decimal => true
  | _ => false

def ColumnType.isTemporal : ColumnType → Bool
  | .date | .datetime => true
  | _ => false

def columnTypesCompatible (sourceType targetType : ColumnType) : Bool :=
  sourceType == targetType || (sourceType.isNumeric && targetType.isNumeric)
    || (sourceType.isTemporal && targetType.isTemporal)
    || (sourceType == .boolean && targetType == .integer)
    || (sourceType == .integer && targetType == .boolean)

def typePenalty (sourceType targetType : ColumnType) : ℕ :=
  if sourceType = targetType then 0 else 80

/-- A candidate with whether another one has the same source or the same target. -/
def markConflict (candidates : List ColumnMappingCandidate) (candidate : ColumnMappingCandidate) :
    ColumnMappingCandidate :=
  let sourceConflict := 1 < candidates.countP fun other =>
    other.sourceColumn = candidate.sourceColumn
  let targetConflict := 1 < candidates.countP fun other =>
    other.targetColumn = candidate.targetColumn
  let conflictKind :=
    if sourceConflict ∧ targetConflict then some ConflictKind.manyToMany
    else if sourceConflict then some .oneToMany
    else if targetConflict then some .manyToOne
    else none
  { candidate with conflict := conflictKind.isSome, conflictKind }

def markMappingConflicts (lower : Text → Text) (candidates : List ColumnMappingCandidate) :
    List ColumnMappingCandidate :=
  (candidates.map (markConflict candidates)).insertionSort fun c c' =>
    toLex (lower c.sourceColumn.toList, toLex (-(c.confidence : ℤ), lower c.targetColumn.toList))
      ≤ toLex (lower c'.sourceColumn.toList,
          toLex (-(c'.confidence : ℤ), lower c'.targetColumn.toList))

section Infer

variable (lower : Text → Text)

/-- Why two columns may belong together, and how certain that is. -/
def mappingReason (source target : TableColumn) : Option (MappingReason × ℕ) :=
  if source.name = target.name then some (.exact, 1000)
  else if lower source.name.toList = lower target.name.toList then some (.exact, 980)
  else if normalizedIdentifier lower source.name ≠ []
      ∧ normalizedIdentifier lower source.name = normalizedIdentifier lower target.name then
    some (.normalized, 900)
  else if tokenSubsetMatch (normalizedTokens lower source.name)
      (normalizedTokens lower target.name) then
    some (.typeCompatible, 720)
  else none

/-- The candidate that two columns are. -/
def mappingCandidate (source target : TableColumn) : Option ColumnMappingCandidate :=
  if columnTypesCompatible source.type target.type then
    (mappingReason lower source target).map fun (reason, confidence) => {
      sourceColumn := source.name
      targetColumn := target.name
      sourceType := source.type
      targetType := target.type
      confidence := confidence - typePenalty source.type target.type
      reason }
  else none

/-- The candidates, before they are looked through for conflicts. -/
def mappingCandidates (sourceColumns targetColumns : List TableColumn) :
    List ColumnMappingCandidate :=
  sourceColumns.flatMap fun source => targetColumns.filterMap (mappingCandidate lower source)

def inferColumnMappings (sourceColumns targetColumns : List TableColumn) :
    List ColumnMappingCandidate :=
  markMappingConflicts lower (mappingCandidates lower sourceColumns targetColumns)

/-- Takes a candidate unless it has a conflict or one of its columns is taken. -/
def confirmMapping (state : Dict String String × List String)
    (candidate : ColumnMappingCandidate) : Dict String String × List String :=
  if candidate.conflict then state
  else if state.1.contains candidate.sourceColumn ∨ candidate.targetColumn ∈ state.2 then state
  else (state.1.set candidate.sourceColumn candidate.targetColumn,
    candidate.targetColumn :: state.2)

def selectConfirmedMappings (candidates : List ColumnMappingCandidate) : Dict String String :=
  let sorted := candidates.insertionSort fun c c' =>
    toLex (-(c.confidence : ℤ), toLex (lower c.sourceColumn.toList, lower c.targetColumn.toList))
      ≤ toLex (-(c'.confidence : ℤ),
          toLex (lower c'.sourceColumn.toList, lower c'.targetColumn.toList))
  let selected := (sorted.foldl confirmMapping (Dict.empty, [])).1
  Dict.ofList (selected.items.insertionSort fun p q => toLex p ≤ toLex q)

end Infer

/-! ### Keys -/

/-- The columns that a table declares to identify its rows. -/
def keyConstraints (columns : List TableColumn) (indexes : List TableIndex) :
    List (List String × PrimaryKeyReason) :=
  let primaryColumns := (columns.filter TableColumn.primaryKey).map TableColumn.name
  (if primaryColumns = [] then [] else [(primaryColumns, .primaryKey)])
    ++ indexes.filterMap fun index =>
      if index.columns = [] then none
      else if index.isPrimary then
        if primaryColumns = [] then some (index.columns, .primaryKey) else none
      else if index.isUnique then some (index.columns, .uniqueIndex)
      else none

/-- The reason for a key: it is a primary key of one of the tables, or unique in both. -/
def keyReason (sourceReason targetReason : PrimaryKeyReason) : PrimaryKeyReason :=
  if sourceReason = .primaryKey ∨ targetReason = .primaryKey then .primaryKey else .uniqueIndex

/-- The candidate for a key that a declared key of the source is, unless it has been seen. -/
def primaryKeyCandidate (mappings : List ColumnMappingCandidate) (selected : Dict String String)
    (targetConstraints : List (List String × PrimaryKeyReason)) (seen : List PrimaryKeyCandidate)
    (source : List String × PrimaryKeyReason) : Option PrimaryKeyCandidate :=
  match source.1.mapM selected.get? with
  | none => none
  | some targetKey =>
      let confidenceOf := fun column => ((mappings.reverse.find? fun candidate =>
        !candidate.conflict && candidate.sourceColumn == column).map
          ColumnMappingCandidate.confidence).getD 700
      let fits := targetConstraints.filter fun target =>
        targetKey.toFinset = target.1.toFinset ∧ ¬ seen.any fun candidate =>
          candidate.sourceColumns = source.1 ∧ candidate.targetColumns = targetKey
            ∧ candidate.reason = keyReason source.2 target.2
      fits.head?.map fun target =>
        let reason := keyReason source.2 target.2
        let base := if reason = .primaryKey then 980 else 860
        { sourceColumns := source.1
          targetColumns := targetKey
          confidence := ((source.1.map confidenceOf).min?.elim base
            fun least => (base * least + 500) / 1000)
          reason }

section Keys

variable (lower : Text → Text)

def inferPrimaryKeyCandidates (sourceColumns targetColumns : List TableColumn)
    (sourceIndexes targetIndexes : List TableIndex) (mappings : List ColumnMappingCandidate) :
    List PrimaryKeyCandidate :=
  let selected := selectConfirmedMappings lower mappings
  let candidates := (keyConstraints sourceColumns sourceIndexes).foldl
    (fun seen source => seen ++ (primaryKeyCandidate mappings selected
      (keyConstraints targetColumns targetIndexes) seen source).toList) []
  candidates.insertionSort fun c c' =>
    toLex ((if c.reason = .primaryKey then 0 else 1 : ℕ),
      toLex (-(c.confidence : ℤ), c.sourceColumns))
      ≤ toLex ((if c'.reason = .primaryKey then 0 else 1 : ℕ),
          toLex (-(c'.confidence : ℤ), c'.sourceColumns))

def inferCompareDraft (sourceColumns targetColumns : List TableColumn)
    (sourceIndexes targetIndexes : List TableIndex) : CompareInferenceDraft :=
  let mappings := inferColumnMappings lower sourceColumns targetColumns
  let pkCandidates := inferPrimaryKeyCandidates lower sourceColumns targetColumns sourceIndexes
    targetIndexes mappings
  let selected := selectConfirmedMappings lower mappings
  let keyColumns := (pkCandidates.head?.map PrimaryKeyCandidate.sourceColumns).getD []
  { mappings
    pkCandidates
    needsManualPk := pkCandidates.isEmpty
    compareRules :=
      { keyColumns
        columnMappings := selected
        numericScale_le := defaultNumericScale_le
        timestampPrecision_le := defaultTimestampPrecision_le }
    columns := sourceColumns.filter fun column =>
      selected.contains column.name && !keyColumns.contains column.name }

end Keys

/-! ### What is confirmed -/

section Confirmed

variable {lower : Text → Text}

/-- The columns that may belong together, as often as that is found. -/
def candidatePairs (lower : Text → Text) (sourceColumns targetColumns : List TableColumn) :
    List (String × String) :=
  (mappingCandidates lower sourceColumns targetColumns).map fun candidate =>
    (candidate.sourceColumn, candidate.targetColumn)

/-- Two columns belong together, and neither may belong to another one. -/
structure Paired (pairs : List (String × String)) (source target : String) : Prop where
  mem : (source, target) ∈ pairs
  source : pairs.countP (fun p => p.1 = source) = 1
  target : pairs.countP (fun p => p.2 = target) = 1

theorem Paired.congr {pairs pairs' : List (String × String)} (h : pairs.Perm pairs')
    {source target : String} :
  Paired pairs source target ↔ Paired pairs' source target
  := by
  have himp : ∀ {ps ps' : List (String × String)}, ps.Perm ps' → Paired ps source target →
      Paired ps' source target := by
    intro ps ps' hperm hpaired
    exact ⟨hperm.mem_iff.mp hpaired.mem, hperm.countP_eq _ ▸ hpaired.source,
      hperm.countP_eq _ ▸ hpaired.target⟩
  exact ⟨himp h, himp h.symm⟩

/-- Where an element that satisfies a condition is the only one, its place is the only one. -/
theorem nodup_map_filter {α β : Type} [DecidableEq β] {l : List α} {p : α → Bool} {f : α → β}
    (h : ∀ x ∈ l, p x = true → l.countP (fun y => f y = f x) = 1) :
  ((l.filter p).map f).Nodup
  := by
  rw [List.nodup_iff_count_le_one]
  intro b
  by_cases hb : b ∈ (l.filter p).map f
  · obtain ⟨x, hx, rfl⟩ := List.mem_map.mp hb
    obtain ⟨hx, hp⟩ := List.mem_filter.mp hx
    calc ((l.filter p).map f).count (f x)
        ≤ (l.map f).count (f x) := List.Sublist.count_le (f x) (List.filter_sublist.map f)
      _ = l.countP (fun y => f y = f x) := by
          rw [List.count, List.countP_map]
          congr 1
      _ ≤ 1 := (h x hx hp).le
  · rw [List.count_eq_zero_of_not_mem hb]
    exact Nat.zero_le 1

/-- Candidates are taken one after the other: where those without a conflict have different
sources and different targets, all of them are taken. -/
theorem get?_foldl_confirmMapping {l : List ColumnMappingCandidate} {d : Dict String String}
    {used : List String}
    (hsource : ((l.filter (!·.conflict)).map (·.sourceColumn)).Nodup)
    (htarget : ((l.filter (!·.conflict)).map (·.targetColumn)).Nodup)
    (hfree : ∀ c ∈ l, c.conflict = false →
      d.contains c.sourceColumn = false ∧ c.targetColumn ∉ used) {a b : String} :
  (l.foldl confirmMapping (d, used)).1.get? a = some b ↔
    d.get? a = some b
      ∨ ∃ c ∈ l, c.conflict = false ∧ c.sourceColumn = a ∧ c.targetColumn = b
  := by
  induction l generalizing d used with
  | nil => simp
  | cons c l ih =>
      rw [List.foldl_cons, confirmMapping]
      rw [List.forall_mem_cons] at hfree
      cases hconflict : c.conflict with
      | true =>
          rw [List.filter_cons_of_neg (by simp [hconflict])] at hsource htarget
          rw [if_pos rfl, ih hsource htarget hfree.2]
          simp [hconflict]
      | false =>
          rw [List.filter_cons_of_pos (by simp [hconflict]), List.map_cons,
            List.nodup_cons] at hsource htarget
          obtain ⟨hnew, hunused⟩ := hfree.1 hconflict
          have hmem : ∀ c' ∈ l, c'.conflict = false → c' ∈ l.filter (!·.conflict) := by
            intro c' hc' hfalse
            exact List.mem_filter.mpr ⟨hc', by simp [hfalse]⟩
          rw [if_neg Bool.false_ne_true, if_neg (by simp [hnew, hunused]),
            ih hsource.2 htarget.2]
          · rw [Dict.get?_set]
            constructor
            · rintro (h | ⟨c', hc', hrest⟩)
              · split at h
                case isTrue hkey =>
                  exact .inr ⟨c, List.mem_cons_self, hconflict, eq_of_beq hkey,
                    Option.some.inj h⟩
                case isFalse => exact .inl h
              · exact .inr ⟨c', List.mem_cons_of_mem c hc', hrest⟩
            · rintro (h | ⟨c', hc', hfalse, rfl, rfl⟩)
              · left
                rw [if_neg, h]
                intro hkey
                rw [eq_of_beq hkey, Dict.contains, h] at hnew
                cases hnew
              · obtain rfl | hc' := List.mem_cons.mp hc'
                · left
                  rw [if_pos (beq_self_eq_true _)]
                · exact .inr ⟨c', hc', hfalse, rfl, rfl⟩
          · intro c' hc' hfalse
            obtain ⟨hother, hfresh⟩ := hfree.2 c' hc' hfalse
            constructor
            · rw [Dict.contains, Dict.get?_set, if_neg]
              · exact hother
              · intro hkey
                apply hsource.1
                rw [eq_of_beq hkey]
                exact List.mem_map_of_mem (hmem c' hc' hfalse)
            · rw [List.mem_cons, not_or]
              refine ⟨?_, hfresh⟩
              intro htwice
              apply htarget.1
              rw [← htwice]
              exact List.mem_map_of_mem (hmem c' hc' hfalse)

/-- A dictionary whose items are sorted has the same values. -/
theorem get?_ofList_insertionSort {d : Dict String String} {a b : String} :
  (Dict.ofList (d.items.insertionSort fun p q => toLex p ≤ toLex q)).get? a = some b ↔
    d.get? a = some b
  := by
  rw [Dict.get?_eq_some_iff, Dict.get?_eq_some_iff, Dict.ofList, Dict.items_foldl_set]
  · exact (List.perm_insertionSort _ _).mem_iff
  · apply ((List.perm_insertionSort _ _).pairwise_iff _).mpr d.distinct
    intro p q h
    rw [← h]
    exact BEq.comm

theorem conflict_markConflict {candidates : List ColumnMappingCandidate}
    {candidate : ColumnMappingCandidate} :
  (markConflict candidates candidate).conflict = false ↔
    candidates.countP (fun other => other.sourceColumn = candidate.sourceColumn) ≤ 1
      ∧ candidates.countP (fun other => other.targetColumn = candidate.targetColumn) ≤ 1
  := by
  rw [markConflict, ← Nat.not_lt, ← Nat.not_lt]
  dsimp only
  split
  case isTrue h => simp [h.1]
  case isFalse h =>
    split
    case isTrue hsource => simp [hsource]
    case isFalse hsource =>
      split
      case isTrue htarget => simp [htarget]
      case isFalse htarget => simp [hsource, htarget]

/-- The candidates without a conflict are those whose columns belong together unambiguously. -/
theorem conflict_eq_false_iff {candidates : List ColumnMappingCandidate}
    {candidate : ColumnMappingCandidate} (hmem : candidate ∈ candidates) :
  (markConflict candidates candidate).conflict = false ↔
    Paired (candidates.map fun c => (c.sourceColumn, c.targetColumn)) candidate.sourceColumn
      candidate.targetColumn
  := by
  have hsource : 0 < candidates.countP fun other =>
      other.sourceColumn = candidate.sourceColumn :=
    List.countP_pos_iff.mpr ⟨candidate, hmem, decide_eq_true rfl⟩
  have htarget : 0 < candidates.countP fun other =>
      other.targetColumn = candidate.targetColumn :=
    List.countP_pos_iff.mpr ⟨candidate, hmem, decide_eq_true rfl⟩
  rw [conflict_markConflict]
  constructor
  · rintro ⟨hs, ht⟩
    refine ⟨List.mem_map.mpr ⟨candidate, hmem, rfl⟩, ?_, ?_⟩
    · rw [List.countP_map]
      exact Nat.le_antisymm hs hsource
    · rw [List.countP_map]
      exact Nat.le_antisymm ht htarget
  · intro h
    have hs := h.source
    have ht := h.target
    rw [List.countP_map] at hs ht
    exact ⟨hs.le, ht.le⟩

/-- What is confirmed is what belongs together without ambiguity. -/
theorem get?_selectConfirmedMappings {sourceColumns targetColumns : List TableColumn}
    {a b : String} :
  (selectConfirmedMappings lower (inferColumnMappings lower sourceColumns targetColumns)).get? a
      = some b
    ↔ Paired (candidatePairs lower sourceColumns targetColumns) a b
  := by
  rw [selectConfirmedMappings, get?_ofList_insertionSort, candidatePairs]
  generalize hcandidates : mappingCandidates lower sourceColumns targetColumns = candidates
  rw [inferColumnMappings, hcandidates, markMappingConflicts]
  have hcount : ∀ x ∈ candidates.map (markConflict candidates), (!x.conflict) = true →
      (candidates.map (markConflict candidates)).countP
          (fun y => y.sourceColumn = x.sourceColumn) = 1
        ∧ (candidates.map (markConflict candidates)).countP
          (fun y => y.targetColumn = x.targetColumn) = 1 := by
    intro x hx hfalse
    obtain ⟨c, hc, rfl⟩ := List.mem_map.mp hx
    have hpaired := (conflict_eq_false_iff hc).mp (by simpa using hfalse)
    have hs := hpaired.source
    have ht := hpaired.target
    rw [List.countP_map] at hs ht
    rw [List.countP_map, List.countP_map]
    exact ⟨hs, ht⟩
  -- however the candidates are sorted, all those without a conflict are taken
  suffices hany : ∀ sorted : List ColumnMappingCandidate,
      sorted.Perm (candidates.map (markConflict candidates)) →
        ((sorted.foldl confirmMapping (Dict.empty, [])).1.get? a = some b ↔
          Paired (candidates.map fun c => (c.sourceColumn, c.targetColumn)) a b) from
    hany _ ((List.perm_insertionSort _ _).trans (List.perm_insertionSort _ _))
  intro sorted hperm
  have hnodup : ∀ f : ColumnMappingCandidate → String,
      (∀ x ∈ candidates.map (markConflict candidates), (!x.conflict) = true →
        (candidates.map (markConflict candidates)).countP (fun y => f y = f x) = 1) →
        ((sorted.filter (!·.conflict)).map f).Nodup := by
    intro f hf
    exact ((hperm.filter _).map f).nodup_iff.mpr (nodup_map_filter hf)
  rw [get?_foldl_confirmMapping (hnodup _ fun x hx h => (hcount x hx h).1)
    (hnodup _ fun x hx h => (hcount x hx h).2) (fun c _ _ => ⟨rfl, List.not_mem_nil⟩)]
  constructor
  · rintro (h | ⟨x, hx, hfalse, rfl, rfl⟩)
    · cases h
    · obtain ⟨c, hc, rfl⟩ := List.mem_map.mp (hperm.mem_iff.mp hx)
      exact (conflict_eq_false_iff hc).mp hfalse
  · intro h
    obtain ⟨c, hc, hcolumns⟩ := List.mem_map.mp h.mem
    obtain ⟨rfl, rfl⟩ := Prod.mk.inj hcolumns
    exact .inr ⟨markConflict candidates c, hperm.mem_iff.mpr (List.mem_map_of_mem hc),
      (conflict_eq_false_iff hc).mpr h, rfl, rfl⟩

/-! ### The order of the columns, and the sides -/

theorem candidatePairs_perm {sourceColumns sourceColumns' targetColumns targetColumns' :
    List TableColumn} (hsource : sourceColumns.Perm sourceColumns')
    (htarget : targetColumns.Perm targetColumns') :
  (candidatePairs lower sourceColumns targetColumns).Perm
    (candidatePairs lower sourceColumns' targetColumns')
  := by
  apply List.Perm.map
  exact hsource.flatMap fun source _ => htarget.filterMap _

theorem columnTypesCompatible_comm (type type' : ColumnType) :
  columnTypesCompatible type type' = columnTypesCompatible type' type
  := by
  cases type <;> cases type' <;> rfl

theorem tokenSubsetMatch_comm (tokens tokens' : List Text) :
  tokenSubsetMatch tokens tokens' = tokenSubsetMatch tokens' tokens
  := by
  rw [tokenSubsetMatch, tokenSubsetMatch]
  dsimp only
  rw [Finset.inter_comm, min_comm]
  simp only [or_comm (a := tokens = []), eq_comm (a := tokens.toFinset)]

theorem mappingReason_comm (source target : TableColumn) :
  mappingReason lower source target = mappingReason lower target source
  := by
  rw [mappingReason, mappingReason, tokenSubsetMatch_comm]
  have hnormalized : (normalizedIdentifier lower source.name ≠ []
      ∧ normalizedIdentifier lower source.name = normalizedIdentifier lower target.name)
      ↔ (normalizedIdentifier lower target.name ≠ []
        ∧ normalizedIdentifier lower target.name = normalizedIdentifier lower source.name) := by
    constructor
    · rintro ⟨hne, h⟩
      exact ⟨h ▸ hne, h.symm⟩
    · rintro ⟨hne, h⟩
      exact ⟨h ▸ hne, h.symm⟩
  simp only [hnormalized, eq_comm (a := source.name), eq_comm (a := lower source.name.toList)]

theorem mappingCandidate_comm (source target : TableColumn) :
  (mappingCandidate lower source target).map (fun c => (c.sourceColumn, c.targetColumn))
    = (mappingCandidate lower target source).map (fun c => (c.targetColumn, c.sourceColumn))
  := by
  rw [mappingCandidate, mappingCandidate, columnTypesCompatible_comm, mappingReason_comm]
  split
  case isTrue => cases mappingReason lower target source <;> rfl
  case isFalse => rfl

/-- What is found for two lists is found when the other list is gone through first. -/
theorem flatMap_filterMap_comm {α β γ : Type} (f : α → β → Option γ) (l : List α) (l' : List β) :
  (l.flatMap fun a => l'.filterMap (f a)).Perm (l'.flatMap fun b => l.filterMap fun a => f a b)
  := by
  induction l with
  | nil =>
      rw [List.flatMap_nil]
      simp
  | cons a l ih =>
      rw [List.flatMap_cons, List.filterMap_eq_flatMap_toList]
      have hsplit : (fun b => (a :: l).filterMap fun x => f x b)
          = fun b => (f a b).toList ++ l.filterMap fun x => f x b := by
        funext b
        rw [List.filterMap_cons]
        cases f a b <;> rfl
      rw [hsplit]
      exact (ih.append_left _).trans (List.flatMap_append_perm _ _ _)

theorem candidatePairs_swap (sourceColumns targetColumns : List TableColumn) :
  (candidatePairs lower targetColumns sourceColumns).Perm
    ((candidatePairs lower sourceColumns targetColumns).map Prod.swap)
  := by
  rw [candidatePairs, candidatePairs, mappingCandidates, mappingCandidates, List.map_flatMap,
    List.map_map, List.map_flatMap]
  have hpairs : ∀ target, ((sourceColumns.filterMap (mappingCandidate lower target)).map
      fun c => (c.sourceColumn, c.targetColumn))
      = sourceColumns.filterMap fun source =>
        (mappingCandidate lower source target).map fun c => (c.targetColumn, c.sourceColumn) := by
    intro target
    rw [List.map_filterMap]
    congr 1
    funext source
    exact mappingCandidate_comm target source
  simp only [hpairs, List.map_filterMap]
  exact (flatMap_filterMap_comm _ _ _).symm

theorem Paired.swap {pairs : List (String × String)} {a b : String} :
  Paired (pairs.map Prod.swap) b a ↔ Paired pairs a b
  := by
  constructor
  · intro h
    have hsource := h.source
    have htarget := h.target
    rw [List.countP_map] at hsource htarget
    obtain ⟨p, hp, hswap⟩ := List.mem_map.mp h.mem
    obtain ⟨rfl, rfl⟩ := Prod.mk.inj hswap
    exact ⟨hp, htarget, hsource⟩
  · intro h
    refine ⟨List.mem_map.mpr ⟨(a, b), h.mem, rfl⟩, ?_, ?_⟩
    · rw [List.countP_map]
      exact h.target
    · rw [List.countP_map]
      exact h.source

/-- Dictionaries with the same values have the same sorted items. -/
theorem ofList_insertionSort_congr {d e : Dict String String}
    (h : ∀ a b, d.get? a = some b ↔ e.get? a = some b) :
  Dict.ofList (d.items.insertionSort fun p q => toLex p ≤ toLex q)
    = Dict.ofList (e.items.insertionSort fun p q => toLex p ≤ toLex q)
  := by
  have hnodup : ∀ f : Dict String String, f.items.Nodup := fun f => f.keys_nodup.of_map _
  have hitems : d.items.Perm e.items := by
    rw [List.perm_ext_iff_of_nodup (hnodup d) (hnodup e)]
    rintro ⟨a, b⟩
    rw [← Dict.get?_eq_some_iff, ← Dict.get?_eq_some_iff, h]
  congr 1
  apply List.Perm.eq_of_pairwise (fun p q _ _ hpq hqp => toLex.injective (le_antisymm hpq hqp))
    (List.pairwise_insertionSort _ _) (List.pairwise_insertionSort _ _)
  exact (List.perm_insertionSort _ _).trans (hitems.trans (List.perm_insertionSort _ _).symm)

/-- What is confirmed is what belongs together without ambiguity: the columns may belong together,
and neither of them may belong to another one.  So no two columns share a target. -/
theorem confirmed_mappings_unambiguous (lower : Text → Text)
    (sourceColumns targetColumns : List TableColumn) :
  let selected := selectConfirmedMappings lower
    (inferColumnMappings lower sourceColumns targetColumns)
  (∀ a b, selected.get? a = some b ↔ Paired (candidatePairs lower sourceColumns targetColumns) a b)
    ∧ ∀ a a' b, selected.get? a = some b → selected.get? a' = some b → a = a'
  := by
  refine ⟨fun a b => get?_selectConfirmedMappings, ?_⟩
  intro a a' b h h'
  have hpaired := get?_selectConfirmedMappings.mp h
  have hpaired' := get?_selectConfirmedMappings.mp h'
  have hone : ((candidatePairs lower sourceColumns targetColumns).filter
      fun p => p.2 = b).length = 1 := by
    rw [← List.countP_eq_length_filter]
    exact hpaired.target
  obtain ⟨p, hp⟩ := List.length_eq_one_iff.mp hone
  have hmem : ∀ c, (c, b) ∈ candidatePairs lower sourceColumns targetColumns → (c, b) = p := by
    intro c hc
    have hfilter : (c, b) ∈ (candidatePairs lower sourceColumns targetColumns).filter
        fun p => p.2 = b := List.mem_filter.mpr ⟨hc, decide_eq_true rfl⟩
    rw [hp] at hfilter
    exact List.mem_singleton.mp hfilter
  exact (Prod.mk.inj ((hmem a hpaired.mem).trans (hmem a' hpaired'.mem).symm)).1

/-- What is confirmed does not depend on the order in which the columns are listed, and when the
sides are exchanged the same columns are paired. -/
theorem confirmed_mappings_independent (lower : Text → Text)
    {sourceColumns sourceColumns' targetColumns targetColumns' : List TableColumn}
    (hsource : sourceColumns.Perm sourceColumns') (htarget : targetColumns.Perm targetColumns') :
  let selected := selectConfirmedMappings lower
    (inferColumnMappings lower sourceColumns targetColumns)
  selectConfirmedMappings lower (inferColumnMappings lower sourceColumns' targetColumns') = selected
    ∧ ∀ a b, (selectConfirmedMappings lower
        (inferColumnMappings lower targetColumns sourceColumns)).get? b = some a
      ↔ selected.get? a = some b
  := by
  have hsame : ∀ a b, (selectConfirmedMappings lower
      (inferColumnMappings lower sourceColumns' targetColumns')).get? a = some b
      ↔ (selectConfirmedMappings lower
        (inferColumnMappings lower sourceColumns targetColumns)).get? a = some b := by
    intro a b
    rw [get?_selectConfirmedMappings, get?_selectConfirmedMappings,
      Paired.congr (candidatePairs_perm hsource htarget)]
  constructor
  · apply ofList_insertionSort_congr
    intro a b
    exact get?_ofList_insertionSort.symm.trans ((hsame a b).trans get?_ofList_insertionSort)
  · intro a b
    rw [get?_selectConfirmedMappings, get?_selectConfirmedMappings,
      Paired.congr (candidatePairs_swap _ _), Paired.swap]

theorem confirmed_mappings_independent_swapped :
  selectConfirmedMappings (List.map Char.toLower)
      (inferColumnMappings (List.map Char.toLower)
        [⟨"Amount", .decimal, false⟩, ⟨"id", .integer, true⟩]
        [⟨"ID", .integer, true⟩, ⟨"amt", .float, false⟩])
    = selectConfirmedMappings (List.map Char.toLower)
      (inferColumnMappings (List.map Char.toLower)
        [⟨"id", .integer, true⟩, ⟨"Amount", .decimal, false⟩]
        [⟨"ID", .integer, true⟩, ⟨"amt", .float, false⟩])
  := (confirmed_mappings_independent _ (.swap _ _ _) (.refl _)).1

end Confirmed

/-! ### The inferred key -/

section InferredKey

/-- The columns of a key belong together with the columns of a key of the other table. -/
def MatchesKey (selected : Dict String String) (sourceKey targetKey : List String) : Prop :=
  ∃ images, sourceKey.mapM selected.get? = some images ∧ images.toFinset = targetKey.toFinset

variable {mappings : List ColumnMappingCandidate} {selected : Dict String String}
  {targetConstraints : List (List String × PrimaryKeyReason)}

/-- A candidate for a key comes from keys of both tables that match. -/
structure FromKeys (selected : Dict String String)
    (sourceConstraints targetConstraints : List (List String × PrimaryKeyReason))
    (candidate : PrimaryKeyCandidate) (source target : List String × PrimaryKeyReason) :
    Prop where
  mem_source : source ∈ sourceConstraints
  mem_target : target ∈ targetConstraints
  columns : candidate.sourceColumns = source.1
  reason : candidate.reason = keyReason source.2 target.2
  matchesKey : MatchesKey selected source.1 target.1

theorem fromKeys_of_primaryKeyCandidate {seen : List PrimaryKeyCandidate}
    {source : List String × PrimaryKeyReason} {candidate : PrimaryKeyCandidate}
    (h : primaryKeyCandidate mappings selected targetConstraints seen source = some candidate) :
  ∃ target, FromKeys selected [source] targetConstraints candidate source target
  := by
  rw [primaryKeyCandidate] at h
  split at h
  case h_1 => cases h
  case h_2 images himages =>
    obtain ⟨target, hhead, rfl⟩ := Option.map_eq_some_iff.mp h
    obtain ⟨hmem, hfits⟩ := List.mem_filter.mp (List.mem_of_mem_head? hhead)
    exact ⟨target, List.mem_singleton.mpr rfl, hmem, rfl, rfl,
      ⟨images, himages, (of_decide_eq_true hfits).1⟩⟩

/-- A key that matches one of the other table has a candidate of its own, or one has been seen. -/
theorem exists_primaryKeyCandidate (mappings : List ColumnMappingCandidate)
    (seen : List PrimaryKeyCandidate)
    {source target : List String × PrimaryKeyReason} (htarget : target ∈ targetConstraints)
    (hmatches : MatchesKey selected source.1 target.1) :
  ∃ candidate, (candidate ∈ seen
      ∨ primaryKeyCandidate mappings selected targetConstraints seen source = some candidate)
    ∧ (source.2 = .primaryKey → candidate.reason = .primaryKey)
  := by
  obtain ⟨images, himages, hset⟩ := hmatches
  have hreason : ∀ other, source.2 = .primaryKey → keyReason source.2 other = .primaryKey := by
    intro other hprimary
    rw [keyReason, if_pos (.inl hprimary)]
  by_cases hseen : ∃ candidate ∈ seen, candidate.reason = keyReason source.2 target.2
      ∧ candidate.sourceColumns = source.1 ∧ candidate.targetColumns = images
  · obtain ⟨candidate, hmem, hsame, -⟩ := hseen
    exact ⟨candidate, .inl hmem, fun hprimary => hsame.trans (hreason _ hprimary)⟩
  · have hfits : target ∈ targetConstraints.filter fun target =>
        images.toFinset = target.1.toFinset ∧ ¬ seen.any fun candidate =>
          candidate.sourceColumns = source.1 ∧ candidate.targetColumns = images
            ∧ candidate.reason = keyReason source.2 target.2 := by
      apply List.mem_filter.mpr
      refine ⟨htarget, decide_eq_true ⟨hset, ?_⟩⟩
      intro hany
      obtain ⟨candidate, hmem, hsame⟩ := List.any_eq_true.mp hany
      obtain ⟨hsource, htargets, hsame⟩ := of_decide_eq_true hsame
      exact hseen ⟨candidate, hmem, hsame, hsource, htargets⟩
    obtain ⟨first, rest, hfirst⟩ := List.exists_cons_of_ne_nil (List.ne_nil_of_mem hfits)
    have hcandidate : ∃ candidate,
        primaryKeyCandidate mappings selected targetConstraints seen source = some candidate
          ∧ candidate.reason = keyReason source.2 first.2 := by
      rw [primaryKeyCandidate, himages]
      dsimp only
      rw [hfirst, List.head?_cons, Option.map_some]
      exact ⟨_, rfl, rfl⟩
    obtain ⟨candidate, hsome, hsame⟩ := hcandidate
    exact ⟨candidate, .inr hsome, fun hprimary => hsame.trans (hreason _ hprimary)⟩

/-- The candidates for a key, as they are collected. -/
theorem foldl_primaryKeyCandidate {sourceConstraints : List (List String × PrimaryKeyReason)}
    {seen : List PrimaryKeyCandidate} :
  let candidates := sourceConstraints.foldl (fun seen source =>
    seen ++ (primaryKeyCandidate mappings selected targetConstraints seen source).toList) seen
  seen ⊆ candidates
    ∧ (∀ candidate ∈ candidates, candidate ∈ seen
      ∨ ∃ source target, FromKeys selected sourceConstraints targetConstraints candidate source
          target)
    ∧ ∀ source ∈ sourceConstraints, ∀ target ∈ targetConstraints,
      MatchesKey selected source.1 target.1 → ∃ candidate ∈ candidates,
        source.2 = .primaryKey → candidate.reason = .primaryKey
  := by
  induction sourceConstraints generalizing seen with
  | nil => exact ⟨fun _ h => h, fun _ h => .inl h, fun _ h => (List.not_mem_nil h).elim⟩
  | cons source rest ih =>
      rw [List.foldl_cons]
      have hrest := @ih (seen
        ++ (primaryKeyCandidate mappings selected targetConstraints seen source).toList)
      obtain ⟨hsubset, hfrom, hmatch⟩ := hrest
      refine ⟨fun c hc => hsubset (List.mem_append_left _ hc), ?_, ?_⟩
      · intro candidate hcandidate
        obtain hmem | ⟨source', target, h⟩ := hfrom candidate hcandidate
        · obtain hmem | hmem := List.mem_append.mp hmem
          · exact .inl hmem
          · obtain ⟨target, h⟩ :=
              fromKeys_of_primaryKeyCandidate (Option.mem_toList.mp hmem)
            exact .inr ⟨source, target, { h with mem_source := List.mem_cons_self }⟩
        · exact .inr ⟨source', target, { h with mem_source := List.mem_cons_of_mem _ h.mem_source }⟩
      · intro source' hsource' target htarget hmatches
        obtain rfl | hsource' := List.mem_cons.mp hsource'
        · obtain ⟨candidate, hmem, hprimary⟩ :=
            exists_primaryKeyCandidate mappings seen htarget hmatches
          refine ⟨candidate, hsubset ?_, hprimary⟩
          obtain hmem | hsome := hmem
          · exact List.mem_append_left _ hmem
          · exact List.mem_append_right _ (Option.mem_toList.mpr hsome)
        · exact hmatch source' hsource' target htarget hmatches

/-- The candidates for a key are the keys of the source that match one of the target. -/
theorem inferPrimaryKeyCandidates_spec {lower : Text → Text}
    {sourceColumns targetColumns : List TableColumn} {sourceIndexes targetIndexes : List TableIndex}
    {mappings : List ColumnMappingCandidate} :
  let candidates := inferPrimaryKeyCandidates lower sourceColumns targetColumns sourceIndexes
    targetIndexes mappings
  let selected := selectConfirmedMappings lower mappings
  let sourceConstraints := keyConstraints sourceColumns sourceIndexes
  let targetConstraints := keyConstraints targetColumns targetIndexes
  (∀ candidate ∈ candidates, ∃ source target,
      FromKeys selected sourceConstraints targetConstraints candidate source target)
    ∧ ∀ source ∈ sourceConstraints, ∀ target ∈ targetConstraints,
      MatchesKey selected source.1 target.1 → ∃ candidate ∈ candidates,
        source.2 = .primaryKey → candidate.reason = .primaryKey
  := by
  intro candidates selected sourceConstraints targetConstraints
  have hmem : ∀ candidate, candidate ∈ candidates ↔ candidate ∈ sourceConstraints.foldl
      (fun seen source => seen ++ (primaryKeyCandidate mappings selected targetConstraints
        seen source).toList) [] := fun candidate => (List.perm_insertionSort _ _).mem_iff
  obtain ⟨-, hfrom, hmatch⟩ :=
    @foldl_primaryKeyCandidate mappings selected targetConstraints sourceConstraints []
  constructor
  · intro candidate hcandidate
    exact (hfrom candidate ((hmem candidate).mp hcandidate)).resolve_left List.not_mem_nil
  · intro source hsource target htarget hmatches
    obtain ⟨candidate, hcandidate, hreason⟩ := hmatch source hsource target htarget hmatches
    exact ⟨candidate, (hmem candidate).mpr hcandidate, hreason⟩

/-- Candidates that are primary keys come first. -/
theorem reason_head?_inferPrimaryKeyCandidates {lower : Text → Text}
    {sourceColumns targetColumns : List TableColumn} {sourceIndexes targetIndexes : List TableIndex}
    {mappings : List ColumnMappingCandidate} {first candidate : PrimaryKeyCandidate}
    (hfirst : (inferPrimaryKeyCandidates lower sourceColumns targetColumns sourceIndexes
      targetIndexes mappings).head? = some first)
    (hmem : candidate ∈ inferPrimaryKeyCandidates lower sourceColumns targetColumns sourceIndexes
      targetIndexes mappings) (hprimary : candidate.reason = .primaryKey) :
  first.reason = .primaryKey
  := by
  rw [inferPrimaryKeyCandidates] at hfirst hmem
  obtain ⟨rest, hsorted⟩ := List.head?_eq_some_iff.mp hfirst
  have hpairwise := List.pairwise_insertionSort (fun c c' : PrimaryKeyCandidate =>
    toLex ((if c.reason = .primaryKey then 0 else 1 : ℕ),
      toLex (-(c.confidence : ℤ), c.sourceColumns))
      ≤ toLex ((if c'.reason = .primaryKey then 0 else 1 : ℕ),
          toLex (-(c'.confidence : ℤ), c'.sourceColumns)))
    ((keyConstraints sourceColumns sourceIndexes).foldl (fun seen source =>
        seen ++ (primaryKeyCandidate mappings (selectConfirmedMappings lower mappings)
          (keyConstraints targetColumns targetIndexes) seen source).toList) [])
  rw [hsorted] at hpairwise hmem
  obtain rfl | hrest := List.mem_cons.mp hmem
  · exact hprimary
  · have hle := (List.pairwise_cons.mp hpairwise).1 candidate hrest
    rw [Prod.Lex.toLex_le_toLex, hprimary, if_pos rfl] at hle
    by_contra hother
    rw [if_neg hother] at hle
    obtain hlt | ⟨heq, -⟩ := hle
    · exact absurd hlt (Nat.not_lt_zero 1)
    · exact absurd heq Nat.one_ne_zero

/-- A confirmed column is a column of the source. -/
theorem exists_column_of_contains {lower : Text → Text}
    {sourceColumns targetColumns : List TableColumn} {name : String}
    (h : (selectConfirmedMappings lower
      (inferColumnMappings lower sourceColumns targetColumns)).contains name = true) :
  ∃ column ∈ sourceColumns, column.name = name
  := by
  obtain ⟨target, htarget⟩ := Option.isSome_iff_exists.mp h
  obtain ⟨c, hc, hcolumns⟩ := List.mem_map.mp (get?_selectConfirmedMappings.mp htarget).mem
  obtain ⟨column, hcolumn, hc⟩ := List.mem_flatMap.mp hc
  obtain ⟨other, -, hc⟩ := List.mem_filterMap.mp hc
  rw [mappingCandidate] at hc
  split at hc
  case isFalse => cases hc
  case isTrue =>
    obtain ⟨reason, -, rfl⟩ := Option.map_eq_some_iff.mp hc
    exact ⟨column, hcolumn, (Prod.mk.inj hcolumns).1⟩

theorem contains_of_matchesKey {sourceKey targetKey : List String}
    (h : MatchesKey selected sourceKey targetKey) :
  ∀ name ∈ sourceKey, selected.contains name = true
  := by
  obtain ⟨images, himages, -⟩ := h
  clear targetKey
  induction sourceKey generalizing images with
  | nil => exact fun name hname => (List.not_mem_nil hname).elim
  | cons column rest ih =>
      rw [List.mapM_cons] at himages
      obtain ⟨image, himage, himages⟩ := Option.bind_eq_some_iff.mp himages
      obtain ⟨others, hothers, -⟩ := Option.bind_eq_some_iff.mp himages
      rw [List.forall_mem_cons]
      refine ⟨?_, ih others hothers⟩
      rw [Dict.contains, himage]
      rfl

/-- The user is asked for the key if there is no candidate. -/
theorem needsManualPk_inferCompareDraft_iff {lower : Text → Text}
    {sourceColumns targetColumns : List TableColumn}
    {sourceIndexes targetIndexes : List TableIndex} :
  let draft := inferCompareDraft lower sourceColumns targetColumns sourceIndexes targetIndexes
  draft.needsManualPk = true ↔ ∀ source ∈ keyConstraints sourceColumns sourceIndexes,
    ∀ target ∈ keyConstraints targetColumns targetIndexes,
      ¬ MatchesKey draft.compareRules.columnMappings source.1 target.1
  := by
  intro draft
  obtain ⟨hfrom, hmatch⟩ := @inferPrimaryKeyCandidates_spec lower sourceColumns targetColumns
    sourceIndexes targetIndexes draft.mappings
  show draft.pkCandidates.isEmpty = true ↔ _
  rw [List.isEmpty_iff]
  constructor
  · intro hempty source hsource target htarget hmatches
    obtain ⟨candidate, hcandidate, -⟩ := hmatch source hsource target htarget hmatches
    have hmem : candidate ∈ draft.pkCandidates := hcandidate
    rw [hempty] at hmem
    exact List.not_mem_nil hmem
  · intro hnone
    rw [List.eq_nil_iff_forall_not_mem]
    intro candidate hcandidate
    obtain ⟨source, target, h⟩ := hfrom candidate hcandidate
    exact hnone source h.mem_source target h.mem_target h.matchesKey

/-- If the user is not asked, the key is that of the first candidate. -/
theorem exists_key_of_needsManualPk_eq_false {lower : Text → Text}
    {sourceColumns targetColumns : List TableColumn}
    {sourceIndexes targetIndexes : List TableIndex} :
  let draft := inferCompareDraft lower sourceColumns targetColumns sourceIndexes targetIndexes
  let selected := draft.compareRules.columnMappings
  let sourceConstraints := keyConstraints sourceColumns sourceIndexes
  let targetConstraints := keyConstraints targetColumns targetIndexes
  draft.needsManualPk = false → ∃ source ∈ sourceConstraints, ∃ target ∈ targetConstraints,
    draft.compareRules.keyColumns = source.1 ∧ MatchesKey selected source.1 target.1
      ∧ ((∃ source' ∈ sourceConstraints, source'.2 = .primaryKey
        ∧ ∃ target' ∈ targetConstraints, MatchesKey selected source'.1 target'.1) →
          keyReason source.2 target.2 = .primaryKey)
  := by
  intro draft selected sourceConstraints targetConstraints hsome
  obtain ⟨hfrom, hmatch⟩ := @inferPrimaryKeyCandidates_spec lower sourceColumns targetColumns
    sourceIndexes targetIndexes draft.mappings
  have hne : draft.pkCandidates ≠ [] := List.isEmpty_eq_false_iff.mp hsome
  obtain ⟨first, rest, hfirst⟩ := List.exists_cons_of_ne_nil hne
  have hhead : draft.pkCandidates.head? = some first := by rw [hfirst, List.head?_cons]
  obtain ⟨source, target, h⟩ := hfrom first (List.mem_of_mem_head? hhead)
  refine ⟨source, h.mem_source, target, h.mem_target, ?_, h.matchesKey, ?_⟩
  · rw [← h.columns]
    exact congrArg (fun head => (head.map PrimaryKeyCandidate.sourceColumns).getD []) hhead
  · rintro ⟨source', hsource', hprimary, target', htarget', hmatches⟩
    obtain ⟨candidate, hcandidate, hreason⟩ :=
      hmatch source' hsource' target' htarget' hmatches
    rw [← h.reason]
    exact reason_head?_inferPrimaryKeyCandidates hhead hcandidate (hreason hprimary)

/-- The columns of the key are confirmed. -/
theorem contains_of_mem_keyColumns {lower : Text → Text}
    {sourceColumns targetColumns : List TableColumn}
    {sourceIndexes targetIndexes : List TableIndex} {name : String} :
  let draft := inferCompareDraft lower sourceColumns targetColumns sourceIndexes targetIndexes
  name ∈ draft.compareRules.keyColumns →
    draft.compareRules.columnMappings.contains name = true
  := by
  intro draft hname
  cases hempty : draft.needsManualPk with
  | true =>
      have hkeyColumns : draft.compareRules.keyColumns
          = (draft.pkCandidates.head?.map PrimaryKeyCandidate.sourceColumns).getD [] := rfl
      have hnil : draft.pkCandidates = [] := List.isEmpty_iff.mp hempty
      rw [hkeyColumns, hnil] at hname
      exact (List.not_mem_nil hname).elim
  | false =>
      obtain ⟨source, -, target, -, hcolumns, hmatches, -⟩ :=
        exists_key_of_needsManualPk_eq_false hempty
      exact contains_of_matchesKey hmatches name (hcolumns ▸ hname)

end InferredKey

end Compare

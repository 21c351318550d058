import DataOpsStudio.Compare.Normalize
import DataOpsStudio.Export.Cells
import DataOpsStudio.Library.Dict

/-!
# Rows as JSON objects

In JSON a row is an object with an entry for each column.  A name that occurs again is numbered, by
how often it has occurred.  The numbered names are not compared with the names of the other columns.
-/

namespace Export

open Text

/-! ### Names of columns -/

/-- The name of a column, or one for a column without a name. -/
def baseName (name : Text) : Text := if name.isEmpty then "column".toList else name

/-- A name as it is when it has occurred some number of times. -/
def numberedName (base : Text) (count : ℕ) : Text :=
  if count = 1 then base else base ++ '_' :: natText count

/-- The names of the columns that are left, when others have been counted. -/
def uniqueNamesFrom (counts : Dict Text ℕ) : List Text → List Text
  | [] => []
  | name :: rest =>
      let base := baseName name
      let count := (counts.get? base).getD 0 + 1
      numberedName base count :: uniqueNamesFrom (counts.set base count) rest

/-- The names of the columns in JSON. -/
def uniqueColumnNames (columns : List Text) : List Text := uniqueNamesFrom Dict.empty columns

/-- The object of a row. -/
def jsonItem (names : List Text) (row : List Cell) : Dict Text Cell :=
  Dict.ofList (names.zip ((paddedValues row names.length).map jsonValue))

/-- The objects of the rows of a result. -/
def writeJson (columns : List Text) (rows : List (List Cell)) : List (Dict Text Cell) :=
  rows.map (jsonItem (uniqueColumnNames columns))

/-! ### The names with their numbers -/

/-- The names of columns, each with the number of its occurrence, when others have been seen. -/
def occurrencesFrom (seen : List Text) : List Text → List (Text × ℕ)
  | [] => []
  | base :: rest => (base, seen.count base + 1) :: occurrencesFrom (seen ++ [base]) rest

theorem mem_occurrencesFrom {seen rest : List Text} {base : Text} {count : ℕ} :
  (base, count) ∈ occurrencesFrom seen rest
    ↔ seen.count base < count ∧ count ≤ seen.count base + rest.count base
  := by
  induction rest generalizing seen with
  | nil =>
      simp only [occurrencesFrom, List.not_mem_nil, List.count_nil, false_iff]
      omega
  | cons other rest ih =>
      rw [occurrencesFrom, List.mem_cons, ih, Prod.mk.injEq, List.count_append]
      by_cases h : base = other
      · subst h
        simp only [List.count_cons_self, List.count_nil, true_and]
        omega
      · simp only [List.count_cons_of_ne (Ne.symm h), List.count_nil, h, false_and, false_or,
          Nat.add_zero]

theorem occurrencesFrom_nodup (seen rest : List Text) :
  (occurrencesFrom seen rest).Nodup
  := by
  induction rest generalizing seen with
  | nil => exact List.nodup_nil
  | cons base rest ih =>
      rw [occurrencesFrom, List.nodup_cons]
      refine ⟨?_, ih _⟩
      intro h
      have hlt := (mem_occurrencesFrom.mp h).1
      rw [List.count_append, List.count_singleton_self] at hlt
      omega

theorem uniqueNamesFrom_eq {counts : Dict Text ℕ} {seen : List Text} (columns : List Text)
    (h : ∀ base, (counts.get? base).getD 0 = seen.count base) :
  uniqueNamesFrom counts columns
    = (occurrencesFrom seen (columns.map baseName)).map (fun p => numberedName p.1 p.2)
  := by
  induction columns generalizing counts seen with
  | nil => rfl
  | cons name columns ih =>
      rw [uniqueNamesFrom, List.map_cons, occurrencesFrom, List.map_cons, h]
      congr 1
      apply ih
      intro base
      rw [Dict.get?_set, List.count_append]
      split
      · rename_i heq
        rw [eq_of_beq heq, List.count_singleton_self, Option.getD_some]
      · rename_i hne
        rw [h, List.count_singleton, if_neg hne, Nat.add_zero]

theorem uniqueColumnNames_eq (columns : List Text) :
  uniqueColumnNames columns
    = (occurrencesFrom [] (columns.map baseName)).map (fun p => numberedName p.1 p.2)
  := by
  apply uniqueNamesFrom_eq
  intro base
  rw [Dict.get?_empty]
  rfl

theorem length_occurrencesFrom (seen rest : List Text) :
  (occurrencesFrom seen rest).length = rest.length
  := by
  induction rest generalizing seen with
  | nil => rfl
  | cons base rest ih => rw [occurrencesFrom, List.length_cons, List.length_cons, ih]

theorem length_uniqueColumnNames (columns : List Text) :
  (uniqueColumnNames columns).length = columns.length
  := by
  rw [uniqueColumnNames_eq, List.length_map, length_occurrencesFrom, List.length_map]

/-! ### Numbered names that differ -/

/-- A numbered name is longer than the name. -/
theorem numberedName_ne (base : Text) {count : ℕ} (h : 2 ≤ count) :
  numberedName base count ≠ base
  := by
  rw [numberedName, if_neg (by omega)]
  intro heq
  have hlength := congrArg List.length heq
  simp only [List.length_append, List.length_cons] at hlength
  omega

/-- The last underscore separates a name from its number. -/
theorem numberedName_inj {base base' : Text} {count count' : ℕ} (h : 2 ≤ count) (h' : 2 ≤ count')
    (heq : numberedName base count = numberedName base' count') :
  base = base' ∧ count = count'
  := by
  have hdigits : ∀ n, ∀ c ∈ (natText n).reverse, c.isDigit = true := by
    intro n c hc
    exact Compare.isDigit_of_mem_natText (List.mem_reverse.mp hc)
  have hsplit : ∀ (b : Text) (n : ℕ), 2 ≤ n →
      (numberedName b n).reverse = (natText n).reverse ++ '_' :: b.reverse := by
    intro b n hn
    rw [numberedName, if_neg (by omega), List.reverse_append, List.reverse_cons]
    simp
  have htake : ∀ (b : Text) (n : ℕ),
      ((natText n).reverse ++ '_' :: b.reverse).takeWhile Char.isDigit = (natText n).reverse := by
    intro b n
    rw [List.takeWhile_append_of_pos (hdigits n), List.takeWhile_cons_of_neg (by decide),
      List.append_nil]
  have hreverse := congrArg List.reverse heq
  rw [hsplit base count h, hsplit base' count' h'] at hreverse
  have hnumber : natText count = natText count' := by
    apply List.reverse_injective
    rw [← htake base, hreverse, htake]
  rw [hnumber] at hreverse
  have hbase := List.reverse_injective (List.tail_eq_of_cons_eq (List.append_cancel_left hreverse))
  refine ⟨hbase, ?_⟩
  rw [← Compare.digitsValue_natText count, hnumber, Compare.digitsValue_natText]

/-- No numbered name is the name of a column. -/
def NumbersFree (columns : List Text) : Prop :=
  ∀ base ∈ columns.map baseName, ∀ count, 2 ≤ count → count ≤ (columns.map baseName).count base →
    numberedName base count ∉ columns.map baseName

theorem nodup_uniqueColumnNames_iff (columns : List Text) :
  (uniqueColumnNames columns).Nodup ↔ NumbersFree columns
  := by
  have hmem : ∀ {base : Text} {count : ℕ},
      (base, count) ∈ occurrencesFrom [] (columns.map baseName)
        ↔ 1 ≤ count ∧ count ≤ (columns.map baseName).count base := by
    intro base count
    rw [mem_occurrencesFrom, List.count_nil, Nat.zero_add]
    exact Iff.rfl
  rw [uniqueColumnNames_eq]
  constructor
  · intro hnodup base hbase count hcount hle hnumbered
    have hfirst : (numberedName base count, 1) ∈ occurrencesFrom [] (columns.map baseName) :=
      hmem.mpr ⟨Nat.le_refl 1, List.one_le_count_iff.mpr hnumbered⟩
    have hlater : (base, count) ∈ occurrencesFrom [] (columns.map baseName) :=
      hmem.mpr ⟨by omega, hle⟩
    have heq := List.inj_on_of_nodup_map hnodup hfirst hlater (by simp [numberedName])
    have hone := (Prod.mk.inj heq).2
    omega
  · intro hfree
    apply List.Nodup.map_on _ (occurrencesFrom_nodup _ _)
    rintro ⟨base, count⟩ hp ⟨base', count'⟩ hp' heq
    obtain ⟨hpos, hle⟩ := hmem.mp hp
    obtain ⟨hpos', hle'⟩ := hmem.mp hp'
    have hbase : base ∈ columns.map baseName := List.one_le_count_iff.mp (hpos.trans hle)
    have hbase' : base' ∈ columns.map baseName := List.one_le_count_iff.mp (hpos'.trans hle')
    simp only at heq
    by_cases hcount : count = 1
    · subst hcount
      by_cases hcount' : count' = 1
      · subst hcount'
        simp only [numberedName, if_true] at heq
        rw [heq]
      · apply absurd hbase
        have hnumbered : numberedName base 1 = base := if_pos rfl
        rw [← hnumbered, heq]
        exact hfree base' hbase' count' (by omega) hle'
    · by_cases hcount' : count' = 1
      · subst hcount'
        apply absurd hbase'
        have hnumbered : numberedName base' 1 = base' := if_pos rfl
        rw [← hnumbered, ← heq]
        exact hfree base hbase count (by omega) hle
      · obtain ⟨rfl, rfl⟩ := numberedName_inj (by omega) (by omega) heq
        rfl

/-! ### Objects with an entry for every column -/

/-- The names of the columns differ, and the objects of the rows have an entry for each of them,
with the cell of the column. -/
structure KeepsColumns (columns : List Text) : Prop where
  length_eq : (uniqueColumnNames columns).length = columns.length
  distinct : (uniqueColumnNames columns).Nodup
  entries : ∀ rows, ∀ item ∈ writeJson columns rows, item.keys = uniqueColumnNames columns
  cells : ∀ rows, (writeJson columns rows).map Dict.values
    = rows.map (fun row => (paddedValues row columns.length).map jsonValue)

/-- Every column is kept in JSON exactly when no numbered name is the name of a column. -/
theorem keepsColumns_iff (columns : List Text) :
  KeepsColumns columns ↔ NumbersFree columns
  := by
  rw [← nodup_uniqueColumnNames_iff]
  constructor
  · exact fun h => h.distinct
  · intro hnodup
    have hlength := length_uniqueColumnNames columns
    have hitems : ∀ row, (jsonItem (uniqueColumnNames columns) row).items
        = (uniqueColumnNames columns).zip ((paddedValues row columns.length).map jsonValue) := by
      intro row
      have hkeys : ((uniqueColumnNames columns).zip
          ((paddedValues row columns.length).map jsonValue)).map Prod.fst
            = uniqueColumnNames columns := by
        apply List.map_fst_zip
        rw [List.length_map, length_paddedValues, hlength]
      rw [jsonItem, hlength, Dict.ofList, Dict.items_foldl_set]
      · rfl
      · rw [← hkeys, List.Nodup, List.pairwise_map] at hnodup
        exact hnodup.imp (fun h => beq_eq_false_iff_ne.mpr h)
    constructor
    · exact hlength
    · exact hnodup
    · intro rows item hitem
      obtain ⟨row, -, rfl⟩ := List.mem_map.mp hitem
      rw [Dict.keys, hitems, List.map_fst_zip]
      rw [List.length_map, length_paddedValues, hlength]
    · intro rows
      rw [writeJson, List.map_map]
      apply List.map_congr_left
      intro row _
      rw [Function.comp_apply, Dict.values, hitems, List.map_snd_zip]
      rw [List.length_map, length_paddedValues, hlength]

/-- The second of two columns of one name gets the name of the third column. -/
theorem not_keepsColumns_collision :
  ¬ KeepsColumns ["a".toList, "a".toList, "a_2".toList]
  := by
  intro h
  have hnodup := h.distinct
  revert hnodup
  decide

end Export

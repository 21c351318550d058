import DataOpsStudio.Library.Dict
import DataOpsStudio.Library.Text
import Mathlib.Data.Set.Card

/-!
# Columns of a file

The header of a file gives the names under which the cells of its rows are known.  A name that has
occurred, whatever its case, is numbered, and the number goes up until the name is free.  Only
finitely many names have been given out, so that this ends, and every cell of a row has a name of
its own.
-/

universe u

namespace Readers

open Text

/-! ### Numbered names -/

/-- What is used of lower case: characters without a case stay as they are at the end of a text,
and the text before them is changed as if it ended there. -/
structure Casing where
  lower : Text → Text
  lower_append : ∀ s t : Text, (∀ c ∈ t, c.toNat < 128 ∧ c.isAlpha = false) →
    lower (s ++ t) = lower s ++ t

/-- A name with a number. -/
def numberedName (raw : Text) (count : ℕ) : Text := raw ++ ("__".toList ++ natText count)

theorem natText_injective {m n : ℕ} (h : natText m = natText n) :
  m = n
  := by
  calc m = Nat.ofDigitChars 10 (natText m) 0 := Nat.ofDigitChars_ten_toDigits.symm
    _ = Nat.ofDigitChars 10 (natText n) 0 := by rw [h]
    _ = n := Nat.ofDigitChars_ten_toDigits

theorem caseless_of_isDigit {c : Char} (h : c.isDigit = true) :
  c.toNat < 128 ∧ c.isAlpha = false
  := by
  simp only [Char.isDigit, Bool.and_eq_true, decide_eq_true_eq] at h
  have hlow : 48 ≤ c.toNat := h.1
  have hhigh : c.toNat ≤ 57 := h.2
  constructor
  · omega
  · rw [← Bool.not_eq_true, isAlpha_iff]
    omega

section Casing

variable (casing : Casing)

theorem lower_numberedName (raw : Text) (count : ℕ) :
  casing.lower (numberedName raw count) = casing.lower raw ++ ("__".toList ++ natText count)
  := by
  apply casing.lower_append
  intro c hc
  rcases List.mem_append.mp hc with hc | hc
  · obtain rfl : c = '_' := by simpa using hc
    decide
  · apply caseless_of_isDigit
    apply Nat.isDigit_of_mem_toDigits (by decide) (by decide) hc

/-- Different numbers give names that differ in more than their case. -/
theorem lower_numberedName_injective (raw : Text) :
  Function.Injective (fun count => casing.lower (numberedName raw count))
  := by
  intro m n h
  simp only [lower_numberedName] at h
  apply natText_injective
  apply List.append_cancel_left (List.append_cancel_left h)

/-! ### The first free name -/

/-- The numbers above `count` whose names are not free. -/
def taken (seen : List Text) (raw : Text) (count : ℕ) : Set ℕ :=
  {n | count < n ∧ casing.lower (numberedName raw n) ∈ seen}

/-- Only finitely many names are not free. -/
theorem finite_taken (seen : List Text) (raw : Text) (count : ℕ) :
  (taken casing seen raw count).Finite
  := by
  apply ((List.finite_toSet seen).preimage
    (lower_numberedName_injective casing raw).injOn).subset
  rintro n ⟨-, hn⟩
  apply hn

/-- A number that is passed leaves fewer that are not free, unless its name is free. -/
theorem ncard_taken_succ (seen : List Text) (raw : Text) (count : ℕ) :
  (taken casing seen raw (count + 1)).ncard
      + (if casing.lower (numberedName raw (count + 1)) ∈ seen then 1 else 0)
    = (taken casing seen raw count).ncard
  := by
  split
  · rename_i hseen
    have hinsert : taken casing seen raw count
        = insert (count + 1) (taken casing seen raw (count + 1)) := by
      ext n
      constructor
      · rintro ⟨hlt, hn⟩
        rcases Nat.eq_or_lt_of_le hlt with heq | hlt
        · left
          apply heq.symm
        · right
          exact ⟨hlt, hn⟩
      · rintro (rfl | ⟨hlt, hn⟩)
        · exact ⟨Nat.lt_succ_self count, hseen⟩
        · exact ⟨Nat.lt_of_succ_lt hlt, hn⟩
    rw [hinsert, Set.ncard_insert_of_notMem (fun h => absurd h.1 (lt_irrefl _))
      (finite_taken casing seen raw (count + 1))]
  · rename_i hfree
    have heq : taken casing seen raw (count + 1) = taken casing seen raw count := by
      ext n
      constructor
      · rintro ⟨hlt, hn⟩
        exact ⟨Nat.lt_of_succ_lt hlt, hn⟩
      · rintro ⟨hlt, hn⟩
        rcases Nat.eq_or_lt_of_le hlt with rfl | hlt
        · apply absurd hn hfree
        · exact ⟨hlt, hn⟩
    rw [heq, add_zero]

/-- The candidate if its name is free, or the first numbered name that is, with its number. -/
def retry (seen : List Text) (raw candidate : Text) (count : ℕ) : Text × ℕ :=
  if casing.lower candidate ∈ seen then
    retry seen raw (numberedName raw (count + 1)) (count + 1)
  else (candidate, count)
termination_by (taken casing seen raw count).ncard
  + if casing.lower candidate ∈ seen then 1 else 0
decreasing_by
  rename_i hseen
  rw [ncard_taken_succ, if_pos hseen]
  apply Nat.lt_succ_self

theorem retry_free (seen : List Text) (raw candidate : Text) (count : ℕ) :
  casing.lower (retry casing seen raw candidate count).1 ∉ seen
  := by
  fun_induction retry casing seen raw candidate count with
  | case1 candidate count hseen ih => apply ih
  | case2 candidate count hfree => apply hfree

/-! ### The names of a header -/

/-- The names given out so far: in their order, in lower case, and how often each has occurred. -/
structure Naming where
  result : List Text := []
  seen : List Text := []
  counts : Dict Text ℕ := Dict.empty

/-- One more name of a header. -/
def uniquifyColumn (naming : Naming) (raw : Text) : Naming :=
  let key := casing.lower raw
  let count := (naming.counts.get? key).getD 0 + 1
  let chosen := retry casing naming.seen raw
    (if count = 1 then raw else numberedName raw count) count
  { result := naming.result ++ [chosen.1]
    seen := casing.lower chosen.1 :: naming.seen
    counts := naming.counts.set key chosen.2 }

/-- The names of a header, no two of which differ in their case only. -/
def uniquifyColumns (names : List Text) : List Text :=
  (names.foldl (uniquifyColumn casing) {}).result

/-- The names given out are those in lower case, and no two are the same. -/
structure Naming.Valid (naming : Naming) : Prop where
  mem_seen : ∀ name ∈ naming.result, casing.lower name ∈ naming.seen
  nodup : (naming.result.map casing.lower).Nodup

theorem valid_uniquifyColumn {naming : Naming} (h : naming.Valid casing) (raw : Text) :
  (uniquifyColumn casing naming raw).Valid casing
  := by
  have hfree := retry_free casing naming.seen raw
    (if (naming.counts.get? (casing.lower raw)).getD 0 + 1 = 1 then raw
      else numberedName raw ((naming.counts.get? (casing.lower raw)).getD 0 + 1))
    ((naming.counts.get? (casing.lower raw)).getD 0 + 1)
  constructor
  · intro name hname
    rcases List.mem_append.mp hname with hname | hname
    · apply List.mem_cons_of_mem _ (h.mem_seen name hname)
    · rw [List.mem_singleton.mp hname]
      apply List.mem_cons_self
  · show ((naming.result ++ [_]).map casing.lower).Nodup
    rw [List.map_append, List.map_singleton, List.nodup_append]
    refine ⟨h.nodup, List.nodup_singleton _, ?_⟩
    intro key hkey other hother
    obtain ⟨name, hname, rfl⟩ := List.mem_map.mp hkey
    rw [List.mem_singleton.mp hother]
    intro heq
    apply hfree
    rw [← heq]
    apply h.mem_seen name hname

/-- The names of a whole header keep those given out before distinct. -/
theorem valid_foldl_uniquifyColumn {naming : Naming} (h : naming.Valid casing)
    (names : List Text) :
  (names.foldl (uniquifyColumn casing) naming).Valid casing
    ∧ (names.foldl (uniquifyColumn casing) naming).result.length
      = naming.result.length + names.length
  := by
  induction names generalizing naming with
  | nil => exact ⟨h, rfl⟩
  | cons raw names ih =>
      obtain ⟨hvalid, hlength⟩ := ih (valid_uniquifyColumn casing h raw)
      refine ⟨hvalid, ?_⟩
      rw [List.foldl_cons, hlength]
      show (naming.result ++ [_]).length + names.length = _
      rw [List.length_append, List.length_singleton, List.length_cons]
      omega

theorem valid_uniquifyColumns (names : List Text) :
  ((uniquifyColumns casing names).map casing.lower).Nodup
    ∧ (uniquifyColumns casing names).length = names.length
  := by
  have hempty : ({} : Naming).Valid casing := ⟨by simp, List.nodup_nil⟩
  obtain ⟨hvalid, hlength⟩ := valid_foldl_uniquifyColumn casing hempty names
  refine ⟨hvalid.nodup, ?_⟩
  rw [uniquifyColumns, hlength]
  apply Nat.zero_add

/-! ### The rows under the names -/

/-- The name of a column as it is read: the text of its cell without white space at either end. -/
def normalizeColumnName : Option Text → Text
  | none => []
  | some name => strip name

/-- The names of the columns that have one, and their places in the header. -/
def buildColumns (rawHeaders : List (Option Text)) : List Text × List ℕ :=
  let kept := rawHeaders.zipIdx.filter (fun p => !(normalizeColumnName p.1).isEmpty)
  (uniquifyColumns casing (kept.map (fun p => normalizeColumnName p.1)), kept.map Prod.snd)

end Casing

section Rows

variable {α : Type u}

/-- The cell at a place of a row; a row that is too short has no value there. -/
def cellAt (rawRow : List (Option α)) (idx : ℕ) : Option α := (rawRow[idx]?).getD none

/-- A row as a dictionary from the names of its columns.  There must be as many places as names. -/
def rowToDict (columns : List Text) (keptIndices : List ℕ) (rawRow : List (Option α)) :
    Option (Dict Text (Option α)) :=
  if columns.length = keptIndices.length then
    some (Dict.ofList ((columns.zip keptIndices).map (fun p => (p.1, cellAt rawRow p.2))))
  else none

/-- Under distinct names every cell has its own. -/
theorem rowToDict_of_nodup {columns : List Text} {keptIndices : List ℕ}
    (rawRow : List (Option α)) (hlength : columns.length = keptIndices.length)
    (hnodup : columns.Nodup) :
  ∃ row, rowToDict columns keptIndices rawRow = some row ∧ row.keys = columns
    ∧ ∀ p ∈ columns.zip keptIndices, row.get? p.1 = some (cellAt rawRow p.2)
  := by
  have hkeys : ((columns.zip keptIndices).map (fun p => (p.1, cellAt rawRow p.2))).map Prod.fst
      = columns := by
    rw [List.map_map]
    apply List.map_fst_zip (le_of_eq hlength)
  have hitems : (Dict.ofList ((columns.zip keptIndices).map
      (fun p => (p.1, cellAt rawRow p.2)))).items
        = (columns.zip keptIndices).map (fun p => (p.1, cellAt rawRow p.2)) := by
    apply Dict.items_foldl_set
    apply List.Pairwise.imp _ (List.pairwise_map.mp (hkeys.symm ▸ hnodup))
    intro p q hne
    apply beq_false_of_ne hne
  refine ⟨_, if_pos hlength, ?_, ?_⟩
  · rw [Dict.keys, hitems, hkeys]
  · intro p hp
    apply Dict.get?_of_mem
    rw [hitems]
    exact List.mem_map.mpr ⟨p, hp, rfl⟩

end Rows

end Readers

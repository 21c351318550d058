import DataOpsStudio.Sql.Window

/-!
# Pages of a query

A query is read page by page, and every page is a query of its own: its limit is what the limit of
the query leaves of the page, and its offset comes on top of that of the query.  An old Oracle
database knows neither clause, so there the page is written with row numbers.
-/

namespace Sql

open Text Compare

/-! ### Pages -/

section Page

variable {β ε : Type}

/-- A page of the rows of a query. -/
def applyDatabasePage (expression : Query β ε) (pageOffset rowLimit : ℤ) :
    Except WindowError (Query β ε) :=
  if pageOffset < 0 then .error (.valueError "page_offset must be non-negative")
  else if rowLimit ≤ 0 then .error (.valueError "row_limit must be positive")
  else if hasNonliteralTopLevelWindow expression then .ok (outerPage expression rowLimit pageOffset)
  else do
    let existingOffset ← literalTopLevelOffset expression
    let rowLimit :=
      match literalTopLevelLimit expression with
      | none => rowLimit
      | some existing => min rowLimit (max 0 (existing - pageOffset))
    if rowLimit ≤ 0 then
      .error (.queryLimitError "Requested page is beyond the query's literal row limit")
    else
      let limited := expression.setLimit rowLimit
      let adjusted := existingOffset + pageOffset
      return if 0 < adjusted then limited.setOffset adjusted else limited

end Page

/-! ### Row numbers -/

section Legacy

variable {β ε : Type}

/-- A query as an old database reads it. -/
inductive LegacySql (β ε : Type) where
  /-- The text as it was given. -/
  | unchanged (sql : Text)
  /-- A query without a window. -/
  | plain (inner : Query β ε)
  /-- The first rows of a query. -/
  | capped (inner : Query β ε) (count : ℤ)
  /-- The rows of a query with a number greater than the second one, and the number of each; the
  query is read up to the first number if there is one. -/
  | numbered (inner : Query β ε) (upperBound : Option ℤ) (skip : ℤ)

/-- What becomes of a text for an old database. -/
structure LegacyPagingRewrite (β ε : Type) where
  sql : LegacySql β ε
  dropTrailingColumn : Bool := false

def rownumColumn : Text := "DATAOPS_RN__".toList

def innerAlias : Text := "DATAOPS_Q__".toList

/-- The text of a query for an old database. -/
def LegacySql.text (render : Query β ε → Text) : LegacySql β ε → Text
  | unchanged sql => sql
  | plain inner => render inner
  | capped inner count =>
      "SELECT * FROM (".toList ++ render inner ++ ") WHERE ROWNUM <= ".toList ++ intText count
  | numbered inner upperBound skip =>
      "SELECT * FROM (SELECT ".toList ++ innerAlias ++ ".*, ROWNUM AS ".toList ++ rownumColumn
        ++ " FROM (".toList ++ render inner ++ ") ".toList ++ innerAlias
        ++ (match upperBound with
            | none => []
            | some bound => " WHERE ROWNUM <= ".toList ++ intText bound)
        ++ ") WHERE ".toList ++ rownumColumn ++ " > ".toList ++ intText skip

/-- The natural number a literal stands for, if it does. -/
def literalInt (node : Expression ε) : Option ℤ :=
  match node.int? with
  | none => none
  | some value => if 0 ≤ value then some value else none

/-- The number of rows of a clause, if it says no more. -/
def fetchCount : Limit ε → Option ℤ
  | .limit expression => literalInt expression
  | .fetch count options =>
      if options.percent || options.withTies then none else count.bind literalInt

/-- Writes a query with row numbers instead of its window. -/
def rewriteForPre12c (parse : Text → Option (Query β ε)) (sql : Text) : LegacyPagingRewrite β ε :=
  let unchanged : LegacyPagingRewrite β ε := { sql := .unchanged sql }
  match parse sql with
  | none => unchanged
  | some expression =>
      if expression.limit.isNone ∧ expression.offset.isNone then unchanged
      else
        match expression.limit.elim (some none) (fun limit => (fetchCount limit).map some),
          expression.offset.elim (some 0) literalInt with
        | some count, some skip =>
            let inner := expression.withWindow none none
            if skip = 0 then
              match count with
              | none => { sql := .plain inner }
              | some count => { sql := .capped inner count }
            else
              { sql := .numbered inner (count.map (fun count => skip + count)) skip
                dropTrailingColumn := true }
        | _, _ => unchanged

end Legacy

/-! ### What a page means -/

section Meaning

variable {β ε ρ ν : Type}

/-- Numbers rows.  A row that is not kept does not use up its number. -/
def rownum (keep : ℕ → Bool) : ℕ → List ρ → List (ρ × ℕ)
  | _, [] => []
  | k, row :: rows => if keep k then (row, k) :: rownum keep (k + 1) rows else rownum keep k rows

/-- The rows of a query for an old database, in which a number is a value in the last column.  The
database does not read a text that has not been changed. -/
def LegacySql.denote (m : Meaning β ε (List ν)) (number : ℕ → ν) :
    LegacySql β ε → Option (List (List ν))
  | unchanged _ => none
  | plain inner => some (m.denote inner)
  | capped inner count =>
      some ((rownum (fun k => (k : ℤ) ≤ count) 1 (m.denote inner)).map Prod.fst)
  | numbered inner upperBound skip =>
      some (((rownum (fun k => ∀ bound ∈ upperBound, (k : ℤ) ≤ bound) 1 (m.denote inner)).filter
        (fun p => skip < p.2)).map (fun p => p.1 ++ [number p.2]))

/-- The rows that are delivered, without the numbers if there are any. -/
def LegacyPagingRewrite.delivered (m : Meaning β ε (List ν)) (number : ℕ → ν)
    (rewrite : LegacyPagingRewrite β ε) : Option (List (List ν)) :=
  (rewrite.sql.denote m number).map (fun rows =>
    if rewrite.dropTrailingColumn then rows.map List.dropLast else rows)

/-- Rows from an offset on, as many as a limit admits. -/
def slice (rows : List ρ) (limit : Option ℕ) (offset : ℕ) : List ρ :=
  match limit with
  | none => rows.drop offset
  | some l => (rows.drop offset).take l

/-- The window of a query is one of integers. -/
structure Query.HasWindow (q : Query β ε) (limit : Option ℕ) (offset : ℕ) : Prop where
  limit : match limit with
    | none => q.limit = none
    | some l => ∃ e : Expression ε, e.int? = some (l : ℤ)
        ∧ (q.limit = some (.limit e) ∨ q.limit = some (.fetch (some e) {}))
  offset : match q.offset with
    | none => offset = 0
    | some e => e.int? = some (offset : ℤ)

/-- How a clause is written for Oracle. -/
def Limit.rendered : Limit ε → Limit ε
  | limit expression => fetch (some expression) {}
  | fetch count options => fetch count options

/-- A query as it is read after it has been written for Oracle. -/
structure Meaning.Rendered (m : Meaning β ε ρ) (q q' : Query β ε) : Prop where
  source : m.source q' = m.source q
  limit : q'.limit = q.limit.map Limit.rendered
  offset : q'.offset = q.offset

/-- The rows of so many pages, one after the other; a page that is refused has none. -/
def Meaning.pages (m : Meaning β ε ρ) (q : Query β ε) (n count : ℕ) : List ρ :=
  (List.range count).flatMap (fun i =>
    match applyDatabasePage q (i * n : ℕ) n with
    | .ok page => m.denote page
    | .error _ => [])

end Meaning

/-! ### Pages are slices -/

section Slice

variable {β ε ρ : Type} {m : Meaning β ε ρ} {q : Query β ε} {limit : Option ℕ}
  {offset n : ℕ}

/-- How many rows a limit leaves of a page. -/
def pageLimit (limit : Option ℕ) (n p : ℕ) : ℕ :=
  match limit with
  | none => n
  | some l => min n (l - p)

/-- A query from an offset on. -/
def Query.pageAt (q : Query β ε) (n offset : ℕ) : Query β ε :=
  if (0 : ℤ) < offset then (q.setLimit n).setOffset offset else q.setLimit n

theorem Expression.isNumber_of_int? {e : Expression ε} {k : ℤ} (h : e.int? = some k) :
  e.isNumber = true
  := by
  obtain ⟨this, rfl, -⟩ := Expression.eq_literal_of_int? h
  rfl

theorem Query.HasWindow.literalTopLevelLimit (h : q.HasWindow limit offset) :
  literalTopLevelLimit q = limit.map (fun l : ℕ => (l : ℤ))
  := by
  have hlimit := h.limit
  cases limit with
  | none => simp [Sql.literalTopLevelLimit, show q.limit = none from hlimit]
  | some l =>
      obtain ⟨e, he, hclause | hclause⟩ := hlimit
      all_goals simp [Sql.literalTopLevelLimit, hclause, Limit.count, he]

theorem Query.HasWindow.literalTopLevelOffset (h : q.HasWindow limit offset) :
  literalTopLevelOffset q = .ok (offset : ℤ)
  := by
  have hoffset := h.offset
  split at hoffset
  · rename_i hnone
    simp [Sql.literalTopLevelOffset, hnone, hoffset]
  · rename_i e hsome
    simp [Sql.literalTopLevelOffset, hsome, Expression.isNumber_of_int? hoffset, hoffset]

theorem Query.HasWindow.literal (h : q.HasWindow limit offset) :
  hasNonliteralTopLevelWindow q = false
  := by
  have hclause : ((q.limit.bind Limit.count).any fun count => !count.isNumber) = false := by
    have hlimit := h.limit
    cases limit with
    | none => simp [show q.limit = none from hlimit]
    | some l =>
        obtain ⟨e, he, hclause | hclause⟩ := hlimit
        all_goals simp [hclause, Limit.count, Expression.isNumber_of_int? he]
  have hoffset := h.offset
  rw [hasNonliteralTopLevelWindow, hclause, Bool.false_or]
  split at hoffset
  · rename_i hnone
    rw [hnone]
    rfl
  · rename_i e hsome
    simp [hsome, Expression.isNumber_of_int? hoffset]

/-- A page is refused exactly if the limit of the query leaves nothing of it. -/
theorem applyDatabasePage_eq (h : q.HasWindow limit offset) (hn : 0 < n) (p : ℕ) :
  applyDatabasePage q p n = if ∃ l ∈ limit, l ≤ p then
      .error (.queryLimitError "Requested page is beyond the query's literal row limit")
    else .ok (q.pageAt (pageLimit limit n p) (offset + p))
  := by
  let rowLimit : ℤ := match literalTopLevelLimit q with
    | none => n
    | some existing => min n (max 0 (existing - p))
  have hlimit : rowLimit = (pageLimit limit n p : ℕ) := by
    simp only [rowLimit, h.literalTopLevelLimit]
    cases limit with
    | none => rfl
    | some l =>
        simp only [Option.map_some, pageLimit]
        omega
  have hempty : ((pageLimit limit n p : ℕ) : ℤ) ≤ 0 ↔ ∃ l ∈ limit, l ≤ p := by
    cases limit with
    | none =>
        simp only [pageLimit, Option.mem_def, reduceCtorEq, false_and, exists_false, iff_false]
        omega
    | some l =>
        simp only [pageLimit, Option.mem_some_iff, exists_eq_left']
        omega
  rw [applyDatabasePage, if_neg (by omega), if_neg (by omega), h.literal, if_neg (by simp),
    h.literalTopLevelOffset]
  show (if rowLimit ≤ 0 then _ else pure (if (0 : ℤ) < offset + p
    then (q.setLimit rowLimit).setOffset (offset + p) else q.setLimit rowLimit)) = _
  rw [hlimit]
  by_cases hbeyond : ∃ l ∈ limit, l ≤ p
  · rw [if_pos (hempty.mpr hbeyond), if_pos hbeyond]
  · rw [if_neg (fun hle => hbeyond (hempty.mp hle)), if_neg hbeyond]
    rw [Query.pageAt, Nat.cast_add]
    rfl

@[simp]
theorem Meaning.source_pageAt (m : Meaning β ε ρ) (q : Query β ε) (n offset : ℕ) :
  m.source (q.pageAt n offset) = m.source q
  := by
  rw [Query.pageAt]
  split
  all_goals
    cases q with
    | select body limit offset => rfl
    | page inner limit offset => rfl

theorem Query.limit_pageAt (q : Query β ε) (n offset : ℕ) :
  (q.pageAt n offset).limit = some (.limit (.literal (intText n) false))
  := by
  rw [Query.pageAt]
  split
  all_goals
    cases q with
    | select body limit offset => rfl
    | page inner limit offset => rfl

/-- A page passes over the rows before its offset. -/
theorem Query.HasWindow.offset_pageAt (h : q.HasWindow limit offset) (n p : ℕ) :
  (q.pageAt n (offset + p)).offset = none ∧ offset + p = 0
    ∨ ∃ e, (q.pageAt n (offset + p)).offset = some e ∧ e.int? = some ((offset + p : ℕ) : ℤ)
  := by
  rw [Query.pageAt]
  split
  · right
    refine ⟨.literal (intText (offset + p : ℕ)) false, ?_, intOfText?_intText _⟩
    cases q with
    | select body limit offset => rfl
    | page inner limit offset => rfl
  · rename_i hzero
    have hsame : (q.setLimit n).offset = q.offset := by
      cases q with
      | select body limit offset => rfl
      | page inner limit offset => rfl
    have hoffset := h.offset
    rw [hsame]
    split at hoffset
    · rename_i hnone
      exact .inl ⟨hnone, by omega⟩
    · rename_i e hsome
      refine .inr ⟨e, hsome, ?_⟩
      rw [hoffset]
      congr 1
      omega

theorem Query.HasWindow.left_pageAt (h : q.HasWindow limit offset) (m : Meaning β ε ρ) (n p : ℕ) :
  m.left (q.pageAt n (offset + p)) = (m.source q).drop (offset + p)
  := by
  rw [Meaning.left, m.source_pageAt]
  obtain ⟨hnone, hzero⟩ | ⟨e, hsome, he⟩ := h.offset_pageAt n p
  · rw [hnone, hzero, Meaning.skipped]
  · obtain ⟨this, rfl, hthis⟩ := Expression.eq_literal_of_int? he
    rw [hsome, Meaning.skipped, m.count_literal this _ hthis]

/-- The rows of a page. -/
theorem Query.HasWindow.denote_pageAt (h : q.HasWindow limit offset) (m : Meaning β ε ρ)
    (n p : ℕ) :
  m.denote (q.pageAt n (offset + p)) = ((m.source q).drop (offset + p)).take n
  := by
  rw [m.denote_eq, h.left_pageAt, Meaning.selected, Query.limit_pageAt]
  simp only [Meaning.taken, m.count_intText]

/-- The rows of a query with a window of integers. -/
theorem Query.HasWindow.denote (h : q.HasWindow limit offset) (m : Meaning β ε ρ) :
  m.denote q = slice (m.source q) limit offset
  := by
  have hint : ∀ {e : Expression ε} {k : ℕ}, e.int? = some (k : ℤ) → m.count e = k := by
    intro e k he
    obtain ⟨this, rfl, hthis⟩ := Expression.eq_literal_of_int? he
    apply m.count_literal this k hthis
  have hskipped : m.skipped q.offset = offset := by
    have hoffset := h.offset
    split at hoffset
    · rename_i hnone
      rw [hnone, hoffset, Meaning.skipped]
    · rename_i e hsome
      rw [hsome, Meaning.skipped, hint hoffset]
  rw [m.denote_eq, Meaning.selected, Meaning.left, hskipped]
  have hlimit := h.limit
  cases limit with
  | none => rw [show q.limit = none from hlimit, Meaning.taken, List.take_length, slice]
  | some l =>
      obtain ⟨e, he, hclause | hclause⟩ := hlimit
      all_goals simp [hclause, slice, Meaning.taken, Meaning.fetched, hint he]

/-- What is left of a page is what the page of the query is. -/
theorem slice_page (rows : List ρ) (limit : Option ℕ) (offset n p : ℕ) :
  ((slice rows limit offset).drop p).take n = (rows.drop (offset + p)).take (pageLimit limit n p)
  := by
  cases limit with
  | none => rw [slice, pageLimit, List.drop_drop]
  | some l => rw [slice, pageLimit, List.drop_take, List.take_take, List.drop_drop]

/-- Nothing is left of a page that is refused. -/
theorem slice_page_beyond (rows : List ρ) {limit : Option ℕ} {p : ℕ} (h : ∃ l ∈ limit, l ≤ p)
    (offset n : ℕ) :
  ((slice rows limit offset).drop p).take n = []
  := by
  obtain ⟨l, hl, hle⟩ := h
  rw [slice_page, show limit = some l from hl, pageLimit, Nat.sub_eq_zero_of_le hle]
  simp

/-- The pages one after the other are the first rows of the query. -/
theorem Query.HasWindow.pages (h : q.HasWindow limit offset) (hn : 0 < n) (m : Meaning β ε ρ)
    (count : ℕ) :
  m.pages q n count = (slice (m.source q) limit offset).take (count * n)
  := by
  rw [Meaning.pages]
  induction count with
  | zero => simp
  | succ count ih =>
      rw [List.range_succ, List.flatMap_append, ih, Nat.succ_mul, List.take_add]
      congr 1
      rw [List.flatMap_singleton, applyDatabasePage_eq h hn]
      by_cases hbeyond : ∃ l ∈ limit, l ≤ count * n
      · rw [if_pos hbeyond, slice_page_beyond _ hbeyond]
      · rw [if_neg hbeyond, slice_page]
        apply h.denote_pageAt

end Slice

/-! ### Row numbers -/

section Rownum

variable {β ε ρ ν : Type}

/-- Rows that are numbered up to a bound are the first ones. -/
theorem rownum_le (bound k : ℕ) (rows : List ρ) :
  rownum (fun k => decide ((k : ℤ) ≤ bound)) k rows = (rows.take (bound + 1 - k)).zipIdx k
  := by
  induction rows generalizing k with
  | nil => simp [rownum]
  | cons row rows ih =>
      rw [rownum, ih, ih]
      by_cases hk : k ≤ bound
      · have hnext : bound + 1 - k = (bound + 1 - (k + 1)) + 1 := by omega
        simp [hk, hnext]
      · have hzero : bound + 1 - k = 0 := by omega
        simp [hk, hzero]

/-- Rows with a greater number are those after the first ones. -/
theorem map_fst_filter_zipIdx (rows : List ρ) (skip k : ℕ) :
  ((rows.zipIdx k).filter (fun p => decide (skip < p.2))).map Prod.fst
    = rows.drop (skip + 1 - k)
  := by
  induction rows generalizing k with
  | nil => simp
  | cons row rows ih =>
      rw [List.zipIdx_cons, List.filter_cons]
      by_cases hk : skip < k
      · have hzero : skip + 1 - k = 0 := by omega
        have hnext : skip + 1 - (k + 1) = 0 := by omega
        simp [hk, hzero, ih, hnext]
      · have hnext : skip + 1 - k = (skip + 1 - (k + 1)) + 1 := by omega
        simp [hk, hnext, ih]

end Rownum

/-! ### The page algebra -/

section Algebra

variable {β ε ν : Type} {q : Query β ε} {limit : Option ℕ} {offset n : ℕ}

theorem literalInt_of_int? {e : Expression ε} {k : ℕ} (h : e.int? = some (k : ℤ)) :
  literalInt e = some (k : ℤ)
  := by
  rw [literalInt, h]
  simp

/-- A page that is written with row numbers has the rows of the page. -/
theorem Query.HasWindow.rewriteForPre12c (h : q.HasWindow limit offset)
    (m : Meaning β ε (List ν)) (number : ℕ → ν) (n p : ℕ) {q' : Query β ε}
    (hrendered : m.Rendered (q.pageAt n (offset + p)) q') {parse : Text → Option (Query β ε)}
    {sql : Text} (hparse : parse sql = some q') :
  (rewriteForPre12c parse sql).delivered m number
    = some (m.denote (q.pageAt n (offset + p)))
  := by
  have hlimit : q'.limit = some (.fetch (some (.literal (intText n) false)) {}) := by
    rw [hrendered.limit, Query.limit_pageAt]
    rfl
  have hcount : fetchCount (.fetch (some (.literal (intText n) false : Expression ε)) {})
      = some (n : ℤ) := literalInt_of_int? (intOfText?_intText n)
  have hinner : m.denote (q'.withWindow none none) = m.source q := by
    have hwhole : m.denote (q'.withWindow none none) = m.source q' := by
      cases q' with
      | select body limit offset => exact List.take_length
      | page inner limit offset => exact List.take_length
    rw [hwhole, hrendered.source, m.source_pageAt]
  have hskip : q'.offset.elim (some 0) literalInt = some ((offset + p : ℕ) : ℤ) := by
    rw [hrendered.offset]
    obtain ⟨hnone, hzero⟩ | ⟨e, hsome, he⟩ := h.offset_pageAt n p
    · rw [hnone, hzero]
      rfl
    · rw [hsome]
      apply literalInt_of_int? he
  rw [h.denote_pageAt, Sql.rewriteForPre12c, hparse]
  simp only [hlimit, hskip, Option.isNone_some, Bool.false_eq_true, false_and, if_false,
    Option.elim_some, hcount, Option.map_some]
  split
  · rename_i hzero
    rw [LegacyPagingRewrite.delivered]
    simp only [LegacySql.denote, Bool.false_eq_true, if_false, Option.map_some, hinner]
    rw [rownum_le, List.zipIdx_map_fst]
    have hfirst : offset + p = 0 := by exact_mod_cast hzero
    rw [hfirst]
    rfl
  · rw [LegacyPagingRewrite.delivered]
    have hbound : rownum (fun k => decide (∀ bound ∈ some (((offset + p : ℕ) : ℤ) + n),
          (k : ℤ) ≤ bound)) 1 (m.source q)
        = ((m.source q).take (offset + p + n)).zipIdx 1 := by
      rw [← Nat.add_sub_cancel (n := offset + p + n) (m := 1), ← rownum_le]
      simp
    have hdrop : (List.dropLast ∘ fun r : List ν × ℕ => r.1 ++ [number r.2]) = Prod.fst := by
      funext r
      apply List.dropLast_concat
    simp only [LegacySql.denote, if_true, Option.map_some, hinner, List.map_map, hbound, hdrop,
      Nat.cast_lt]
    rw [map_fst_filter_zipIdx, Nat.add_sub_cancel, List.drop_take, Nat.add_sub_cancel_left]

/-- A query with a window of integers is cut into pages: a page is a slice of its rows, and is
refused exactly if the limit leaves nothing of it; the pages one after the other are the rows of
the query; and a page that is written for an old database has the same rows. -/
theorem page_algebra (m : Meaning β ε (List ν)) (number : ℕ → ν) (q : Query β ε)
    (limit : Option ℕ) (offset : ℕ) (hq : q.HasWindow limit offset) (n : ℕ) (hn : 0 < n) :
  m.denote q = slice (m.source q) limit offset
    ∧ (∀ p : ℕ, (∃ e, applyDatabasePage q p n = .error e) ↔ ∃ l ∈ limit, l ≤ p)
    ∧ (∀ (p : ℕ) page, applyDatabasePage q p n = .ok page →
      m.denote page = ((slice (m.source q) limit offset).drop p).take n)
    ∧ (∀ count, m.pages q n count = (slice (m.source q) limit offset).take (count * n))
    ∧ ∀ (p : ℕ) page q' parse sql, applyDatabasePage q p n = .ok page → m.Rendered page q' →
      parse sql = some q' → (rewriteForPre12c parse sql).delivered m number = some (m.denote page)
  := by
  have hpage : ∀ (p : ℕ) page, applyDatabasePage q p n = .ok page →
      (¬ ∃ l ∈ limit, l ≤ p) ∧ page = q.pageAt (pageLimit limit n p) (offset + p) := by
    intro p page h
    rw [applyDatabasePage_eq hq hn] at h
    split at h
    · cases h
    · rename_i hwithin
      exact ⟨hwithin, (Except.ok.inj h).symm⟩
  refine ⟨hq.denote m, ?_, ?_, hq.pages hn m, ?_⟩
  · intro p
    rw [applyDatabasePage_eq hq hn]
    split
    · rename_i hbeyond
      exact iff_of_true ⟨_, rfl⟩ hbeyond
    · rename_i hwithin
      exact iff_of_false nofun hwithin
  · intro p page h
    obtain ⟨-, rfl⟩ := hpage p page h
    rw [slice_page, hq.denote_pageAt]
  · intro p page q' parse sql h hrendered hparse
    obtain ⟨-, rfl⟩ := hpage p page h
    apply hq.rewriteForPre12c m number _ p hrendered hparse

end Algebra

/-- A row of one value for every number, and a column of row numbers. -/
def columnMeaning : Meaning (List ℕ) Empty (List ℕ) where
  rows := List.map fun value => [value]
  tied := fun _ _ _ => false
  count := plainMeaning.count
  share := plainMeaning.share
  count_literal := plainMeaning.count_literal
  share_literal := plainMeaning.share_literal

/-- Four of five rows, after the first one. -/
def fourOfFive : Query (List ℕ) Empty :=
  .select [5, 6, 7, 8, 9] (some (.limit (.literal "4".toList false)))
    (some (.literal "1".toList false))

theorem page_algebra_fourOfFive :
  columnMeaning.pages fourOfFive 3 2 = [[6], [7], [8], [9]]
    ∧ ∃ page, applyDatabasePage fourOfFive 3 3 = .ok page ∧ columnMeaning.denote page = [[9]]
      ∧ (rewriteForPre12c (fun _ => some (page.withWindow (page.limit.map Limit.rendered)
          page.offset)) []).delivered columnMeaning id = some [[9]]
  := by
  have hwindow : fourOfFive.HasWindow (some 4) 1 :=
    ⟨⟨.literal "4".toList false, by decide, .inl rfl⟩,
      (by decide : intOfText? "1".toList = some 1)⟩
  obtain ⟨-, -, hpage, hpages, hlegacy⟩ :=
    page_algebra columnMeaning id fourOfFive (some 4) 1 hwindow 3 (by decide)
  obtain ⟨page, hok⟩ : ∃ page, applyDatabasePage fourOfFive 3 3 = .ok page := ⟨_, rfl⟩
  have hrendered : columnMeaning.Rendered page
      (page.withWindow (page.limit.map Limit.rendered) page.offset) := by
    cases page with
    | select body limit offset => exact ⟨rfl, rfl, rfl⟩
    | page inner limit offset => exact ⟨rfl, rfl, rfl⟩
  have hrows := hpage 3 page hok
  refine ⟨(hpages 2).trans (by decide), page, hok, hrows.trans (by decide), ?_⟩
  rw [hlegacy 3 page _ _ [] hok hrendered rfl, hrows]
  decide

example : (LegacySql.numbered fourOfFive (some 301) 200).text (fun _ => "q".toList)
    = ("SELECT * FROM (SELECT DATAOPS_Q__.*, ROWNUM AS DATAOPS_RN__ FROM (q) DATAOPS_Q__ "
      ++ "WHERE ROWNUM <= 301) WHERE DATAOPS_RN__ > 200").toList := by
  decide +kernel

end Sql

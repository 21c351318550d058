import DataOpsStudio.Compare.Normalize

/-!
# Windows of queries

The rows of a query are bounded before it is sent to a database.  At its top level a query has a
window, a `LIMIT` or `FETCH` clause and an `OFFSET` clause, and to bound it the clause is replaced,
or kept if it is smaller already.  A clause that counts its rows by a parameter or an expression is
left alone, and the query becomes the source of another one that is bounded instead.
-/

namespace Sql

open Text Compare

/-- What is raised when a query cannot be bounded. -/
inductive WindowError where
  | valueError (message : String)
  | queryLimitError (message : String)
deriving DecidableEq

/-! ### Queries -/

/-- An expression at the place of a number of rows. -/
inductive Expression (ε : Type) where
  /-- A number, or a string if the flag is set. -/
  | literal (this : Text) (isString : Bool)
  /-- A parameter, or what else has to be computed. -/
  | computed (e : ε)
deriving DecidableEq

/-- What a `FETCH` clause says beside the number of rows. -/
structure LimitOptions where
  percent : Bool := false
  withTies : Bool := false
deriving DecidableEq

/-- A clause that bounds the number of rows. -/
inductive Limit (ε : Type) where
  | limit (expression : Expression ε)
  | fetch (count : Option (Expression ε)) (options : LimitOptions)
deriving DecidableEq

/-- The number of rows a clause names. -/
def Limit.count {ε : Type} : Limit ε → Option (Expression ε)
  | limit expression => some expression
  | fetch count _ => count

/-- A query with its window.  Its source is a body, or the rows of another query. -/
inductive Query (β ε : Type) where
  | select (body : β) (limit : Option (Limit ε)) (offset : Option (Expression ε))
  | page (inner : Query β ε) (limit : Option (Limit ε)) (offset : Option (Expression ε))
deriving DecidableEq

namespace Query

variable {β ε : Type}

def limit : Query β ε → Option (Limit ε)
  | select _ limit _ => limit
  | page _ limit _ => limit

def offset : Query β ε → Option (Expression ε)
  | select _ _ offset => offset
  | page _ _ offset => offset

/-- The query with another window. -/
def withWindow (limit : Option (Limit ε)) (offset : Option (Expression ε)) :
    Query β ε → Query β ε
  | select body _ _ => select body limit offset
  | page inner _ _ => page inner limit offset

/-- The query with a limit, in place of the one it has. -/
def setLimit (q : Query β ε) (rowLimit : ℤ) : Query β ε :=
  q.withWindow (some (.limit (.literal (intText rowLimit) false))) q.offset

/-- The query with an offset, in place of the one it has. -/
def setOffset (q : Query β ε) (offset : ℤ) : Query β ε :=
  q.withWindow q.limit (some (.literal (intText offset) false))

end Query

/-! ### What a query means -/

/-- What the parts of a query mean: the rows of a body in their order, when two of them agree in
what they are ordered by, how many rows an expression stands for, and how many a percentage of a
number of rows is.  Literals that are integers stand for themselves. -/
structure Meaning (β ε ρ : Type) where
  rows : β → List ρ
  tied : β → ρ → ρ → Bool
  count : Expression ε → ℕ
  share : Expression ε → ℕ → ℕ
  count_literal : ∀ (this : Text) (n : ℕ), intOfText? this = some (n : ℤ) →
    count (.literal this false) = n
  share_literal : ∀ (this : Text) (n total : ℕ), intOfText? this = some (n : ℤ) →
    share (.literal this false) total = (n * total + 99) / 100

namespace Meaning

variable {β ε ρ : Type} (m : Meaning β ε ρ)

/-- How many rows after the first ones are tied with the last of these. -/
def tiesAfter (tied : ρ → ρ → Bool) (rows : List ρ) (n : ℕ) : ℕ :=
  match (rows.take n).getLast? with
  | none => 0
  | some last => ((rows.drop n).takeWhile (tied last)).length

/-- How many rows a `FETCH` clause names, of a source with so many rows; without a number it is
one. -/
def fetched (count : Option (Expression ε)) (options : LimitOptions) (total : ℕ) : ℕ :=
  match count with
  | none => 1
  | some e => if options.percent then m.share e total else m.count e

/-- How many of the rows that are left a clause takes, if there are as many. -/
def taken (tied : ρ → ρ → Bool) (total : ℕ) (left : List ρ) : Option (Limit ε) → ℕ
  | none => left.length
  | some (.limit e) => m.count e
  | some (.fetch count options) =>
      let n := m.fetched count options total
      if options.withTies then n + tiesAfter tied left n else n

/-- How many rows an offset passes over. -/
def skipped (offset : Option (Expression ε)) : ℕ :=
  match offset with
  | none => 0
  | some e => m.count e

/-- The rows in a window. -/
def window (tied : ρ → ρ → Bool) (rows : List ρ) (limit : Option (Limit ε))
    (offset : Option (Expression ε)) : List ρ :=
  let left := rows.drop (m.skipped offset)
  left.take (m.taken tied rows.length left limit)

/-- The rows of a query. -/
def denote : Query β ε → List ρ
  | .select body limit offset => m.window (m.tied body) (m.rows body) limit offset
  | .page inner limit offset => m.window (fun _ _ => false) (denote inner) limit offset

/-- The rows of a query before its window. -/
def source : Query β ε → List ρ
  | .select body _ _ => m.rows body
  | .page inner _ _ => m.denote inner

/-- When rows of a query agree in what they are ordered by. -/
def ties : Query β ε → ρ → ρ → Bool
  | .select body _ _ => m.tied body
  | .page _ _ _ => fun _ _ => false

/-- The rows of a query after its offset. -/
def left (q : Query β ε) : List ρ := (m.source q).drop (m.skipped q.offset)

/-- How many of the rows after its offset a query takes, if there are as many. -/
def selected (q : Query β ε) : ℕ :=
  m.taken (m.ties q) (m.source q).length (m.left q) q.limit

theorem denote_eq (q : Query β ε) :
  m.denote q = (m.left q).take (m.selected q)
  := by
  cases q with
  | select body limit offset => rfl
  | page inner limit offset => rfl

end Meaning

/-! ### Bounding a query -/

section Bound

variable {β ε : Type}

/-- The integer a number stands for, if it is one. -/
def Expression.int? : Expression ε → Option ℤ
  | .literal this false => intOfText? this
  | _ => none

/-- A number. -/
def Expression.isNumber : Expression ε → Bool
  | .literal _ isString => !isString
  | .computed _ => false

/-- The number of rows of the top-level clause, if it is a number that is a natural one. -/
def literalTopLevelLimit (expression : Query β ε) : Option ℤ :=
  match (expression.limit.bind Limit.count).bind Expression.int? with
  | none => none
  | some value => if 0 ≤ value then some value else none

/-- The number of rows that the top-level offset passes over. -/
def literalTopLevelOffset (expression : Query β ε) : Except WindowError ℤ :=
  match expression.offset with
  | none => .ok 0
  | some count =>
      if count.isNumber then
        match count.int? with
        | none => .error (.queryLimitError "Top-level OFFSET must be a non-negative integer")
        | some value =>
            if value < 0 then
              .error (.queryLimitError "Top-level OFFSET must be a non-negative integer")
            else .ok value
      else .error (.queryLimitError "Parameterized top-level OFFSET cannot be safely paginated")

/-- Whether the number of rows of one of the top-level clauses is no number. -/
def hasNonliteralTopLevelWindow (expression : Query β ε) : Bool :=
  ((expression.limit.bind Limit.count).any fun count => !count.isNumber)
    || expression.offset.any fun count => !count.isNumber

/-- A page of the rows of a query. -/
def outerPage (expression : Query β ε) (rowLimit pageOffset : ℤ) : Query β ε :=
  let outer := (Query.page expression none none).setLimit rowLimit
  if 0 < pageOffset then outer.setOffset pageOffset else outer

/-- A query with at most so many rows. -/
def applyDatabaseRowLimit (expression : Query β ε) (rowLimit : ℤ) :
    Except WindowError (Query β ε) :=
  if rowLimit ≤ 0 then .error (.valueError "row_limit must be positive")
  else if hasNonliteralTopLevelWindow expression then .ok (outerPage expression rowLimit 0)
  else
    match literalTopLevelLimit expression with
    | none => .ok (expression.setLimit rowLimit)
    | some existing =>
        if rowLimit < existing then .ok (expression.setLimit rowLimit) else .ok expression

end Bound

/-! ### What is left of the rows -/

section Law

variable {β ε ρ : Type} (m : Meaning β ε ρ) {q : Query β ε} {n : ℕ}

theorem Meaning.count_intText (n : ℕ) :
  m.count (.literal (intText n) false) = n
  := by
  apply m.count_literal
  apply intOfText?_intText

@[simp]
theorem Meaning.left_setLimit (q : Query β ε) (n : ℕ) :
  m.left (q.setLimit n) = m.left q
  := by
  cases q with
  | select body limit offset => rfl
  | page inner limit offset => rfl

@[simp]
theorem Meaning.selected_setLimit (q : Query β ε) (n : ℕ) :
  m.selected (q.setLimit n) = n
  := by
  cases q with
  | select body limit offset => apply m.count_intText
  | page inner limit offset => apply m.count_intText

theorem Meaning.denote_setLimit (q : Query β ε) (n : ℕ) :
  m.denote (q.setLimit n) = (m.left q).take n
  := by
  rw [m.denote_eq, m.left_setLimit, m.selected_setLimit]

theorem Meaning.denote_outerPage (q : Query β ε) (n : ℕ) :
  m.denote (outerPage q n 0) = (m.denote q).take n
  := by
  rw [outerPage, if_neg (lt_irrefl 0), m.denote_setLimit]
  rfl

/-- Two lists of first rows are the same if they are cut off at the same place. -/
theorem take_eq_take_take_iff {l : List ρ} {i j n : ℕ} :
  l.take i = (l.take j).take n ↔ min i l.length = min (min n j) l.length
  := by
  rw [List.take_take]
  constructor
  · intro h
    have hlength := congrArg List.length h
    simpa only [List.length_take] using hlength
  · intro h
    rw [List.take_eq_take_min, h, ← List.take_eq_take_min]

/-- A clause that names its rows by an integer and says no more. -/
def Limit.IsPlain : Limit ε → Prop
  | .limit e => ∃ n : ℕ, e.int? = some (n : ℤ)
  | .fetch (some e) options => options = {} ∧ ∃ n : ℕ, e.int? = some (n : ℤ)
  | .fetch none _ => False

/-- When a query is bounded rightly.  Its clause is plain, or there is none, or it is not touched
because it counts its rows by no number; otherwise it must take as few rows as asked for if it is
kept, and as many if it is replaced. -/
def Meaning.IsCapped (q : Query β ε) (n : ℕ) : Prop :=
  (∀ clause ∈ q.limit, clause.IsPlain) ∨ hasNonliteralTopLevelWindow q = true
    ∨ if ∃ existing ∈ literalTopLevelLimit q, existing ≤ n then
        min (m.selected q) (m.left q).length ≤ n
      else min n (m.left q).length ≤ m.selected q

theorem Expression.eq_literal_of_int? {e : Expression ε} {k : ℤ} (h : e.int? = some k) :
  ∃ this, e = .literal this false ∧ intOfText? this = some k
  := by
  unfold Expression.int? at h
  split at h
  · rename_i this
    exact ⟨this, rfl, h⟩
  · cases h

/-- A plain clause takes the number of rows it names. -/
theorem Meaning.selected_of_plain (h : ∀ clause ∈ q.limit, clause.IsPlain) :
  literalTopLevelLimit q = none ∧ m.selected q = (m.left q).length
    ∨ literalTopLevelLimit q = some (m.selected q : ℤ)
  := by
  have hcount : ∀ {e : Expression ε} {k : ℕ}, e.int? = some (k : ℤ) → m.count e = k := by
    intro e k he
    obtain ⟨this, rfl, hthis⟩ := Expression.eq_literal_of_int? he
    apply m.count_literal this k hthis
  rw [Meaning.selected, literalTopLevelLimit]
  cases hlimit : q.limit with
  | none => exact .inl ⟨rfl, rfl⟩
  | some clause =>
      right
      have hplain := h clause hlimit
      cases clause with
      | limit e =>
          obtain ⟨k, he⟩ := hplain
          simp [Limit.count, Meaning.taken, he, hcount he]
      | fetch count options =>
          cases count with
          | none => exact hplain.elim
          | some e =>
              obtain ⟨rfl, k, he⟩ := hplain
              simp [Limit.count, Meaning.taken, Meaning.fetched, he, hcount he]

/-- A query that is bounded has the first rows of what it was, and no others, exactly if its window
is one that is bounded rightly. -/
theorem rowLimit_exact_iff (m : Meaning β ε ρ) (q : Query β ε) (n : ℕ) (hn : 0 < n) :
  ∃ bounded, applyDatabaseRowLimit q n = .ok bounded
    ∧ (m.denote bounded = (m.denote q).take n ↔ m.IsCapped q n)
  := by
  have hreplaced : (m.denote (q.setLimit n) = (m.denote q).take n)
      ↔ min n (m.left q).length ≤ m.selected q := by
    rw [m.denote_setLimit, m.denote_eq, take_eq_take_take_iff]
    omega
  have hkept : (m.denote q = (m.denote q).take n) ↔ min (m.selected q) (m.left q).length ≤ n := by
    rw [m.denote_eq, take_eq_take_take_iff]
    omega
  rw [applyDatabaseRowLimit, if_neg (by omega), Meaning.IsCapped]
  by_cases hwindow : hasNonliteralTopLevelWindow q = true
  · rw [if_pos hwindow]
    exact ⟨_, rfl, iff_of_true (m.denote_outerPage q n) (.inr (.inl hwindow))⟩
  · rw [if_neg hwindow, or_iff_right hwindow]
    cases hlimit : literalTopLevelLimit q with
    | none =>
        refine ⟨_, rfl, hreplaced.trans ?_⟩
        rw [if_neg (by simp)]
        constructor
        · exact .inr
        · rintro (hplain | hleast)
          · obtain ⟨-, hselected⟩ | hsome := m.selected_of_plain hplain
            · omega
            · cases hlimit.symm.trans hsome
          · exact hleast
    | some existing =>
        have hplain : (∀ clause ∈ q.limit, clause.IsPlain) → existing = m.selected q := by
          intro hplain
          obtain ⟨hnone, -⟩ | hsome := m.selected_of_plain hplain
          · cases hlimit.symm.trans hnone
          · exact Option.some.inj (hlimit.symm.trans hsome)
        by_cases hless : (n : ℤ) < existing
        · refine ⟨q.setLimit n, by simp only [if_pos hless], hreplaced.trans ?_⟩
          rw [if_neg (by simpa using hless)]
          constructor
          · exact .inr
          · rintro (h | hleast)
            · have hsame := hplain h
              omega
            · exact hleast
        · refine ⟨q, by simp only [if_neg hless], hkept.trans ?_⟩
          rw [if_pos (by simpa using hless)]
          constructor
          · exact .inr
          · rintro (h | hmost)
            · have hsame := hplain h
              omega
            · exact hmost

end Law

/-- Numbers stand for themselves, and nothing else for any rows.  The rows of a body are the body,
and no two are tied. -/
def plainMeaning : Meaning (List ℕ) Empty ℕ where
  rows := id
  tied := fun _ _ _ => false
  count := fun e => (e.int?.getD 0).toNat
  share := fun e total => ((e.int?.getD 0).toNat * total + 99) / 100
  count_literal := by
    intro this n h
    simp [Expression.int?, h]
  share_literal := by
    intro this n total h
    simp [Expression.int?, h]

theorem rowLimit_exact_plainMeaning :
  ∃ bounded, applyDatabaseRowLimit
      (.select [4, 5, 6] (some (.limit (.literal "7".toList false))) none : Query (List ℕ) Empty) 2
        = .ok bounded
    ∧ plainMeaning.denote bounded = [4, 5]
  := by
  obtain ⟨bounded, hbounded, hexact⟩ := rowLimit_exact_iff plainMeaning
    (.select [4, 5, 6] (some (.limit (.literal "7".toList false))) none) 2 (by decide)
  refine ⟨bounded, hbounded, ?_⟩
  have hplain : plainMeaning.IsCapped
      (.select [4, 5, 6] (some (.limit (.literal "7".toList false))) none) 2 := by
    left
    intro clause hclause
    obtain rfl := Option.some.inj hclause
    exact ⟨7, by decide⟩
  rw [hexact.mpr hplain]
  decide

/-- `FETCH FIRST ROW ONLY` is replaced by a limit of two rows. -/
theorem not_rowLimit_exact_fetchRow :
  ∃ bounded, applyDatabaseRowLimit
      (.select [4, 5, 6] (some (.fetch none {})) none : Query (List ℕ) Empty) 2 = .ok bounded
    ∧ plainMeaning.denote bounded = [4, 5]
    ∧ (plainMeaning.denote (.select [4, 5, 6] (some (.fetch none {})) none)).take 2 = [4]
  := ⟨_, rfl, by decide, by decide⟩

end Sql

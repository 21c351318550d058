import DataOpsStudio.Library.Text
import Mathlib.Algebra.Order.Field.Rat
import Mathlib.Algebra.Order.Floor.Ring
import Mathlib.Data.Int.Log
import Mathlib.Data.Rat.Floor

/-!
# Values a driver returns

The values of a row are dynamically typed.  Two values compare equal when both are
numbers with the same exact value, or when they are the same value of another type.
`comparePkSortKey` is the key by which primary keys are sorted: missing values first,
then numbers by their double-precision value, then everything else by its text.
-/

namespace Compare

open Text

/-- A finite decimal number: a sign, a coefficient and an exponent of ten. -/
structure Decimal where
  negative : Bool
  coefficient : ℕ
  exponent : ℤ
deriving DecidableEq

namespace Decimal

/-- The exact value. -/
def value (d : Decimal) : ℚ :=
  (if d.negative then -1 else 1) * d.coefficient * (10 : ℚ) ^ d.exponent

/-- The text of a decimal number: positional while the exponent is not positive and the
number is not too small, and with an exponent otherwise. -/
def text (d : Decimal) : Text :=
  let digits := natText d.coefficient
  let leftDigits : ℤ := d.exponent + digits.length
  let dotPlace : ℤ := if d.exponent ≤ 0 ∧ -6 < leftDigits then leftDigits else 1
  let body :=
    if dotPlace ≤ 0 then
      '0' :: '.' :: List.replicate (-dotPlace).toNat '0' ++ digits
    else if (digits.length : ℤ) ≤ dotPlace then
      digits ++ List.replicate (dotPlace.toNat - digits.length) '0'
    else digits.take dotPlace.toNat ++ '.' :: digits.drop dotPlace.toNat
  let scale :=
    if leftDigits = dotPlace then []
    else if leftDigits < dotPlace then 'E' :: intText (leftDigits - dotPlace)
    else 'E' :: '+' :: intText (leftDigits - dotPlace)
  (if d.negative then ['-'] else []) ++ body ++ scale

end Decimal

/-- A calendar date. -/
structure PyDate where
  year : ℕ
  month : ℕ
  day : ℕ
deriving DecidableEq

/-- A naive time of day. -/
structure PyTime where
  hour : ℕ
  minute : ℕ
  second : ℕ
  microsecond : ℕ
deriving DecidableEq

/-- The text `YYYY-MM-DD`. -/
def PyDate.isoformat (d : PyDate) : Text :=
  zeroPad 4 d.year ++ '-' :: zeroPad 2 d.month ++ '-' :: zeroPad 2 d.day

/-- The text `HH:MM:SS`. -/
def PyTime.seconds (t : PyTime) : Text :=
  zeroPad 2 t.hour ++ ':' :: zeroPad 2 t.minute ++ ':' :: zeroPad 2 t.second

/-- The text `HH:MM:SS`, with six fraction digits when the microseconds are not zero. -/
def PyTime.isoformat (t : PyTime) : Text :=
  if t.microsecond = 0 then t.seconds else t.seconds ++ '.' :: zeroPad 6 t.microsecond

/-- A value of a row as the driver returns it.  A float carries its exact value and the
text of its shortest representation. -/
inductive PyValue where
  | none
  | bool (b : Bool)
  | int (n : ℤ)
  | float (value : ℚ) (text : Text)
  | decimal (d : Decimal)
  | str (s : Text)
  | date (d : PyDate)
  | time (t : PyTime)
  | datetime (d : PyDate) (t : PyTime)
deriving DecidableEq

namespace PyValue

/-- The exact value of a number. -/
def numeric? : PyValue → Option ℚ
  | bool b => some (if b then 1 else 0)
  | int n => some n
  | float value _ => some value
  | decimal d => some d.value
  | _ => Option.none

/-- The text of a value. -/
def text : PyValue → Text
  | none => "None".toList
  | bool b => if b then "True".toList else "False".toList
  | int n => intText n
  | float _ text => text
  | decimal d => d.text
  | str s => s
  | date d => d.isoformat
  | time t => t.isoformat
  | datetime d t => d.isoformat ++ ' ' :: t.isoformat

/-- Numbers are compared by exact value, other values as they are. -/
def equal (a b : PyValue) : Bool :=
  match a.numeric?, b.numeric? with
  | some x, some y => decide (x = y)
  | Option.none, Option.none => decide (a = b)
  | _, _ => false

instance : BEq PyValue := ⟨equal⟩

theorem beq_iff (a b : PyValue) :
  (a == b) = true
    ↔ (∃ x, a.numeric? = some x ∧ b.numeric? = some x)
      ∨ (a.numeric? = Option.none ∧ a = b)
  := by
  show equal a b = true ↔ _
  rw [equal]
  split
  · rename_i x y hx hy
    simp [hx, hy, eq_comm]
  · rename_i hx hy
    simp [hx]
  · rename_i hsome hnone
    constructor
    · intro h
      cases h
    · rintro (⟨x, hx, hy⟩ | ⟨hx, rfl⟩)
      · apply (hsome x x hx hy).elim
      · apply (hnone hx hx).elim

instance : EquivBEq PyValue where
  rfl := by
    intro a
    apply (beq_iff a a).mpr
    cases h : a.numeric? with
    | none =>
        right
        exact ⟨rfl, rfl⟩
    | some x =>
        left
        exact ⟨x, rfl, rfl⟩
  symm := by
    intro a b h
    apply (beq_iff b a).mpr
    rcases (beq_iff a b).mp h with ⟨x, ha, hb⟩ | ⟨ha, rfl⟩
    · left
      exact ⟨x, hb, ha⟩
    · right
      exact ⟨ha, rfl⟩
  trans := by
    intro a b c hab hbc
    apply (beq_iff a c).mpr
    rcases (beq_iff a b).mp hab with ⟨x, ha, hb⟩ | ⟨ha, rfl⟩
    · rcases (beq_iff b c).mp hbc with ⟨y, hb', hc⟩ | ⟨hb', -⟩
      · left
        rw [hb] at hb'
        cases hb'
        exact ⟨x, ha, hc⟩
      · rw [hb] at hb'
        cases hb'
    · apply (beq_iff a c).mp hbc

/-- Integers compare equal exactly when they are equal. -/
theorem int_beq_int (m n : ℤ) :
  (int m == int n) = decide (m = n)
  := by
  show equal (int m) (int n) = _
  simp [equal, numeric?]

end PyValue

/-! ### The order of primary keys -/

/-- The quotient rounded to the nearest integer, halves to the even one. -/
def roundHalfEven (q : ℚ) : ℤ :=
  let low := ⌊q⌋
  let rest := q - low
  if rest < 1 / 2 then low
  else if 1 / 2 < rest then low + 1
  else if low % 2 = 0 then low else low + 1

/-- The double-precision number nearest to a rational, before the exponent range is
checked: 53 significant bits, and no bit below `2 ^ -1074`. -/
def roundDouble (q : ℚ) : ℚ :=
  if q = 0 then 0
  else
    let unit : ℤ := max (Int.log 2 |q| - 52) (-1074)
    roundHalfEven (q / (2 : ℚ) ^ unit) * (2 : ℚ) ^ unit

/-- Whether a rounded number lies outside the range of double precision. -/
def overflowsDouble (q : ℚ) : Bool := decide ((2 : ℚ) ^ (1024 : ℕ) ≤ |q|)

/-- One component of a sort key: a tier, a double-precision number (below, inside or
above the finite range) and a text. -/
structure SortComponent where
  tier : ℕ
  range : ℤ
  number : ℚ
  text : Text

/-- The component of a number whose conversion to double precision saturates. -/
def saturating (q : ℚ) (text : Text) : SortComponent :=
  let r := roundDouble q
  if overflowsDouble r then ⟨1, if 0 < q then 1 else -1, 0, text⟩ else ⟨1, 0, r, text⟩

/-- The sort component of one value of a primary key. -/
def sortComponent (value : PyValue) : SortComponent :=
  match value with
  | .none => ⟨0, 0, 0, []⟩
  | .bool b => ⟨1, 0, if b then 1 else 0, value.text⟩
  | .int n =>
      -- converting an integer out of range raises, and the text decides instead
      if overflowsDouble (roundDouble n) then ⟨2, 0, 0, value.text⟩
      else ⟨1, 0, roundDouble n, value.text⟩
  | .float q _ => ⟨1, 0, q, value.text⟩
  | .decimal d => saturating d.value value.text
  | _ => ⟨2, 0, 0, value.text⟩

/-- The sort key of a primary key. -/
def comparePkSortKey (pk : List PyValue) : List SortComponent := pk.map sortComponent

/-- Rationals compared by value. -/
def compareRat (p q : ℚ) : Ordering :=
  if p < q then .lt else if p = q then .eq else .gt

/-- Texts compared by code point, a proper prefix first. -/
def compareText : Text → Text → Ordering
  | [], [] => .eq
  | [], _ :: _ => .lt
  | _ :: _, [] => .gt
  | c :: s, d :: t => (compare c.toNat d.toNat).then (compareText s t)

/-- Components compared by tier, then number, then text. -/
def SortComponent.compare (a b : SortComponent) : Ordering :=
  (Ord.compare a.tier b.tier).then
    ((Ord.compare a.range b.range).then
      ((compareRat a.number b.number).then (compareText a.text b.text)))

/-- Sort keys compared componentwise, a proper prefix first. -/
def compareSortKeys : List SortComponent → List SortComponent → Ordering
  | [], [] => .eq
  | [], _ :: _ => .lt
  | _ :: _, [] => .gt
  | a :: as, b :: bs => (a.compare b).then (compareSortKeys as bs)

/-- Primary keys sorted by their sort keys, keys of equal rank in the given order. -/
def sortedCompareKeys (keys : List (List PyValue)) : List (List PyValue) :=
  keys.mergeSort
    (fun a b => compareSortKeys (comparePkSortKey a) (comparePkSortKey b) != .gt)

theorem sortedCompareKeys_perm (keys : List (List PyValue)) :
  (sortedCompareKeys keys).Perm keys
  := by
  apply List.mergeSort_perm

end Compare

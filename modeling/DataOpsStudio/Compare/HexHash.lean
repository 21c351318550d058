import DataOpsStudio.Compare.Normalize
import DataOpsStudio.Library.Outcome
import DataOpsStudio.Library.Positional

/-!
# The hash of a row inside the database

The database has the digest of a row as a text of hexadecimal digits and turns the first
sixteen of them into a number, by two expressions that are built for different databases.
Both denote the number that the client reads off the first eight bytes of the digest, and
no value on the way, the sum over the rows of a segment included, is too large for the
decimal type it is cast to.
-/

namespace Compare

open Text

/-! ### Digests -/

/-- The sixteen bytes of an MD5 digest. -/
structure Digest where
  bytes : List UInt8
  length_eq : bytes.length = 16

/-- The number of bytes, the first the most significant. -/
def fromBytesBig (bytes : List UInt8) : ℕ := positional 256 (bytes.map UInt8.toNat)

/-- The hash of a row: the first eight bytes of its digest as a number. -/
def Digest.hash64 (digest : Digest) : ℕ := fromBytesBig (digest.bytes.take 8)

theorem Digest.hash64_lt (digest : Digest) :
  digest.hash64 < 2 ^ 64
  := by
  have hlt : positional 256 ((digest.bytes.take 8).map UInt8.toNat)
      < 256 ^ ((digest.bytes.take 8).map UInt8.toNat).length := by
    apply positional.lt_pow
    intro d hd
    obtain ⟨b, -, rfl⟩ := List.mem_map.mp hd
    apply b.toNat_lt
  rw [List.length_map, List.length_take, digest.length_eq] at hlt
  apply hlt

/-- A library whose hash is the one of a digest function. -/
def Builtins.withMd5 (lib : Builtins) (md5 : Text → Digest) : Builtins :=
  { lib with
    hash64 := fun s => (md5 s).hash64
    hash64_lt := fun s => (md5 s).hash64_lt }

/-- The hexadecimal digits in their order. -/
def hexDigits : Text := "0123456789ABCDEF".toList

/-- The character of a digit below sixteen. -/
def hexDigit (d : ℕ) : Char := hexDigits.getD d '0'

/-- The text of bytes: two upper-case digits a byte. -/
def rawToHex (bytes : List UInt8) : Text :=
  (bytes.map UInt8.toNat).flatMap (fun b => (positional.halves 16 b).map hexDigit)

/-! ### Expressions -/

/-- The expressions over a text of hexadecimal digits that are built. -/
inductive HexExpr where
  | hex
  | nat (n : ℕ)
  | substr (e : HexExpr) (start length : ℕ)
  | toNumber (e : HexExpr) (format : Text)
  | instr (s : Text) (e : HexExpr)
  | castDecimal (e : HexExpr)
  | paren (e : HexExpr)
  | mul (a b : HexExpr)
  | add (a b : HexExpr)
  | sub (a b : HexExpr)

namespace HexExpr

/-- The text of an expression, over the text of the one for the digits.  A product binds
more strongly than a sum, and what is cast stands between parentheses of the cast. -/
def render (hexExpr : Text) : HexExpr → Text
  | hex => hexExpr
  | nat n => natText n
  | substr e start length =>
      "SUBSTR(".toList ++ e.render hexExpr ++ ", ".toList ++ natText start ++ ", ".toList
        ++ natText length ++ ")".toList
  | toNumber e format =>
      "TO_NUMBER(".toList ++ e.render hexExpr ++ ", '".toList ++ format ++ "')".toList
  | instr s e => "INSTR('".toList ++ s ++ "', ".toList ++ e.render hexExpr ++ ")".toList
  | castDecimal e => "CAST(".toList ++ e.render hexExpr ++ " AS DECIMAL(38,0))".toList
  | paren e => "(".toList ++ e.render hexExpr ++ ")".toList
  | mul a b => a.render hexExpr ++ " * ".toList ++ b.render hexExpr
  | add a b => a.render hexExpr ++ " + ".toList ++ b.render hexExpr
  | sub a b => a.render hexExpr ++ " - ".toList ++ b.render hexExpr

/-- An expression and all its parts. -/
def parts : HexExpr → List HexExpr
  | hex => [hex]
  | nat n => [nat n]
  | substr e start length => substr e start length :: e.parts
  | toNumber e format => toNumber e format :: e.parts
  | instr s e => instr s e :: e.parts
  | castDecimal e => castDecimal e :: e.parts
  | paren e => paren e :: e.parts
  | mul a b => mul a b :: (a.parts ++ b.parts)
  | add a b => add a b :: (a.parts ++ b.parts)
  | sub a b => sub a b :: (a.parts ++ b.parts)

end HexExpr

/-- The two ways to turn digits into a number. -/
inductive HexMode where
  | toNumber
  | nested
deriving DecidableEq

/-- Two halves of 32 bits, put together by the weight of the high one. -/
def hexPrefixToUint64Halves : HexExpr :=
  let high := .toNumber (.substr .hex 1 8) (List.replicate 8 'X')
  let low := .toNumber (.substr .hex 9 8) (List.replicate 8 'X')
  .add (.mul (.castDecimal high) (.castDecimal (.nat 4294967296))) (.castDecimal low)

/-- The digit at a place, by its place among the digits. -/
def hexDigitToDecimal (idx : ℕ) : HexExpr :=
  .castDecimal (.paren (.sub (.instr hexDigits (.substr .hex idx 1)) (.nat 1)))

/-- The number of the first `n` digits, one digit after the other. -/
def hexPrefixNested : ℕ → HexExpr
  | 0 => .castDecimal (.nat 0)
  | n + 1 =>
      .castDecimal (.paren (.add (.paren (.mul (hexPrefixNested n) (.castDecimal (.nat 16))))
        (hexDigitToDecimal (n + 1))))

/-- The nested expression of sixteen digits. -/
def hexPrefixToUint64Nested : HexExpr := hexPrefixNested 16

/-- The expression for the first sixteen digits as an unsigned number. -/
def hexToUint64Expression : HexMode → HexExpr
  | .toNumber => hexPrefixToUint64Halves
  | .nested => hexPrefixToUint64Nested

/-! ### What expressions denote -/

/-- A value of an expression. -/
inductive HexValue where
  | number (n : ℤ)
  | text (s : Text)
deriving DecidableEq

/-- The number that a value is. -/
def HexValue.number? : HexValue → Option ℤ
  | number n => some n
  | text _ => none

/-- The text that a value is. -/
def HexValue.text? : HexValue → Option Text
  | number _ => none
  | text s => some s

/-- Whether a number has a value of type `DECIMAL(38,0)`. -/
def FitsDecimal (n : ℤ) : Prop := n.natAbs < 10 ^ 38

instance (n : ℤ) : Decidable (FitsDecimal n) := inferInstanceAs (Decidable (_ < _))

/-- A cast, which raises for a number that does not fit. -/
def castDecimal (n : ℤ) : Option ℤ := if FitsDecimal n then some n else none

/-- The part of a text from a place on, places counted from one.  An empty part is the
missing value. -/
def substr (s : Text) (start length : ℕ) : Option Text :=
  match (s.drop (start - 1)).take length with
  | [] => none
  | part => some part

/-- The first place of a text at which another one stands, counted from one, or zero. -/
def instr (s part : Text) : ℕ :=
  match s.tails.findIdx? (fun rest => part.isPrefixOf rest) with
  | some i => i + 1
  | none => 0

/-- Sixty-four bits read as a signed number. -/
def signed64 (n : ℕ) : ℤ := if n < 2 ^ 63 then n else n - 2 ^ 64

/-- The number of a text of hexadecimal digits under a format of as many marks at least.
Sixteen digits are read as a signed number. -/
def toNumber (s format : Text) : Option ℤ :=
  if s.length ≤ format.length ∧ ∀ c ∈ s, c ∈ hexDigits then
    some (signed64 (positional 16 (s.map (fun c => hexDigits.idxOf c))))
  else none

/-- The value of an expression, if it has one, over a text of digits. -/
def HexExpr.denote (h : Text) : HexExpr → Option HexValue
  | hex => some (.text h)
  | nat n => some (.number n)
  | substr e start length => do
      let s ← (← e.denote h).text?
      (Compare.substr s start length).map .text
  | toNumber e format => do
      let s ← (← e.denote h).text?
      (Compare.toNumber s format).map .number
  | instr s e => do
      let part ← (← e.denote h).text?
      some (.number (Compare.instr s part))
  | castDecimal e => do
      let n ← (← e.denote h).number?
      (Compare.castDecimal n).map .number
  | paren e => e.denote h
  | mul a b => do
      let m ← (← a.denote h).number?
      let n ← (← b.denote h).number?
      some (.number (m * n))
  | add a b => do
      let m ← (← a.denote h).number?
      let n ← (← b.denote h).number?
      some (.number (m + n))
  | sub a b => do
      let m ← (← a.denote h).number?
      let n ← (← b.denote h).number?
      some (.number (m - n))

section Denote

variable (h : Text) (a b e : HexExpr)

theorem HexExpr.denote_substr (start length : ℕ) :
  (substr e start length).denote h = (do
    let s ← (← e.denote h).text?
    (Compare.substr s start length).map .text)
  := rfl

theorem HexExpr.denote_toNumber (format : Text) :
  (toNumber e format).denote h = (do
    let s ← (← e.denote h).text?
    (Compare.toNumber s format).map .number)
  := rfl

theorem HexExpr.denote_instr (s : Text) :
  (instr s e).denote h = (do
    let part ← (← e.denote h).text?
    some (.number (Compare.instr s part)))
  := rfl

theorem HexExpr.denote_castDecimal :
  (castDecimal e).denote h = (do
    let n ← (← e.denote h).number?
    (Compare.castDecimal n).map .number)
  := rfl

theorem HexExpr.denote_paren : (paren e).denote h = e.denote h := rfl

theorem HexExpr.denote_mul :
  (mul a b).denote h = (do
    let m ← (← a.denote h).number?
    let n ← (← b.denote h).number?
    some (.number (m * n)))
  := rfl

theorem HexExpr.denote_add :
  (add a b).denote h = (do
    let m ← (← a.denote h).number?
    let n ← (← b.denote h).number?
    some (.number (m + n)))
  := rfl

theorem HexExpr.denote_sub :
  (sub a b).denote h = (do
    let m ← (← a.denote h).number?
    let n ← (← b.denote h).number?
    some (.number (m - n)))
  := rfl

end Denote

/-- One more row of a sum, which raises when a number on the way does not fit. -/
def addHash (mode : HexMode) (total : ℤ) (h : Text) : Option ℤ := do
  let n ← (← (hexToUint64Expression mode).denote h).number?
  castDecimal (total + (← castDecimal n))

/-- The sum of the hashes of the rows with the given texts, zero if there are no rows. -/
def aggregateHash (mode : HexMode) (hexes : List Text) : Option ℤ :=
  hexes.foldlM (addHash mode) 0

/-! ### Digits of a digest -/

theorem instr_hexDigit {d : ℕ} (h : d < 16) :
  instr hexDigits [hexDigit d] = d + 1
  := by
  revert d
  decide

theorem idxOf_hexDigit {d : ℕ} (h : d < 16) :
  hexDigits.idxOf (hexDigit d) = d
  := by
  revert d
  decide

theorem hexDigit_mem {d : ℕ} (h : d < 16) :
  hexDigit d ∈ hexDigits
  := by
  revert d
  decide

/-- The digits of the bytes of a digest. -/
def Digest.digits (digest : Digest) : List ℕ :=
  (digest.bytes.map UInt8.toNat).flatMap (positional.halves 16)

theorem rawToHex_digest (digest : Digest) :
  rawToHex digest.bytes = digest.digits.map hexDigit
  := by rw [rawToHex, Digest.digits, List.map_flatMap]

theorem Digest.lt_of_mem_digits {digest : Digest} {d : ℕ} (h : d ∈ digest.digits) :
  d < 16
  := by
  obtain ⟨n, hn, hd⟩ := List.mem_flatMap.mp h
  obtain ⟨b, -, rfl⟩ := List.mem_map.mp hn
  have hb := b.toNat_lt
  simp only [positional.halves, List.mem_cons, List.not_mem_nil, or_false] at hd
  omega

theorem take_flatMap_halves (base : ℕ) (l : List ℕ) (n : ℕ) :
  (l.flatMap (positional.halves base)).take (2 * n) = (l.take n).flatMap (positional.halves base)
  := by
  induction n generalizing l with
  | zero => simp
  | succ n ih =>
      cases l with
      | nil => rfl
      | cons d l =>
          rw [List.flatMap_cons, List.take_succ_cons, List.flatMap_cons, ← ih l]
          rfl

/-- The first sixteen digits are those of the first eight bytes. -/
theorem Digest.positional_take_digits (digest : Digest) :
  positional 16 (digest.digits.take 16) = digest.hash64
  := by
  rw [Digest.digits, take_flatMap_halves 16 _ 8, positional.flatMap_halves, Digest.hash64,
    fromBytesBig, List.map_take]

theorem Digest.length_digits (digest : Digest) :
  digest.digits.length = 32
  := by
  rw [Digest.digits, List.length_flatMap, List.map_map]
  have hconst : (digest.bytes.map ((fun d => (positional.halves 16 d).length) ∘ UInt8.toNat))
      = digest.bytes.map (fun _ => 2) := rfl
  rw [hconst, List.map_const', List.sum_replicate, digest.length_eq]
  rfl

/-! ### What the expressions denote -/

theorem fitsDecimal_natCast {n : ℕ} :
  FitsDecimal n ↔ n < 10 ^ 38
  := by rw [FitsDecimal, Int.natAbs_natCast]

theorem castDecimal_of_fits {n : ℤ} (h : FitsDecimal n) :
  castDecimal n = some n
  := if_pos h

theorem HexExpr.mem_parts (e : HexExpr) :
  e ∈ e.parts
  := by cases e <;> apply List.mem_cons_self

/-- A number that a part of an expression denotes fits the decimal type. -/
def Bounded (h : Text) (e : HexExpr) : Prop :=
  ∀ part ∈ e.parts, ∀ n, part.denote h = some (.number n) → FitsDecimal n

namespace Bounded

variable {h : Text} {a b e : HexExpr}

/-- One more step keeps an expression bounded when its own value fits. -/
theorem of_parts {step : HexExpr} {rest : List HexExpr} (hparts : step.parts = step :: rest)
    (hrest : ∀ part ∈ rest, ∀ n, part.denote h = some (.number n) → FitsDecimal n)
    (hstep : ∀ n, step.denote h = some (.number n) → FitsDecimal n) :
  Bounded h step
  := by
  intro part hpart
  rw [hparts] at hpart
  rcases List.mem_cons.mp hpart with rfl | hpart
  · apply hstep
  · apply hrest part hpart

theorem castDecimal (he : Bounded h e) :
  Bounded h (.castDecimal e)
  := by
  apply of_parts rfl he
  intro n hn
  simp only [HexExpr.denote_castDecimal, Option.bind_eq_bind, Option.bind_eq_some_iff,
    Option.map_eq_some_iff, Compare.castDecimal] at hn
  obtain ⟨-, -, m, -, k, hk, hkn⟩ := hn
  split at hk
  · rename_i hfits
    obtain rfl := Option.some.inj hk
    obtain rfl := HexValue.number.inj hkn
    apply hfits
  · cases hk

theorem paren (he : Bounded h e) :
  Bounded h (.paren e)
  := of_parts rfl he (he e e.mem_parts)

theorem binary {step : HexExpr} (hparts : step.parts = step :: (a.parts ++ b.parts))
    (ha : Bounded h a) (hb : Bounded h b) {n : ℤ} (hn : step.denote h = some (.number n))
    (hfits : FitsDecimal n) :
  Bounded h step
  := by
  apply of_parts hparts
  · intro part hpart
    rcases List.mem_append.mp hpart with hpart | hpart
    · apply ha part hpart
    · apply hb part hpart
  · intro m hm
    obtain rfl := HexValue.number.inj (Option.some.inj (hn.symm.trans hm))
    apply hfits

theorem hex : Bounded h .hex
  := by
  apply of_parts rfl (by simp)
  intro n hn
  cases Option.some.inj hn

theorem nat {n : ℕ} (hn : n < 10 ^ 38) :
  Bounded h (.nat n)
  := by
  apply of_parts rfl (by simp)
  intro m hm
  obtain rfl := HexValue.number.inj (Option.some.inj hm)
  apply fitsDecimal_natCast.mpr hn

theorem substr (he : Bounded h e) (start length : ℕ) :
  Bounded h (.substr e start length)
  := by
  apply of_parts rfl he
  intro n hn
  simp only [HexExpr.denote_substr, Option.bind_eq_bind, Option.bind_eq_some_iff,
    Option.map_eq_some_iff, reduceCtorEq, and_false, exists_false] at hn

theorem unary {step : HexExpr} (hparts : step.parts = step :: e.parts) (he : Bounded h e) {n : ℤ}
    (hn : step.denote h = some (.number n)) (hfits : FitsDecimal n) :
  Bounded h step
  := by
  apply of_parts hparts he
  intro m hm
  obtain rfl := HexValue.number.inj (Option.some.inj (hn.symm.trans hm))
  apply hfits

end Bounded

section Digits

variable {digits : List ℕ} (hdigits : ∀ d ∈ digits, d < 16)

include hdigits

theorem positional_lt_of_length_le {n : ℕ} (h : digits.length ≤ n) :
  positional 16 digits < 16 ^ n
  := lt_of_lt_of_le (positional.lt_pow hdigits) (Nat.pow_le_pow_right (by decide) h)

/-- Eight digits are read as the number that they are. -/
theorem toNumber_digits (h : digits.length ≤ 8) :
  toNumber (digits.map hexDigit) (List.replicate 8 'X') = some (positional 16 digits : ℤ)
  := by
  have hmem : ∀ c ∈ digits.map hexDigit, c ∈ hexDigits := by
    intro c hc
    obtain ⟨d, hd, rfl⟩ := List.mem_map.mp hc
    apply hexDigit_mem (hdigits d hd)
  have hvalue : (digits.map hexDigit).map (fun c => hexDigits.idxOf c) = digits := by
    rw [List.map_map]
    calc digits.map ((fun c => hexDigits.idxOf c) ∘ hexDigit)
        = digits.map id := List.map_congr_left (fun d hd => idxOf_hexDigit (hdigits d hd))
      _ = digits := List.map_id digits
  rw [toNumber, if_pos ⟨by rw [List.length_map, List.length_replicate]; apply h, hmem⟩, hvalue,
    signed64, if_pos]
  apply lt_trans (positional_lt_of_length_le hdigits h)
  decide

end Digits

/-- The part of the text from a place on, in digits. -/
theorem denote_substr_hex {digits : List ℕ} (start : ℕ) {length : ℕ} (hlength : 0 < length)
    (hle : start - 1 + length ≤ digits.length) :
  (HexExpr.substr .hex start length).denote (digits.map hexDigit)
    = some (.text (((digits.drop (start - 1)).take length).map hexDigit))
  := by
  have hpart : ((digits.map hexDigit).drop (start - 1)).take length
      = ((digits.drop (start - 1)).take length).map hexDigit := by
    rw [List.map_take, List.map_drop]
  show (Compare.substr (digits.map hexDigit) start length).map HexValue.text = _
  rw [Compare.substr, hpart]
  split
  · rename_i hnil
    have hzero := congrArg List.length hnil
    rw [List.length_map, List.length_take, List.length_drop, List.length_nil] at hzero
    omega
  · rfl

theorem denote_castDecimal {h : Text} {e : HexExpr} {n : ℤ} (he : e.denote h = some (.number n))
    (hfits : FitsDecimal n) :
  (HexExpr.castDecimal e).denote h = some (.number n)
  := by
  rw [HexExpr.denote_castDecimal, he]
  show (castDecimal n).map HexValue.number = _
  rw [castDecimal_of_fits hfits]
  rfl

/-- The expression for a digit denotes the digit. -/
theorem denote_hexDigitToDecimal {digits : List ℕ} (hdigits : ∀ d ∈ digits, d < 16) {n : ℕ}
    (hn : n < digits.length) :
  (hexDigitToDecimal (n + 1)).denote (digits.map hexDigit) = some (.number digits[n])
    ∧ Bounded (digits.map hexDigit) (hexDigitToDecimal (n + 1))
  := by
  have hlt : digits[n] < 16 := hdigits _ (List.getElem_mem hn)
  have hsub := denote_substr_hex (n + 1) Nat.one_pos
    (by omega : n + 1 - 1 + 1 ≤ digits.length)
  rw [Nat.add_sub_cancel, List.take_one_drop_eq_of_lt_length hn, List.map_singleton] at hsub
  have hinstr : (HexExpr.instr hexDigits (.substr .hex (n + 1) 1)).denote (digits.map hexDigit)
      = some (.number (digits[n] + 1 : ℕ)) := by
    rw [HexExpr.denote_instr, hsub]
    show some (HexValue.number (Compare.instr hexDigits [hexDigit digits[n]] : ℕ)) = _
    rw [instr_hexDigit hlt]
  have hdiff : (HexExpr.sub (.instr hexDigits (.substr .hex (n + 1) 1)) (.nat 1)).denote
      (digits.map hexDigit) = some (.number digits[n]) := by
    rw [HexExpr.denote_sub, hinstr]
    show some (HexValue.number ((digits[n] + 1 : ℕ) - (1 : ℕ))) = _
    rw [Nat.cast_add, add_sub_cancel_right]
  have hfits : FitsDecimal digits[n] := fitsDecimal_natCast.mpr (lt_trans hlt (by decide))
  constructor
  · apply denote_castDecimal _ hfits
    rw [HexExpr.denote_paren, hdiff]
  · apply Bounded.castDecimal
    apply Bounded.paren
    apply Bounded.binary rfl _ (Bounded.nat (by decide)) hdiff hfits
    apply Bounded.unary rfl (Bounded.substr Bounded.hex _ _) hinstr
    apply fitsDecimal_natCast.mpr
    apply lt_of_le_of_lt hlt (by decide)

/-- The nested expression of `n` digits denotes their number. -/
theorem denote_hexPrefixNested {digits : List ℕ} (hdigits : ∀ d ∈ digits, d < 16) {n : ℕ}
    (hlength : n ≤ digits.length) (hn : n ≤ 16) :
  (hexPrefixNested n).denote (digits.map hexDigit)
      = some (.number (positional 16 (digits.take n) : ℕ))
    ∧ Bounded (digits.map hexDigit) (hexPrefixNested n)
  := by
  have hbound : ∀ m ≤ 16, positional 16 (digits.take m) < 16 ^ 16 := by
    intro m hm
    apply positional_lt_of_length_le (fun d hd => hdigits d (List.mem_of_mem_take hd))
    apply le_trans (List.length_take_le _ _) hm
  induction n with
  | zero =>
      constructor
      · rfl
      · apply Bounded.castDecimal
        apply Bounded.nat
        decide
  | succ n ih =>
      obtain ⟨hvalue, hparts⟩ := ih (by omega) (by omega)
      obtain ⟨hdigit, hdigitParts⟩ := denote_hexDigitToDecimal hdigits hlength
      have hnext : positional 16 (digits.take (n + 1))
          = positional 16 (digits.take n) * 16 + digits[n] := by
        rw [List.take_succ_eq_append_getElem hlength, positional.append_singleton]
      have hlt := hbound (n + 1) hn
      have hmul : (HexExpr.mul (hexPrefixNested n) (.castDecimal (.nat 16))).denote
          (digits.map hexDigit) = some (.number (positional 16 (digits.take n) * 16 : ℕ)) := by
        rw [HexExpr.denote_mul, hvalue]
        rfl
      have hadd : (HexExpr.add (.paren (.mul (hexPrefixNested n) (.castDecimal (.nat 16))))
          (hexDigitToDecimal (n + 1))).denote (digits.map hexDigit)
          = some (.number (positional 16 (digits.take (n + 1)) : ℕ)) := by
        rw [HexExpr.denote_add, HexExpr.denote_paren, hmul, hdigit, hnext]
        rfl
      have hfits : FitsDecimal (positional 16 (digits.take (n + 1)) : ℕ) :=
        fitsDecimal_natCast.mpr (lt_trans hlt (by decide))
      have hfitsMul : FitsDecimal (positional 16 (digits.take n) * 16 : ℕ) := by
        apply fitsDecimal_natCast.mpr
        apply lt_of_le_of_lt _ (lt_trans hlt (by decide))
        rw [hnext]
        apply Nat.le_add_right
      rw [hexPrefixNested]
      constructor
      · apply denote_castDecimal _ hfits
        rw [HexExpr.denote_paren, hadd]
      · apply Bounded.castDecimal
        apply Bounded.paren
        apply Bounded.binary rfl _ hdigitParts hadd hfits
        apply Bounded.paren
        apply Bounded.binary rfl hparts _ hmul hfitsMul
        apply Bounded.castDecimal
        apply Bounded.nat
        decide

/-- Eight digits are read as the number that they are, from any place on. -/
theorem denote_half {digits : List ℕ} (hdigits : ∀ d ∈ digits, d < 16) (start : ℕ)
    (hstart : start - 1 + 8 ≤ digits.length) :
  (HexExpr.castDecimal (.toNumber (.substr .hex start 8) (List.replicate 8 'X'))).denote
        (digits.map hexDigit)
      = some (.number (positional 16 ((digits.drop (start - 1)).take 8) : ℕ))
    ∧ Bounded (digits.map hexDigit)
        (.castDecimal (.toNumber (.substr .hex start 8) (List.replicate 8 'X')))
  := by
  have hhalf : ∀ d ∈ (digits.drop (start - 1)).take 8, d < 16 :=
    fun d hd => hdigits d (List.mem_of_mem_drop (List.mem_of_mem_take hd))
  have hlt := positional_lt_of_length_le hhalf (List.length_take_le 8 _)
  have hnumber : (HexExpr.toNumber (.substr .hex start 8) (List.replicate 8 'X')).denote
      (digits.map hexDigit)
      = some (.number (positional 16 ((digits.drop (start - 1)).take 8) : ℕ)) := by
    rw [HexExpr.denote_toNumber, denote_substr_hex start (by decide) hstart]
    show (toNumber _ _).map HexValue.number = _
    rw [toNumber_digits hhalf (List.length_take_le _ _)]
    rfl
  have hfits := fitsDecimal_natCast.mpr (lt_trans hlt (by decide))
  constructor
  · apply denote_castDecimal hnumber hfits
  · apply Bounded.castDecimal
    apply Bounded.unary rfl (Bounded.substr Bounded.hex _ _) hnumber hfits

/-- The two halves denote the number of sixteen digits. -/
theorem denote_hexPrefixToUint64Halves {digits : List ℕ} (hdigits : ∀ d ∈ digits, d < 16)
    (hlength : 16 ≤ digits.length) :
  hexPrefixToUint64Halves.denote (digits.map hexDigit)
      = some (.number (positional 16 (digits.take 16) : ℕ))
    ∧ Bounded (digits.map hexDigit) hexPrefixToUint64Halves
  := by
  obtain ⟨hhigh, hhighParts⟩ := denote_half hdigits 1 (by omega)
  obtain ⟨hlow, hlowParts⟩ := denote_half hdigits 9 (by omega)
  have hsplit : positional 16 (digits.take 16)
      = positional 16 (digits.take 8) * 4294967296 + positional 16 ((digits.drop 8).take 8) := by
    rw [List.take_add (i := 8) (j := 8), positional.append, List.length_take, List.length_drop,
      min_eq_left (by omega)]
    rfl
  have hlt : positional 16 (digits.take 16) < 16 ^ 16 := by
    apply positional_lt_of_length_le (fun d hd => hdigits d (List.mem_of_mem_take hd))
    apply List.length_take_le
  have hscale : (HexExpr.castDecimal (.nat 4294967296)).denote (digits.map hexDigit)
      = some (.number (4294967296 : ℕ)) := by
    apply denote_castDecimal rfl
    decide
  have hmul : (HexExpr.mul (.castDecimal (.toNumber (.substr .hex 1 8) (List.replicate 8 'X')))
      (.castDecimal (.nat 4294967296))).denote (digits.map hexDigit)
      = some (.number (positional 16 (digits.take 8) * 4294967296 : ℕ)) := by
    rw [HexExpr.denote_mul, hhigh, hscale]
    rfl
  have hadd : hexPrefixToUint64Halves.denote (digits.map hexDigit)
      = some (.number (positional 16 (digits.take 16) : ℕ)) := by
    rw [hexPrefixToUint64Halves, HexExpr.denote_add, hmul, hlow, hsplit]
    rfl
  have hfits : FitsDecimal (positional 16 (digits.take 16) : ℕ) :=
    fitsDecimal_natCast.mpr (lt_trans hlt (by decide))
  have hfitsMul : FitsDecimal (positional 16 (digits.take 8) * 4294967296 : ℕ) := by
    apply fitsDecimal_natCast.mpr
    apply lt_of_le_of_lt _ (lt_trans hlt (by decide))
    rw [hsplit]
    apply Nat.le_add_right
  refine ⟨hadd, ?_⟩
  apply Bounded.binary rfl _ hlowParts hadd hfits
  apply Bounded.binary rfl hhighParts _ hmul hfitsMul
  apply Bounded.castDecimal
  apply Bounded.nat
  decide

/-! ### The hash of a digest -/

/-- Both expressions denote the hash of the digest, over its text. -/
theorem denote_hexToUint64Expression (mode : HexMode) (digest : Digest) :
  (hexToUint64Expression mode).denote (rawToHex digest.bytes) = some (.number digest.hash64)
    ∧ Bounded (rawToHex digest.bytes) (hexToUint64Expression mode)
  := by
  have hdigits : ∀ d ∈ digest.digits, d < 16 := fun d hd => Digest.lt_of_mem_digits hd
  have hlength : 16 ≤ digest.digits.length := by
    rw [digest.length_digits]
    decide
  rw [rawToHex_digest, ← digest.positional_take_digits]
  cases mode with
  | toNumber => apply denote_hexPrefixToUint64Halves hdigits hlength
  | nested => apply denote_hexPrefixNested hdigits hlength (le_refl 16)

theorem addHash_digest (mode : HexMode) (digest : Digest) {total : ℕ}
    (h : total + digest.hash64 < 10 ^ 38) :
  addHash mode total (rawToHex digest.bytes) = some ((total + digest.hash64 : ℕ) : ℤ)
  := by
  have hvalue : castDecimal (digest.hash64 : ℤ) = some (digest.hash64 : ℤ) := by
    apply castDecimal_of_fits
    apply fitsDecimal_natCast.mpr
    omega
  have hsum : castDecimal ((total + digest.hash64 : ℕ) : ℤ)
      = some ((total + digest.hash64 : ℕ) : ℤ) := by
    apply castDecimal_of_fits
    apply fitsDecimal_natCast.mpr h
  rw [addHash, (denote_hexToUint64Expression mode digest).1]
  show (castDecimal (digest.hash64 : ℤ)).bind (fun n => castDecimal (total + n)) = _
  rw [hvalue, Option.bind_some, ← Nat.cast_add, hsum]

theorem sum_hash64_le (digests : List Digest) :
  (digests.map Digest.hash64).sum ≤ digests.length * 2 ^ 64
  := by
  induction digests with
  | nil => rfl
  | cons digest digests ih =>
      have hlt := digest.hash64_lt
      rw [List.map_cons, List.sum_cons, List.length_cons, Nat.succ_mul]
      omega

/-- A sum goes on from a number when all the rows leave room for it. -/
theorem foldlM_addHash (mode : HexMode) (digests : List Digest) (total : ℕ)
    (h : total + digests.length * 2 ^ 64 < 10 ^ 38) :
  (digests.map (fun digest => rawToHex digest.bytes)).foldlM (addHash mode) (total : ℤ)
    = some ((total + (digests.map Digest.hash64).sum : ℕ) : ℤ)
  := by
  induction digests generalizing total with
  | nil => rfl
  | cons digest digests ih =>
      have hlt := digest.hash64_lt
      rw [List.length_cons, Nat.succ_mul] at h
      rw [List.map_cons, List.foldlM_cons, addHash_digest mode digest (by omega)]
      rw [Option.bind_eq_bind, Option.bind_some, ih (total + digest.hash64) (by omega),
        List.map_cons, List.sum_cons, Nat.add_assoc]

/-- The database and the client have the same hash of every row and the same sum of the
hashes of up to `10 ^ 18` rows, and no value on the way is too large for its type. -/
theorem hexToUint64Expression_eq_compareRowHash64 (lib : Builtins) (md5 : Text → Digest)
    (mode : HexMode) :
  (∀ digest : Digest,
      (hexToUint64Expression mode).denote (rawToHex digest.bytes) = some (.number digest.hash64)
        ∧ ∀ part ∈ (hexToUint64Expression mode).parts, ∀ n,
          part.denote (rawToHex digest.bytes) = some (.number n) → FitsDecimal n)
    ∧ (∀ digests : List Digest, digests.length ≤ 10 ^ 18 →
      aggregateHash mode (digests.map (fun digest => rawToHex digest.bytes))
          = some ((digests.map Digest.hash64).sum : ℕ)
        ∧ FitsDecimal ((digests.map Digest.hash64).sum : ℕ))
    ∧ ∀ columns values rules hash,
      compareRowHash64 (lib.withMd5 md5) columns values rules = .ok hash →
      ∃ payload,
        normalizedComparePayload (lib.withMd5 md5) columns values rules = .ok payload
          ∧ (hexToUint64Expression mode).denote (rawToHex (md5 payload).bytes)
            = some (.number hash)
  := by
  refine ⟨denote_hexToUint64Expression mode, ?_, ?_⟩
  · intro digests hlength
    have hroom : 0 + digests.length * 2 ^ 64 < 10 ^ 38 := by omega
    have hsum := foldlM_addHash mode digests 0 hroom
    rw [Nat.zero_add] at hsum
    refine ⟨hsum, ?_⟩
    apply fitsDecimal_natCast.mpr
    apply lt_of_le_of_lt (sum_hash64_le digests)
    omega
  · intro columns values rules hash h
    rw [compareRowHash64, Outcome.map_eq_ok] at h
    obtain ⟨payload, hpayload, rfl⟩ := h
    refine ⟨payload, hpayload, ?_⟩
    apply (denote_hexToUint64Expression mode (md5 payload)).1

/-- The hash of a digest that begins with bytes of sixteen different digits. -/
example :
  (hexToUint64Expression .nested).denote "FEDCBA987654321000000000000000FF".toList
    = some (.number 0xFEDCBA9876543210)
  := by decide +kernel

end Compare

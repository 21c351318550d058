import DataOpsStudio.Compare.Locate
import Mathlib.Tactic.Ring

/-!
# What the statements locate

A statement selects exactly the rows of the keys when no key has a missing value, and every
character string is read as it is.  A database in which a backslash escapes the next character does
so only where every backslash stands in front of a wildcard, and one that takes the empty character
string for a missing value where no text is empty.
-/

namespace Locate

open Text SqlLexer Compare Sql

/-! ### Values -/

/-- The number of a float. -/
def FloatText.value (f : FloatText) : ℚ :=
  (if f.negative then -1 else 1) * (f.whole + digitsValue f.fraction / 10 ^ f.fraction.length)
    * 10 ^ f.exponent.getD 0

/-- The value of a key as a value of the database. -/
def KeyValue.value : KeyValue → SqlValue
  | .none => .null
  | .bool b => .number (if b then 1 else 0)
  | .int n => .number n
  | .float f => .number f.value
  | .str s => .text s

/-- Every backslash stands in front of a wildcard. -/
def Harmless : Text → Prop
  | [] => True
  | [c] => c ≠ '\\'
  | c :: d :: s => if c = '\\' then (d = '%' ∨ d = '_') ∧ Harmless s else Harmless (d :: s)

/-- A value is there, and its constant is read as the value. -/
def IsPlain (dbType : DbType) : KeyValue → Prop
  | .none => False
  | .str s =>
      (dbType.lexis.backslashEscapes = true → Harmless s) ∧ (emptyIsNull dbType = true → s ≠ [])
  | _ => True

/-- A statement selects exactly the rows of the keys, and the constants in it are read as the
values that they are written for. -/
structure Locates (dbType : DbType) (keys : Keys) (select : Select) : Prop where
  literals : ∀ row ∈ keys.rows, ∀ v ∈ row, readLiteral dbType (sqlLiteral v) = some (v.value, [])
  selects : ∀ quotedCols, keys.columns.mapM (quoteIdentifier dbType) = some quotedCols →
    ∀ row : List SqlValue, row.length = keys.columns.length →
      (Selects dbType quotedCols select.condition row
        ↔ row ∈ keys.rows.map (List.map KeyValue.value))

/-! ### Character strings -/

theorem doubled_cons (c : Char) (s : Text) :
  doubled '\'' (c :: s) = if c = '\'' then '\'' :: '\'' :: doubled '\'' s else c :: doubled '\'' s
  := by
  rw [doubled, List.flatMap_cons, ← doubled]
  split
  · rfl
  · rfl

/-- A character that neither closes the string nor escapes another stands for itself. -/
theorem readBody_cons {escapes : Bool} {c : Char} {s : Text} (hquote : c ≠ '\'')
    (hescape : ¬(escapes = true ∧ c = '\\')) (hs : s ≠ []) :
  readBody escapes (c :: s) = (readBody escapes s).map (fun (value, rest) => (c :: value, rest))
  := by
  cases s with
  | nil => exact absurd rfl hs
  | cons d s => rw [readBody, if_neg hquote, if_neg hescape]

theorem readBody_quotes (escapes : Bool) (s : Text) :
  readBody escapes ('\'' :: '\'' :: s)
    = (readBody escapes s).map (fun (value, rest) => ('\'' :: value, rest))
  := by
  rw [readBody, if_pos rfl, if_pos rfl]

theorem readBody_close {escapes : Bool} {rest : Text} (h : rest.head? ≠ some '\'') :
  readBody escapes ('\'' :: rest) = some ([], rest)
  := by
  cases rest with
  | nil => rfl
  | cons d rest => rw [readBody, if_pos rfl, if_neg (fun hd => h (congrArg some hd))]

theorem readBody_escape {d : Char} {s : Text} :
  readBody true ('\\' :: d :: s)
    = (readBody true s).map (fun (value, rest) => (escaped d ++ value, rest))
  := by
  rw [readBody, if_neg (by decide), if_pos ⟨rfl, rfl⟩]

theorem doubled_append_ne_nil (s rest : Text) :
  doubled '\'' s ++ '\'' :: rest ≠ []
  := List.append_ne_nil_of_right_ne_nil _ (List.cons_ne_nil _ _)

theorem readBody_standard (s : Text) {rest : Text} (hrest : rest.head? ≠ some '\'') :
  readBody false (doubled '\'' s ++ '\'' :: rest) = some (s, rest)
  := by
  induction s with
  | nil => exact readBody_close hrest
  | cons c s ih =>
      rw [doubled_cons]
      by_cases hquote : c = '\''
      · rw [if_pos hquote, List.cons_append, List.cons_append, readBody_quotes, hquote, ih]
        rfl
      · rw [if_neg hquote, List.cons_append, readBody_cons hquote (fun h => Bool.noConfusion h.1)
          (doubled_append_ne_nil s rest), ih]
        rfl

/-- A text is read back when every backslash in it stands in front of a wildcard. -/
theorem readBody_harmless {s rest : Text} (h : Harmless s) (hrest : rest.head? ≠ some '\'') :
  readBody true (doubled '\'' s ++ '\'' :: rest) = some (s, rest)
  := by
  induction s using Harmless.induct with
  | case1 => exact readBody_close hrest
  | case2 c =>
      have hnil : readBody true (doubled '\'' [] ++ '\'' :: rest) = some ([], rest) :=
        readBody_close hrest
      rw [doubled_cons]
      by_cases hquote : c = '\''
      · rw [if_pos hquote, List.cons_append, List.cons_append, readBody_quotes, hquote, hnil]
        rfl
      · rw [if_neg hquote, List.cons_append, readBody_cons hquote (fun hboth => h hboth.2)
          (doubled_append_ne_nil [] rest), hnil]
        rfl
  | case3 d s ih =>
      rw [Harmless, if_pos rfl] at h
      have hquote : d ≠ '\'' := by
        rintro rfl
        exact absurd h.1 (by decide)
      rw [doubled_cons, if_neg (by decide), List.cons_append, doubled_cons, if_neg hquote,
        List.cons_append, readBody_escape, ih h.2, escaped, if_pos h.1]
      rfl
  | case4 c d s hc ih =>
      rw [Harmless, if_neg hc] at h
      rw [doubled_cons]
      by_cases hquote : c = '\''
      · rw [if_pos hquote, List.cons_append, List.cons_append, readBody_quotes, hquote, ih h]
        rfl
      · rw [if_neg hquote, List.cons_append, readBody_cons hquote (fun hboth => hc hboth.2)
          (doubled_append_ne_nil (d :: s) rest), ih h]
        rfl

theorem readBody_doubled {escapes : Bool} {s rest : Text} (h : escapes = true → Harmless s)
    (hrest : rest.head? ≠ some '\'') :
  readBody escapes (doubled '\'' s ++ '\'' :: rest) = some (s, rest)
  := by
  cases escapes with
  | false => exact readBody_standard s hrest
  | true => exact readBody_harmless (h rfl) hrest

/-! ### Backslashes that escape -/

/-- When the first of two doubled quotes is escaped, the string does not end where it should. -/
theorem readBody_shifted (s : Text) (value : Text) :
  readBody true ('\'' :: (doubled '\'' s ++ ['\''])) ≠ some (value, [])
  := by
  induction s generalizing value with
  | nil =>
      rw [show doubled '\'' [] = [] from rfl, List.nil_append, readBody_quotes]
      intro h
      cases h
  | cons c s ih =>
      rw [doubled_cons]
      by_cases hquote : c = '\''
      · rw [if_pos hquote, List.cons_append, List.cons_append, readBody_quotes]
        intro h
        obtain ⟨⟨value', rest⟩, hread, heq⟩ := Option.map_eq_some_iff.mp h
        cases heq
        exact ih value' hread
      · have hclose : readBody true ('\'' :: (c :: (doubled '\'' s ++ ['\''])))
            = some ([], c :: (doubled '\'' s ++ ['\''])) :=
          readBody_close (fun h => hquote (Option.some.inj h))
        rw [if_neg hquote, List.cons_append, hclose]
        intro h
        cases h

theorem length_escaped {c : Char} (h : ¬(c = '%' ∨ c = '_')) :
  (escaped c).length = 1
  := by
  rw [escaped, if_neg h]
  split_ifs <;> rfl

/-- What is read is not longer than the text, and it is shorter when a backslash escapes. -/
theorem length_le_of_readBody {s value : Text}
    (h : readBody true (doubled '\'' s ++ ['\'']) = some (value, [])) :
  value.length ≤ s.length ∧ (value.length = s.length → Harmless s)
  := by
  induction s using Harmless.induct generalizing value with
  | case1 =>
      cases h
      exact ⟨le_rfl, fun _ => trivial⟩
  | case2 c =>
      by_cases hescape : c = '\\'
      · subst hescape
        cases h
      · refine ⟨?_, fun _ => hescape⟩
        have hread : readBody true (doubled '\'' [c] ++ ['\'']) = some ([c], []) :=
          readBody_harmless hescape (by decide)
        rw [hread] at h
        cases h
        exact le_rfl
  | case3 d s ih =>
      rw [doubled_cons, if_neg (by decide), List.cons_append, doubled_cons] at h
      by_cases hquote : d = '\''
      · rw [if_pos hquote, List.cons_append, List.cons_append, readBody_escape] at h
        obtain ⟨⟨value', rest⟩, hread, heq⟩ := Option.map_eq_some_iff.mp h
        cases heq
        exact absurd hread (readBody_shifted s value')
      · rw [if_neg hquote, List.cons_append, readBody_escape] at h
        obtain ⟨⟨value', rest⟩, hread, heq⟩ := Option.map_eq_some_iff.mp h
        cases heq
        obtain ⟨hle, hharmless⟩ := ih hread
        rw [Harmless, if_pos rfl, List.length_append, List.length_cons, List.length_cons]
        by_cases hwild : d = '%' ∨ d = '_'
        · rw [escaped, if_pos hwild, List.length_cons, List.length_singleton]
          exact ⟨by omega, fun heq => ⟨hwild, hharmless (by omega)⟩⟩
        · rw [length_escaped hwild]
          exact ⟨by omega, fun heq => by omega⟩
  | case4 c d s hc ih =>
      rw [Harmless, if_neg hc]
      have hvalue : ∃ value', readBody true (doubled '\'' (d :: s) ++ ['\'']) = some (value', [])
          ∧ value.length = value'.length + 1 := by
        rw [doubled_cons] at h
        by_cases hquote : c = '\''
        · rw [if_pos hquote, List.cons_append, List.cons_append, readBody_quotes] at h
          obtain ⟨⟨value', rest⟩, hread, heq⟩ := Option.map_eq_some_iff.mp h
          cases heq
          exact ⟨value', hread, rfl⟩
        · rw [if_neg hquote, List.cons_append, readBody_cons hquote (fun hboth => hc hboth.2)
            (doubled_append_ne_nil (d :: s) [])] at h
          obtain ⟨⟨value', rest⟩, hread, heq⟩ := Option.map_eq_some_iff.mp h
          cases heq
          exact ⟨value', hread, rfl⟩
      obtain ⟨value', hread, hlength⟩ := hvalue
      obtain ⟨hle, hharmless⟩ := ih hread
      rw [List.length_cons] at hle hharmless ⊢
      rw [List.length_cons, hlength]
      exact ⟨by omega, fun heq => hharmless (by omega)⟩

/-- A text is read back exactly when every backslash in it stands in front of a wildcard, where
backslashes escape. -/
theorem readBody_doubled_iff {escapes : Bool} {s : Text} :
  readBody escapes (doubled '\'' s ++ ['\'']) = some (s, []) ↔ (escapes = true → Harmless s)
  := by
  constructor
  · rintro h rfl
    exact (length_le_of_readBody h).2 rfl
  · exact fun h => readBody_doubled h (by decide)

/-! ### Numbers -/

/-- What may follow a constant: nothing, a comma or a parenthesis. -/
def EndsConstant (rest : Text) : Prop := ∀ c, rest.head? = some c → c = ',' ∨ c = ')'

theorem isDigit_of_endsConstant {rest : Text} (h : EndsConstant rest) :
  ∀ c ∈ rest.head?, c.isDigit = false
  := by
  intro c hc
  rcases h c hc with rfl | rfl
  · rfl
  · rfl

theorem readExponent_suffix (exponent : Option ℤ) {rest : Text} (h : EndsConstant rest) :
  readExponent (exponentSuffix exponent ++ rest) = (exponent.getD 0, rest)
  := by
  cases exponent with
  | none =>
      cases rest with
      | nil => rfl
      | cons c rest =>
          rcases h c rfl with rfl | rfl
          · cases rest with
            | nil => rfl
            | cons d rest => rfl
          · cases rest with
            | nil => rfl
            | cons d rest => rfl
  | some n =>
      have hdigits : ∀ c ∈ zeroPad 2 n.natAbs, c.isDigit = true := fun c => isDigit_of_mem_zeroPad
      obtain ⟨htake, hdrop⟩ := takeWhile_digits hdigits (isDigit_of_endsConstant h)
      have hne : zeroPad 2 n.natAbs ≠ [] := by
        rw [zeroPad]
        exact List.append_ne_nil_of_right_ne_nil _ (natText_ne_nil _)
      have hsign : (if n < 0 then '-' else '+') = '+' ∨ (if n < 0 then '-' else '+') = '-' := by
        split
        · exact .inr rfl
        · exact .inl rfl
      have hvalue : (if (if n < 0 then '-' else '+') = '-' then (-1 : ℤ) else 1) * n.natAbs = n := by
        by_cases hneg : n < 0
        · rw [if_pos hneg, if_pos rfl]
          omega
        · rw [if_neg hneg, if_neg (by decide)]
          omega
      change readExponent ('e' :: _ :: (zeroPad 2 n.natAbs ++ rest)) = _
      rw [readExponent, htake, hdrop, if_pos ⟨.inl rfl, hsign, hne⟩, digitsValue_zeroPad, hvalue]
      rfl

theorem readFraction_suffix {fraction rest : Text} (h : ∀ c ∈ fraction, c.isDigit = true)
    (hrest : ∀ c ∈ rest.head?, c.isDigit = false ∧ c ≠ '.') :
  readFraction (fractionSuffix fraction ++ rest) = (fraction, rest)
  := by
  rw [fractionSuffix]
  split
  · rename_i hempty
    subst hempty
    cases rest with
    | nil => rfl
    | cons c rest =>
        rw [List.nil_append, readFraction.eq_def]
        split
        · rename_i heq
          cases heq
          exact absurd rfl (hrest '.' rfl).2
        · rfl
  · obtain ⟨htake, hdrop⟩ := takeWhile_digits h (fun c hc => (hrest c hc).1)
    rw [List.cons_append, readFraction, htake, hdrop]

/-- What may follow the fraction of a number. -/
theorem head_exponentSuffix (exponent : Option ℤ) {rest : Text} (h : EndsConstant rest) :
  ∀ c ∈ (exponentSuffix exponent ++ rest).head?, c.isDigit = false ∧ c ≠ '.'
  := by
  intro c hc
  cases exponent with
  | none =>
      rcases h c hc with rfl | rfl
      · decide
      · decide
  | some n =>
      cases hc
      decide

theorem head_fractionSuffix (fraction : Text) {rest : Text}
    (hrest : ∀ c ∈ rest.head?, c.isDigit = false ∧ c ≠ '.') :
  ∀ c ∈ (fractionSuffix fraction ++ rest).head?, c.isDigit = false
  := by
  intro c hc
  rw [fractionSuffix] at hc
  split at hc
  · exact (hrest c hc).1
  · cases hc
    rfl

/-- The parts of a number are read back. -/
theorem readNumber_parts (whole : ℕ) {fraction rest : Text} (exponent : Option ℤ)
    (hfraction : ∀ c ∈ fraction, c.isDigit = true) (h : EndsConstant rest) :
  readNumber (natText whole ++ fractionSuffix fraction ++ exponentSuffix exponent ++ rest)
    = some (((whole : ℚ) + digitsValue fraction / 10 ^ fraction.length) * 10 ^ exponent.getD 0, rest)
  := by
  have hexponent := head_exponentSuffix exponent h
  obtain ⟨htake, hdrop⟩ := takeWhile_digits (fun c => isDigit_of_mem_natText)
    (head_fractionSuffix fraction hexponent)
  rw [List.append_assoc, List.append_assoc, readNumber, htake, hdrop,
    if_neg (natText_ne_nil whole), readFraction_suffix hfraction hexponent]
  dsimp only
  rw [readExponent_suffix exponent h, digitsValue_natText]

theorem readNumber_natText (n : ℕ) {rest : Text} (h : EndsConstant rest) :
  readNumber (natText n ++ rest) = some ((n : ℚ), rest)
  := by
  have hparts := readNumber_parts n none (fun c hc => absurd hc List.not_mem_nil) h
  rw [show fractionSuffix [] = [] from rfl, show exponentSuffix none = [] from rfl,
    List.append_nil, List.append_nil] at hparts
  rw [hparts]
  simp [digitsValue]

/-! ### Constants -/

theorem exists_digit_natText (n : ℕ) :
  ∃ c s, natText n = c :: s ∧ c.isDigit = true
  := by
  obtain ⟨c, s, hcons⟩ := List.exists_cons_of_ne_nil (natText_ne_nil n)
  refine ⟨c, s, hcons, isDigit_of_mem_natText (n := n) ?_⟩
  rw [hcons]
  exact List.mem_cons_self

/-- A constant that begins with a digit is a number. -/
theorem readLiteral_digit (dbType : DbType) {c : Char} (s : Text) (hc : c.isDigit = true) :
  readLiteral dbType (c :: s) = (readNumber (c :: s)).map (fun (q, rest) => (.number q, rest))
  := by
  rw [readLiteral.eq_def]
  split
  · rename_i heq
    cases heq
    cases hc
  · rename_i heq
    cases heq
    cases hc
  · rename_i heq
    cases heq
    cases hc
  · rfl

theorem readLiteral_string {dbType : DbType} {s rest : Text} (h : IsPlain dbType (.str s))
    (hrest : rest.head? ≠ some '\'') :
  readLiteral dbType (sqlLiteral (.str s) ++ rest) = some (.text s, rest)
  := by
  have hread : readBody dbType.lexis.backslashEscapes (doubled '\'' s ++ '\'' :: rest)
      = some (s, rest) := readBody_doubled h.1 hrest
  have htext : sqlLiteral (.str s) ++ rest = '\'' :: (doubled '\'' s ++ '\'' :: rest) := by
    rw [sqlLiteral, replace_quote, List.append_assoc, List.append_assoc]
    rfl
  rw [htext, readLiteral, hread, Option.map_some]
  dsimp only
  rw [if_neg (fun hboth => h.2 hboth.2 hboth.1)]

theorem readLiteral_natText (dbType : DbType) (n : ℕ) {rest : Text} (h : EndsConstant rest) :
  readLiteral dbType (natText n ++ rest) = some (.number n, rest)
  := by
  obtain ⟨c, s, hcons, hc⟩ := exists_digit_natText n
  have hread := readNumber_natText n h
  rw [hcons, List.cons_append] at hread ⊢
  rw [readLiteral_digit dbType _ hc, hread]
  rfl

theorem readLiteral_float (dbType : DbType) (f : FloatText) {rest : Text} (h : EndsConstant rest) :
  readLiteral dbType (f.repr ++ rest) = some (.number f.value, rest)
  := by
  have hread := readNumber_parts f.whole f.exponent f.digits h
  cases hnegative : f.negative with
  | true =>
      have hrepr : f.repr ++ rest = '-' :: (natText f.whole ++ fractionSuffix f.fraction
          ++ exponentSuffix f.exponent ++ rest) := by
        rw [FloatText.repr, hnegative, if_pos rfl, List.append_assoc, List.append_assoc,
          List.append_assoc, List.append_assoc, List.append_assoc]
        rfl
      rw [hrepr, readLiteral, hread, Option.map_some, FloatText.value, hnegative, if_pos rfl]
      dsimp only
      congr 3
      ring
  | false =>
      have hrepr : f.repr ++ rest = natText f.whole ++ fractionSuffix f.fraction
          ++ exponentSuffix f.exponent ++ rest := by
        rw [FloatText.repr, hnegative, if_neg Bool.false_ne_true, List.nil_append]
      obtain ⟨c, s, hcons, hc⟩ := exists_digit_natText f.whole
      rw [hcons, List.cons_append, List.cons_append, List.cons_append] at hread hrepr
      rw [hrepr, readLiteral_digit dbType _ hc, hread, Option.map_some, FloatText.value, hnegative,
        if_neg Bool.false_ne_true, one_mul]

/-- The constant of a value is read as the value. -/
theorem readLiteral_sqlLiteral {dbType : DbType} {v : KeyValue} {rest : Text}
    (h : v = .none ∨ IsPlain dbType v) (hrest : EndsConstant rest) :
  readLiteral dbType (sqlLiteral v ++ rest) = some (v.value, rest)
  := by
  cases v with
  | none => rfl
  | bool b =>
      cases b with
      | false => exact readLiteral_natText dbType 0 hrest
      | true => exact readLiteral_natText dbType 1 hrest
  | int n =>
      cases n with
      | ofNat n => exact readLiteral_natText dbType n hrest
      | negSucc n =>
          change readLiteral dbType ('-' :: (natText (n + 1) ++ rest)) = _
          rw [readLiteral, readNumber_natText _ hrest, Option.map_some, KeyValue.value,
            Int.cast_negSucc]
  | float f => exact readLiteral_float dbType f hrest
  | str s =>
      rcases h with h | h
      · cases h
      · apply readLiteral_string h
        intro hquote
        rcases hrest _ hquote with h' | h'
        · cases h'
        · cases h'

/-- The constant of a text says that it is plain. -/
theorem isPlain_of_readLiteral {dbType : DbType} {v : KeyValue} (hne : v ≠ .none)
    (h : readLiteral dbType (sqlLiteral v) = some (v.value, [])) :
  IsPlain dbType v
  := by
  cases v with
  | none => exact absurd rfl hne
  | str s =>
      have htext : sqlLiteral (.str s) = '\'' :: (doubled '\'' s ++ ['\'']) := by
        rw [sqlLiteral, replace_quote]
        rfl
      rw [htext, readLiteral] at h
      obtain ⟨⟨value, rest⟩, hread, heq⟩ := Option.map_eq_some_iff.mp h
      obtain ⟨hvalue, rfl⟩ := Prod.mk.inj heq
      split at hvalue
      · cases hvalue
      · rename_i hempty
        obtain rfl := SqlValue.text.inj hvalue
        exact ⟨readBody_doubled_iff.mp hread, fun hnull hnil => hempty ⟨hnil, hnull⟩⟩
  | _ => trivial

/-! ### Lists -/

section Lists

variable {α β : Type} {item : Text → Option (β × Text)} {text : α → Text} {value : α → β}

theorem join_cons_cons (separator a b : Text) (texts : List Text) :
  join separator (a :: b :: texts) = a ++ separator ++ join separator (b :: texts)
  := by
  simp [join]

/-- Items with a comma between them are read back up to the parenthesis behind them. -/
theorem readList_join {items : List α} (hne : items ≠ [])
    (hitem : ∀ a ∈ items, ∀ rest, EndsConstant rest → item (text a ++ rest) = some (value a, rest))
    {fuel : ℕ} (hfuel : items.length ≤ fuel) (rest : Text) :
  readList item fuel (join ", ".toList (items.map text) ++ ')' :: rest)
    = some (items.map value, rest)
  := by
  induction items generalizing fuel with
  | nil => exact absurd rfl hne
  | cons a items ih =>
      obtain ⟨fuel, rfl⟩ := Nat.exists_eq_add_one_of_ne_zero
        (Nat.ne_of_gt (lt_of_lt_of_le (Nat.succ_pos items.length) hfuel))
      have ha := hitem a List.mem_cons_self
      cases items with
      | nil =>
          have hends : EndsConstant (')' :: rest) := fun c hc => .inr (Option.some.inj hc).symm
          have hjoin : join ", ".toList ([a].map text) = text a := by simp [join]
          rw [hjoin, readList, ha _ hends]
          rfl
      | cons b items =>
          have hends : EndsConstant (", ".toList ++ (join ", ".toList ((b :: items).map text)
              ++ ')' :: rest)) := fun c hc => .inl (Option.some.inj hc).symm
          have hrest := ih (List.cons_ne_nil b items)
            (fun a' ha' => hitem a' (List.mem_cons_of_mem a ha')) (Nat.le_of_succ_le_succ hfuel)
          rw [List.map_cons, List.map_cons, join_cons_cons, ← List.map_cons, List.append_assoc,
            List.append_assoc, readList, ha _ hends]
          change (readList item fuel
            (join ", ".toList ((b :: items).map text) ++ ')' :: rest)).map _ = _
          rw [hrest]
          rfl

theorem length_le_length_join (texts : List Text) :
  texts.length ≤ (join ", ".toList texts).length + 1
  := by
  induction texts with
  | nil => exact Nat.zero_le _
  | cons a texts ih =>
      cases texts with
      | nil => exact Nat.le_add_left _ _
      | cons b texts =>
          have hseparator : ", ".toList.length = 2 := rfl
          rw [join_cons_cons, List.length_append, List.length_append, hseparator]
          simp only [List.length_cons] at ih ⊢
          omega

/-- A list is read back with as many steps as its text has characters. -/
theorem readList_length {items : List α} (hne : items ≠ [])
    (hitem : ∀ a ∈ items, ∀ rest, EndsConstant rest → item (text a ++ rest) = some (value a, rest))
    (rest : Text) :
  readList item (join ", ".toList (items.map text) ++ ')' :: rest).length
      (join ", ".toList (items.map text) ++ ')' :: rest)
    = some (items.map value, rest)
  := by
  apply readList_join hne hitem
  have hlength := length_le_length_join (items.map text)
  rw [List.length_map] at hlength
  rw [List.length_append, List.length_cons]
  omega

end Lists

/-- The constants of a key are read as its values. -/
theorem readTuple_tupleText {dbType : DbType} {row : List KeyValue} (hne : row ≠ [])
    (h : ∀ v ∈ row, v = .none ∨ IsPlain dbType v) (rest : Text) :
  readTuple dbType (tupleText row ++ rest) = some (row.map KeyValue.value, rest)
  := by
  have htext : tupleText row ++ rest
      = '(' :: (join ", ".toList (row.map sqlLiteral) ++ ')' :: rest) := by
    rw [tupleText, List.append_assoc, List.append_assoc]
    rfl
  rw [htext, readTuple]
  exact readList_length hne (fun v hv rest' hrest => readLiteral_sqlLiteral (h v hv) hrest) rest

/-! ### Columns -/

/-- Whether a text may stand for a column in a condition. -/
def IsColumnText (s : Text) : Prop := ∀ c ∈ s, " ,()".toList.contains c = false

theorem readColumn_append {column rest : Text} (h : IsColumnText column)
    (hrest : ∀ c, rest.head? = some c → " ,()".toList.contains c = true) :
  readColumn (column ++ rest) = some (column, rest)
  := by
  have hcolumn : ∀ c ∈ column, (!" ,()".toList.contains c) = true := by
    intro c hc
    rw [h c hc]
    rfl
  have hstop : rest.takeWhile (fun c => !" ,()".toList.contains c) = []
      ∧ rest.dropWhile (fun c => !" ,()".toList.contains c) = rest := by
    cases rest with
    | nil => exact ⟨rfl, rfl⟩
    | cons c rest =>
        have hc : ¬(!" ,()".toList.contains c) = true := by
          rw [hrest c rfl]
          exact Bool.false_ne_true
        exact ⟨List.takeWhile_cons_of_neg hc, List.dropWhile_cons_of_neg hc⟩
  rw [readColumn, List.span_eq_takeWhile_dropWhile, List.takeWhile_append_of_pos hcolumn,
    List.dropWhile_append_of_pos hcolumn, hstop.1, hstop.2, List.append_nil]

theorem toNat_of_isIdentifierChar {c : Char} (h : isIdentifierChar c = true) :
  c.toNat < 128
  := by
  rw [isIdentifierChar, Bool.or_eq_true] at h
  rcases h with h | h
  · rw [isAlphanum_iff] at h
    omega
  · rw [List.contains_iff_mem] at h
    revert h
    simp
    rintro (rfl | rfl | rfl | rfl) <;> decide

theorem isColumnText_char {c : Char} (h : isIdentifierChar c = true) :
  " ,()".toList.contains c = false ∧ " ,()".toList.contains c.toUpper = false
  := by
  have hall : ∀ n < 128, isIdentifierChar (Char.ofNat n) = true →
      " ,()".toList.contains (Char.ofNat n) = false
        ∧ " ,()".toList.contains (Char.ofNat n).toUpper = false := by decide
  have hc := hall c.toNat (toNat_of_isIdentifierChar h)
  rw [Char.ofNat_toNat] at hc
  exact hc h

/-- Doubling a character that does not occur changes nothing. -/
theorem replace_absent {quote : Char} {s : Text} (h : quote ∉ s) :
  replace [quote] [quote, quote] s = s
  := by
  have hkept : replace [quote] [quote, quote] (s ++ []) = s ++ replace [quote] [quote, quote] [] := by
    apply replace_append_of_forall
    rintro v t rfl - ⟨u, hu⟩
    rw [List.append_nil, List.singleton_append] at hu
    apply h
    rw [← hu]
    exact List.mem_append_right v List.mem_cons_self
  rw [List.append_nil, show replace [quote] [quote, quote] [] = [] from rfl, List.append_nil] at hkept
  exact hkept

theorem mem_join_of_mem {separator text : Text} {texts : List Text} {c : Char}
    (htext : text ∈ texts) (hc : c ∈ text) :
  c ∈ join separator texts
  := by
  induction texts with
  | nil => exact absurd htext List.not_mem_nil
  | cons a texts ih =>
      cases texts with
      | nil =>
          rw [List.mem_singleton.mp htext] at hc
          simpa [join] using hc
      | cons b texts =>
          rw [join_cons_cons, List.mem_append, List.mem_append]
          rcases List.mem_cons.mp htext with rfl | htext
          · exact .inl (.inl hc)
          · exact .inr (ih htext)

theorem mem_of_mem_join {separator : Text} {texts : List Text} {c : Char}
    (h : c ∈ join separator texts) :
  c ∈ separator ∨ ∃ text ∈ texts, c ∈ text
  := by
  induction texts with
  | nil => exact absurd h List.not_mem_nil
  | cons a texts ih =>
      cases texts with
      | nil => exact .inr ⟨a, List.mem_cons_self, by simpa [join] using h⟩
      | cons b texts =>
          rw [join_cons_cons, List.mem_append, List.mem_append] at h
          rcases h with (h | h) | h
          · exact .inr ⟨a, List.mem_cons_self, h⟩
          · exact .inl h
          · rcases ih h with h | ⟨text, htext, hc⟩
            · exact .inl h
            · exact .inr ⟨text, List.mem_cons_of_mem a htext, hc⟩

/-- Parts of an identifier between quotes, with dots between them, may stand for a column. -/
theorem isColumnText_join {identifier : Text} (quote : Char) (change : Char → Char)
    (hidentifier : ∀ c ∈ identifier, isIdentifierChar c = true)
    (hquote : isIdentifierChar quote = false) (hseparator : " ,()".toList.contains quote = false)
    (hchange : ∀ c, isIdentifierChar c = true → " ,()".toList.contains (change c) = false) :
  IsColumnText (join ".".toList ((identifier.splitOn '.').map (fun part =>
    quote :: (replace [quote] [quote, quote] part).map change ++ [quote])))
  := by
  intro c hc
  rcases mem_of_mem_join hc with hc | ⟨text, htext, hc⟩
  · rw [List.mem_singleton.mp hc]
    rfl
  · obtain ⟨part, hpart, rfl⟩ := List.mem_map.mp htext
    have hchars : ∀ d ∈ part, isIdentifierChar d = true := by
      intro d hd
      apply hidentifier
      have hjoin : join ".".toList (identifier.splitOn '.') = identifier :=
        List.intercalate_splitOn '.'
      rw [← hjoin]
      exact mem_join_of_mem hpart hd
    have habsent : quote ∉ part := by
      intro hmem
      rw [hchars quote hmem] at hquote
      cases hquote
    rw [replace_absent habsent, List.mem_append, List.mem_cons, List.mem_singleton] at hc
    rcases hc with (rfl | hc) | rfl
    · exact hseparator
    · obtain ⟨d, hd, rfl⟩ := List.mem_map.mp hc
      exact hchange d (hchars d hd)
    · exact hseparator

/-- A quoted identifier may stand for a column. -/
theorem isColumnText_of_quoteIdentifier {dbType : DbType} {identifier quoted : Text}
    (h : quoteIdentifier dbType identifier = some quoted) :
  IsColumnText quoted
  := by
  rw [quoteIdentifier] at h
  split at h
  · cases h
  · rename_i hvalid
    rw [not_or, Bool.not_eq_false, List.all_eq_true] at hvalid
    split at h
    · cases h
      have hjoin := isColumnText_join '`' id hvalid.2 rfl rfl
        (fun c hc => (isColumnText_char hc).1)
      simpa using hjoin
    · cases h
      exact isColumnText_join '"' Char.toUpper hvalid.2 rfl rfl
        (fun c hc => (isColumnText_char hc).2)

/-! ### Conditions -/

theorem dropFront?_append (front s : Text) :
  dropFront? front (front ++ s) = some s
  := by
  induction front with
  | nil => rfl
  | cons c front ih => rw [List.cons_append, dropFront?, if_pos rfl, ih]

theorem readCondition_column {dbType : DbType} {column : Text} {values : List KeyValue}
    (hcolumn : IsColumnText column) (hne : values ≠ [])
    (h : ∀ v ∈ values, v = .none ∨ IsPlain dbType v) :
  readCondition dbType (column ++ " IN (".toList ++ join ", ".toList (values.map sqlLiteral)
      ++ ")".toList)
    = some ⟨[column], values.map (fun v => [v.value])⟩
  := by
  have hlist := readList_length hne
    (fun v hv rest hrest => readLiteral_sqlLiteral (h v hv) hrest) []
  have hread : readColumn (column ++ (" IN (".toList
      ++ (join ", ".toList (values.map sqlLiteral) ++ [')'])))
        = some (column, " IN (".toList ++ (join ", ".toList (values.map sqlLiteral) ++ [')'])) := by
    apply readColumn_append hcolumn
    intro c hc
    cases hc
    rfl
  rw [List.append_assoc, List.append_assoc, readCondition.eq_def]
  split
  · -- no column begins with a parenthesis
    rename_i heq
    cases column with
    | nil => cases heq
    | cons c column =>
        cases heq
        have hparenthesis := hcolumn '(' List.mem_cons_self
        cases hparenthesis
  · change (readColumn (column ++ (" IN (".toList
      ++ (join ", ".toList (values.map sqlLiteral) ++ [')'])))).bind _ = _
    rw [hread, Option.bind_some]
    change (dropFront? " IN (".toList _).bind _ = _
    rw [dropFront?_append, Option.bind_some]
    change (readList _ _ _).bind _ = _
    rw [hlist, Option.bind_some]
    dsimp only
    rw [if_pos rfl, List.map_map]
    rfl

theorem readCondition_columns {dbType : DbType} {columns : List Text} {rows : List (List KeyValue)}
    (hcolumns : columns ≠ []) (htext : ∀ column ∈ columns, IsColumnText column)
    (hrows : rows ≠ []) (hne : ∀ row ∈ rows, row ≠ [])
    (h : ∀ row ∈ rows, ∀ v ∈ row, v = .none ∨ IsPlain dbType v) :
  readCondition dbType ("(".toList ++ join ", ".toList columns ++ ") IN (".toList
      ++ join ", ".toList (rows.map tupleText) ++ ")".toList)
    = some ⟨columns, rows.map (List.map KeyValue.value)⟩
  := by
  have hlist := readList_length hrows
    (fun row hrow rest _ => readTuple_tupleText (hne row hrow) (h row hrow) rest) []
  have hends : ∀ column ∈ columns, ∀ rest, EndsConstant rest →
      readColumn (id column ++ rest) = some (id column, rest) := by
    intro column hcolumn rest hrest
    apply readColumn_append (htext column hcolumn)
    intro c hc
    rcases hrest c hc with rfl | rfl
    · rfl
    · rfl
  have hread := readList_length hcolumns hends
    (" IN (".toList ++ (join ", ".toList (rows.map tupleText) ++ [')']))
  rw [List.map_id] at hread
  have hsplit : "(".toList ++ join ", ".toList columns ++ ") IN (".toList
      ++ join ", ".toList (rows.map tupleText) ++ ")".toList
        = '(' :: (join ", ".toList columns ++ ')' :: (" IN (".toList
          ++ (join ", ".toList (rows.map tupleText) ++ [')']))) := by
    rw [List.append_assoc, List.append_assoc, List.append_assoc]
    rfl
  rw [hsplit, readCondition, hread, Option.bind_eq_bind, Option.bind_some]
  change (dropFront? " IN (".toList _).bind _ = _
  rw [dropFront?_append, Option.bind_some]
  change (readList _ _ _).bind _ = _
  rw [hlist, Option.bind_some]
  exact if_pos rfl

/-- The condition is read as the columns and the values of the keys. -/
theorem readCondition_whereIn {dbType : DbType} {quotedCols : List Text}
    {pkRows : List (List KeyValue)} (hcols : quotedCols ≠ [])
    (htext : ∀ col ∈ quotedCols, IsColumnText col) (hrows : pkRows ≠ [])
    (hwidth : ∀ row ∈ pkRows, row.length = quotedCols.length)
    (h : ∀ row ∈ pkRows, ∀ v ∈ row, v = .none ∨ IsPlain dbType v) :
  readCondition dbType (whereIn quotedCols pkRows)
    = some ⟨quotedCols, pkRows.map (List.map KeyValue.value)⟩
  := by
  rw [whereIn.eq_def]
  split
  · rename_i col
    -- every key has one value, and this is the first
    have hsingle : ∀ row ∈ pkRows, [row.headD .none] = row := by
      intro row hrow
      obtain ⟨v, hv⟩ := List.length_eq_one_iff.mp (hwidth row hrow)
      rw [hv]
      rfl
    have hvalues : ∀ v ∈ pkRows.map (fun row => row.headD .none),
        v = .none ∨ IsPlain dbType v := by
      intro v hv
      obtain ⟨row, hrow, rfl⟩ := List.mem_map.mp hv
      apply h row hrow
      rw [← hsingle row hrow]
      exact List.mem_cons_self
    have hread := readCondition_column (htext col List.mem_cons_self)
      (List.map_eq_nil_iff.not.mpr hrows) hvalues
    rw [List.map_map, List.map_map] at hread
    have htuples : pkRows.map ((fun v : KeyValue => [v.value]) ∘ fun row => row.headD .none)
        = pkRows.map (List.map KeyValue.value) := by
      apply List.map_congr_left
      intro row hrow
      rw [← hsingle row hrow]
      rfl
    rw [htuples] at hread
    exact hread
  · apply readCondition_columns hcols htext hrows _ h
    intro row hrow hnil
    have hlength := hwidth row hrow
    rw [hnil] at hlength
    exact hcols (List.length_eq_zero_iff.mp hlength.symm)

/-! ### Three-valued logic -/

theorem or3_eq_true {p q : Option Bool} :
  or3 p q = some true ↔ p = some true ∨ q = some true
  := by
  rcases p with _ | _ | _ <;> rcases q with _ | _ | _ <;> decide

theorem and3_eq_true {p q : Option Bool} :
  and3 p q = some true ↔ p = some true ∧ q = some true
  := by
  rcases p with _ | _ | _ <;> rcases q with _ | _ | _ <;> decide

theorem eq3_eq_true {v w : SqlValue} :
  v.eq3 w = some true ↔ v = w ∧ v ≠ .null
  := by
  cases v <;> cases w <;> simp [SqlValue.eq3]

/-- Tuples are known to be the same when they are, and no value is missing. -/
theorem tuplesEq3_eq_true {row tuple : List SqlValue} :
  tuplesEq3 row tuple = some true ↔ row = tuple ∧ SqlValue.null ∉ row
  := by
  induction row generalizing tuple with
  | nil =>
      cases tuple with
      | nil => exact iff_of_true rfl ⟨rfl, List.not_mem_nil⟩
      | cons w tuple => exact iff_of_false (by intro h; cases h) (by rintro ⟨h, -⟩; cases h)
  | cons v row ih =>
      cases tuple with
      | nil => exact iff_of_false (by intro h; cases h) (by rintro ⟨h, -⟩; cases h)
      | cons w tuple =>
          rw [tuplesEq3, and3_eq_true, eq3_eq_true, ih, List.cons.injEq, List.mem_cons, not_or]
          constructor
          · rintro ⟨⟨rfl, hv⟩, rfl, hrow⟩
            exact ⟨⟨rfl, rfl⟩, Ne.symm hv, hrow⟩
          · rintro ⟨⟨rfl, rfl⟩, hv, hrow⟩
            exact ⟨⟨rfl, Ne.symm hv⟩, rfl, hrow⟩

/-- A tuple is known to be in a list when it is, and no value is missing. -/
theorem in3_eq_true {row : List SqlValue} {tuples : List (List SqlValue)} :
  in3 row tuples = some true ↔ row ∈ tuples ∧ SqlValue.null ∉ row
  := by
  induction tuples with
  | nil => exact iff_of_false (by intro h; cases h) (by rintro ⟨h, -⟩; cases h)
  | cons tuple tuples ih =>
      change or3 (tuplesEq3 row tuple) (in3 row tuples) = some true ↔ _
      rw [or3_eq_true, tuplesEq3_eq_true, ih, List.mem_cons, or_and_right]

/-! ### What is located -/

theorem mem_of_mapM {dbType : DbType} {columns quotedCols : List Text}
    (h : columns.mapM (quoteIdentifier dbType) = some quotedCols) :
  quotedCols.length = columns.length ∧ ∀ quoted ∈ quotedCols, IsColumnText quoted
  := by
  induction columns generalizing quotedCols with
  | nil =>
      cases h
      exact ⟨rfl, fun _ hmem => absurd hmem List.not_mem_nil⟩
  | cons column columns ih =>
      rw [List.mapM_cons] at h
      obtain ⟨quoted, hquoted, h⟩ := Option.bind_eq_some_iff.mp h
      obtain ⟨rest, hrest, h⟩ := Option.bind_eq_some_iff.mp h
      cases h
      obtain ⟨hlength, htext⟩ := ih hrest
      constructor
      · rw [List.length_cons, List.length_cons, hlength]
      · intro quoted' hmem
        rcases List.mem_cons.mp hmem with rfl | hmem
        · exact isColumnText_of_quoteIdentifier hquoted
        · exact htext quoted' hmem

/-- What both statements have in common: the columns are quoted, there are keys, and the condition
compares the columns with them. -/
theorem condition_of_built {dbType : DbType} {ref : CompareDataRef} {table : Text} {keys : Keys}
    {select : Select}
    (h : buildDiffRowSelect dbType ref keys = some select
      ∨ renderUpstreamSql dbType table keys = some select) :
  ∃ quotedCols, keys.columns.mapM (quoteIdentifier dbType) = some quotedCols
    ∧ keys.columns ≠ [] ∧ keys.rows ≠ [] ∧ select.condition = whereIn quotedCols keys.rows
  := by
  rcases h with h | h
  · obtain ⟨expr, -, h⟩ := Option.bind_eq_some_iff.mp h
    split at h
    · cases h
    · rename_i hne
      obtain ⟨quotedCols, hquoted, h⟩ := Option.bind_eq_some_iff.mp h
      cases h
      exact ⟨quotedCols, hquoted, fun hnil => hne (.inl hnil), fun hnil => hne (.inr hnil), rfl⟩
  · rw [renderUpstreamSql] at h
    split at h
    · cases h
    · rename_i hne
      obtain ⟨expr, -, h⟩ := Option.bind_eq_some_iff.mp h
      obtain ⟨quotedCols, hquoted, h⟩ := Option.bind_eq_some_iff.mp h
      cases h
      exact ⟨quotedCols, hquoted, fun hnil => hne (.inl hnil), fun hnil => hne (.inr hnil), rfl⟩

/-- A value that is there is no missing value of the database. -/
theorem value_eq_null_iff {v : KeyValue} :
  v.value = .null ↔ v = .none
  := by
  cases v with
  | none => exact iff_of_true rfl rfl
  | _ => exact iff_of_false SqlValue.noConfusion KeyValue.noConfusion

/-- When every constant is read as its value, the rows are selected that have the values of a key
and no missing value. -/
theorem selects_iff {dbType : DbType} {ref : CompareDataRef} {table : Text} {keys : Keys}
    {select : Select} {quotedCols : List Text}
    (h : buildDiffRowSelect dbType ref keys = some select
      ∨ renderUpstreamSql dbType table keys = some select)
    (hquoted : keys.columns.mapM (quoteIdentifier dbType) = some quotedCols)
    (hplain : ∀ row ∈ keys.rows, ∀ v ∈ row, v = .none ∨ IsPlain dbType v) (row : List SqlValue) :
  Selects dbType quotedCols select.condition row
    ↔ row ∈ keys.rows.map (List.map KeyValue.value) ∧ SqlValue.null ∉ row
  := by
  obtain ⟨quotedCols', hquoted', hcols, hrows, hcondition⟩ := condition_of_built h
  rw [hquoted] at hquoted'
  cases hquoted'
  obtain ⟨hlength, htext⟩ := mem_of_mapM hquoted
  have hne : quotedCols ≠ [] := by
    rintro rfl
    exact hcols (List.length_eq_zero_iff.mp hlength.symm)
  have hread := readCondition_whereIn hne htext hrows
    (fun row hrow => (keys.width row hrow).trans hlength.symm) hplain
  rw [Selects, hcondition, hread, ← in3_eq_true]
  constructor
  · rintro ⟨tuples, heq, hin⟩
    cases heq
    exact hin
  · intro hin
    exact ⟨_, rfl, hin⟩

/-- A table without a schema. -/
def ordersRef : CompareDataRef := ⟨none, none, none, some "orders".toList⟩

/-- One key column and some values. -/
def idKeys (values : List KeyValue) : Keys where
  columns := ["id".toList]
  rows := values.map (fun v => [v])
  width := by
    intro row hrow
    obtain ⟨v, -, rfl⟩ := List.mem_map.mp hrow
    rfl

end Locate

import DataOpsStudio.Library.Outcome
import Mathlib.Data.Int.Notation
import Mathlib.Data.List.DropRight

/-!
# Texts

A text is its sequence of code points.  The functions below are those of the interpreter's
texts: the decimal text of a number, white space and digits of every script, what a text
starts with and where it is cut, replacement by a rule that sees one character back, the
representation of a text as a literal, and the pieces of a template with `${…}`
placeholders.
-/

/-- A text, as its sequence of code points. -/
abbrev Text := List Char

namespace Text

/-- A condition on all characters of a text is decided by going through the text, and not through
all characters that there are. -/
instance (priority := high) decidableForallMem (p : Char → Prop) [DecidablePred p] (s : List Char) :
    Decidable (∀ c ∈ s, p c) :=
  List.decidableBAll p s

/-! ### Numbers -/

/-- The decimal digits of a natural number. -/
def natText (n : ℕ) : Text := Nat.toDigits 10 n

/-- The decimal text of an integer. -/
def intText : ℤ → Text
  | .ofNat n => natText n
  | .negSucc n => '-' :: natText (n + 1)

/-- A natural number padded with zeros on the left to at least `width` digits. -/
def zeroPad (width n : ℕ) : Text :=
  List.replicate (width - (natText n).length) '0' ++ natText n

/-! ### Characters -/

/-- White space as the interpreter strips it. -/
def isSpace (c : Char) : Bool :=
  let n := c.toNat
  (0x9 ≤ n && n ≤ 0xd) || (0x1c ≤ n && n ≤ 0x20) || n == 0x85 || n == 0xa0 || n == 0x1680
    || (0x2000 ≤ n && n ≤ 0x200a) || n == 0x2028 || n == 0x2029 || n == 0x202f || n == 0x205f
    || n == 0x3000

/-- A text without the characters of a kind at either end. -/
def stripBy (p : Char → Bool) (s : Text) : Text :=
  ((s.dropWhile p).reverse.dropWhile p).reverse

/-- The zeros of the runs of ten decimal digits after the ASCII digits. -/
def otherDigitZeros : List ℕ :=
  [0x660, 0x6f0, 0x7c0, 0x966, 0x9e6, 0xa66, 0xae6, 0xb66, 0xbe6, 0xc66, 0xce6, 0xd66,
    0xde6, 0xe50, 0xed0, 0xf20, 0x1040, 0x1090, 0x17e0, 0x1810, 0x1946, 0x19d0, 0x1a80, 0x1a90,
    0x1b50, 0x1bb0, 0x1c40, 0x1c50, 0xa620, 0xa8d0, 0xa900, 0xa9d0, 0xa9f0, 0xaa50, 0xabf0,
    0xff10, 0x104a0, 0x10d30, 0x11066, 0x110f0, 0x11136, 0x111d0, 0x112f0, 0x11450, 0x114d0,
    0x11650, 0x116c0, 0x11730, 0x118e0, 0x11950, 0x11c50, 0x11d50, 0x11da0, 0x16a60, 0x16ac0,
    0x16b50, 0x1d7ce, 0x1d7d8, 0x1d7e2, 0x1d7ec, 0x1d7f6, 0x1e140, 0x1e2f0, 0x1e950, 0x1fbf0]

/-- The value of a decimal digit of any script. -/
def digit? (c : Char) : Option ℕ :=
  ((0x30 :: otherDigitZeros).find? (fun z => decide (z ≤ c.toNat) && decide (c.toNat < z + 10))).map
    (fun z => c.toNat - z)

/-- Whether a character is a decimal digit. -/
def isDecimalDigit (c : Char) : Bool := (digit? c).isSome

theorem isAlpha_iff {c : Char} :
  c.isAlpha = true ↔ 65 ≤ c.toNat ∧ c.toNat ≤ 90 ∨ 97 ≤ c.toNat ∧ c.toNat ≤ 122
  := by
  change (decide (65 ≤ c.toNat ∧ c.toNat ≤ 90) || (decide (97 ≤ c.toNat) && decide (c.toNat ≤ 122)))
    = true ↔ _
  simp only [Bool.or_eq_true, Bool.and_eq_true, decide_eq_true_eq]

theorem isAlphanum_iff {c : Char} :
  c.isAlphanum = true ↔ (65 ≤ c.toNat ∧ c.toNat ≤ 90 ∨ 97 ≤ c.toNat ∧ c.toNat ≤ 122)
    ∨ 48 ≤ c.toNat ∧ c.toNat ≤ 57
  := by
  rw [← isAlpha_iff]
  change (c.isAlpha || (decide (48 ≤ c.toNat) && decide (c.toNat ≤ 57))) = true ↔ _
  simp only [Bool.or_eq_true, Bool.and_eq_true, decide_eq_true_eq]

/-- Only capital letters have another lower case. -/
theorem toLower_of_not_upper {c : Char} (h : ¬ (65 ≤ c.toNat ∧ c.toNat ≤ 90)) :
  c.toLower = c
  := dif_neg h

/-! ### Cutting -/

/-- A text without the white space at either end. -/
def strip (s : Text) : Text := stripBy isSpace s

theorem dropWhile_rdropWhile_dropWhile (p : Char → Bool) (s : Text) :
  ((s.dropWhile p).rdropWhile p).dropWhile p = (s.dropWhile p).rdropWhile p
  := by
  apply List.dropWhile_eq_self_iff.mpr
  intro hpos
  have hfront := List.rdropWhile_prefix p (s.dropWhile p)
  rw [hfront.getElem hpos]
  exact List.dropWhile_eq_self_iff.mp (List.dropWhile_idempotent p s) _

/-- A text that has been stripped has nothing left to strip. -/
theorem strip_strip (s : Text) :
  strip (strip s) = strip s
  := by
  change (((s.dropWhile isSpace).rdropWhile isSpace).dropWhile isSpace).rdropWhile isSpace = _
  rw [dropWhile_rdropWhile_dropWhile, List.rdropWhile_idempotent]
  rfl

theorem strip_eq_rdropWhile (s : Text) :
  strip s = (s.dropWhile isSpace).rdropWhile isSpace
  := rfl

theorem isInfix_strip (s : Text) : strip s <:+: s :=
  (List.rdropWhile_prefix isSpace _).isInfix.trans (List.dropWhile_suffix isSpace).isInfix

/-- What is stripped is white space. -/
theorem exists_strip (s : Text) :
  ∃ front behind, s = front ++ (strip s ++ behind)
    ∧ (∀ c ∈ front, isSpace c = true) ∧ ∀ c ∈ behind, isSpace c = true
  := by
  refine ⟨s.takeWhile isSpace, (s.dropWhile isSpace).rtakeWhile isSpace, ?_, ?_, ?_⟩
  · rw [strip_eq_rdropWhile, List.rdropWhile_append_rtakeWhile, List.takeWhile_append_dropWhile]
  · intro c hc
    apply List.mem_takeWhile_imp hc
  · intro c hc
    apply List.mem_takeWhile_imp (List.mem_reverse.mp hc)

section Strip

variable {s w : Text} (hw : ∀ c ∈ w, isSpace c = true)

include hw

theorem strip_append_left :
  strip (w ++ s) = strip s
  := by rw [strip_eq_rdropWhile, List.dropWhile_append_of_pos hw, strip_eq_rdropWhile]

theorem strip_append_right :
  strip (s ++ w) = strip s
  := by
  rw [strip_eq_rdropWhile, strip_eq_rdropWhile]
  by_cases hall : ∀ c ∈ s, isSpace c = true
  · rw [List.dropWhile_append_of_pos hall, List.dropWhile_eq_nil_iff.mpr hw,
      List.dropWhile_eq_nil_iff.mpr hall]
  · have hne : s.dropWhile isSpace ≠ [] := fun hnil => hall (List.dropWhile_eq_nil_iff.mp hnil)
    rw [List.dropWhile_append, if_neg (by simpa using hne), List.rdropWhile, List.reverse_append,
      List.dropWhile_append_of_pos (fun c hc => hw c (List.mem_reverse.mp hc))]
    rfl

end Strip

/-- Nothing is stripped of a text that has no white space at either end. -/
theorem strip_eq_self_iff {s : Text} :
  strip s = s ↔ (∀ c ∈ s.head?, isSpace c = false) ∧ ∀ c ∈ s.getLast?, isSpace c = false
  := by
  constructor
  · intro h
    have hfront : s.dropWhile isSpace = s := by
      apply (List.dropWhile_suffix isSpace).eq_of_length_le
      conv_lhs => rw [← h]
      exact (List.rdropWhile_prefix isSpace _).length_le
    have hbehind : s.rdropWhile isSpace = s := by
      conv_rhs => rw [← h, strip_eq_rdropWhile, hfront]
    constructor
    · intro c hc
      obtain ⟨rest, rfl⟩ := List.head?_eq_some_iff.mp hc
      rw [← Bool.not_eq_true]
      exact List.dropWhile_eq_self_iff.mp hfront (Nat.succ_pos _)
    · intro c hc
      obtain ⟨hne, rfl⟩ := List.mem_getLast?_eq_getLast hc
      rw [← Bool.not_eq_true]
      exact List.rdropWhile_eq_self_iff.mp hbehind hne
  · rintro ⟨hfront, hbehind⟩
    have hdrop : s.dropWhile isSpace = s := by
      apply List.dropWhile_eq_self_iff.mpr
      intro hpos
      rw [Bool.not_eq_true]
      apply hfront
      rw [List.head?_eq_getElem?, List.getElem?_eq_getElem hpos]
      rfl
    rw [strip_eq_rdropWhile, hdrop]
    apply List.rdropWhile_eq_self_iff.mpr
    intro hne
    rw [Bool.not_eq_true]
    exact hbehind _ (List.getLast_mem_getLast? hne)

/-- A text cut at the last occurrence of a character: what is before it and after it. -/
def rpartition (c : Char) (s : Text) : Option (Text × Text) :=
  match s.reverse.span (· ≠ c) with
  | (_, []) => none
  | (after, _ :: before) => some (before.reverse, after.reverse)

/-- Whether a text is an identifier of ASCII letters, digits and underscores. -/
def isIdentifier : Text → Bool
  | [] => false
  | c :: s => (c.isAlpha || c == '_') && s.all (fun d => d.isAlphanum || d == '_')

/-- A text inside another. -/
def occursIn (part : Text) : Text → Bool
  | [] => part.isEmpty
  | c :: s => part.isPrefixOf (c :: s) || occursIn part s

/-- The texts of a list with a separator between them. -/
def join (separator : Text) (texts : List Text) : Text := separator.intercalate texts

/-! ### Replacement -/

/-- Rewrites a text from left to right.  At each place the rule sees the character before
it and the text from it on, and says how many characters to replace by what; `skip`
characters are still to be passed over. -/
def rewrite (rule : Option Char → Text → Option (ℕ × Text)) :
    ℕ → Option Char → Text → Text
  | _, _, [] => []
  | skip + 1, _, c :: s => rewrite rule skip (some c) s
  | 0, before, c :: s =>
      match rule before (c :: s) with
      | some (length, replacement) =>
          replacement ++ rewrite rule (length - 1) (some c) s
      | none => c :: rewrite rule 0 (some c) s

/-- A text with every occurrence of `old`, from left to right, replaced by `new`. -/
def replace (old new : Text) (s : Text) : Text :=
  rewrite (fun _ t => if old.isPrefixOf t then some (old.length, new) else none) 0 none s

section Replace

variable {old new : Text}

/-- A rule that does not look back gives the same, whatever is before the text. -/
theorem rewrite_eq_of_const {rule : Text → Option (ℕ × Text)} (skip : ℕ)
    (before before' : Option Char) (s : Text) :
  rewrite (fun _ t => rule t) skip before s = rewrite (fun _ t => rule t) skip before' s
  := by
  cases s with
  | nil => cases skip <;> rfl
  | cons c s =>
      cases skip with
      | zero => rfl
      | succ skip => rfl

theorem rewrite_skip (rule : Option Char → Text → Option (ℕ × Text)) (before : Option Char)
    (u s : Text) :
  ∃ before', rewrite rule u.length before (u ++ s) = rewrite rule 0 before' s
  := by
  induction u generalizing before with
  | nil => exact ⟨before, rfl⟩
  | cons c u ih => exact ih (some c)

/-- A character that begins no occurrence is kept. -/
theorem replace_cons {c : Char} {s : Text} (h : ¬ old <+: c :: s) :
  replace old new (c :: s) = c :: replace old new s
  := by
  rw [← List.isPrefixOf_iff_prefix, Bool.not_eq_true] at h
  rw [replace, rewrite]
  simp only [h, Bool.false_eq_true, if_false]
  rw [replace, rewrite_eq_of_const]

/-- An occurrence in front of a text is replaced. -/
theorem replace_append (hold : old ≠ []) (s : Text) :
  replace old new (old ++ s) = new ++ replace old new s
  := by
  obtain ⟨c, tail, rfl⟩ := List.exists_cons_of_ne_nil hold
  have hbegins : (c :: tail).isPrefixOf (c :: (tail ++ s)) = true := by
    rw [List.isPrefixOf_iff_prefix]
    exact ⟨s, rfl⟩
  rw [replace, List.cons_append, rewrite]
  simp only [hbegins, if_true, List.length_cons, Nat.add_sub_cancel]
  obtain ⟨before', hskip⟩ := rewrite_skip (fun _ t =>
    if (c :: tail).isPrefixOf t then some ((c :: tail).length, new) else none) (some c) tail s
  rw [List.length_cons] at hskip
  rw [hskip, replace, List.length_cons, rewrite_eq_of_const]

/-- A text in which no occurrence begins is kept. -/
theorem replace_append_of_forall {u s : Text}
    (h : ∀ v t, u = v ++ t → t ≠ [] → ¬ old <+: t ++ s) :
  replace old new (u ++ s) = u ++ replace old new s
  := by
  induction u with
  | nil => rfl
  | cons c u ih =>
      have hhead : ¬ old <+: c :: (u ++ s) := h [] (c :: u) rfl (List.cons_ne_nil c u)
      rw [List.cons_append, replace_cons hhead, ih]
      · rfl
      · rintro v t rfl ht
        exact h (c :: v) t rfl ht

theorem occursIn_iff {part s : Text} :
  occursIn part s = true ↔ part <:+: s
  := by
  induction s with
  | nil => rw [occursIn, List.isEmpty_iff, List.infix_nil]
  | cons c s ih =>
      rw [occursIn, Bool.or_eq_true, List.isPrefixOf_iff_prefix, ih, List.infix_cons_iff]

end Replace

/-! ### Literals -/

/-- A digit of a hexadecimal number, in lower case. -/
def hexText (width n : ℕ) : Text :=
  let digits := Nat.toDigits 16 n
  List.replicate (width - digits.length) '0' ++ digits

/-- A character inside a literal with the given quote. -/
def reprChar (isPrintable : Char → Bool) (quote c : Char) : Text :=
  if c = quote ∨ c = '\\' then ['\\', c]
  else if c = '\t' then ['\\', 't']
  else if c = '\n' then ['\\', 'n']
  else if c = '\r' then ['\\', 'r']
  else if isPrintable c then [c]
  else if c.toNat < 0x100 then '\\' :: 'x' :: hexText 2 c.toNat
  else if c.toNat < 0x10000 then '\\' :: 'u' :: hexText 4 c.toNat
  else '\\' :: 'U' :: hexText 8 c.toNat

/-- The literal of a text: double quotes stand around it when it has single quotes and no
double ones. -/
def repr (isPrintable : Char → Bool) (s : Text) : Text :=
  let quote := if '\'' ∈ s ∧ '"' ∉ s then '"' else '\''
  quote :: s.flatMap (reprChar isPrintable quote) ++ [quote]

/-! ### Templates -/

/-- A piece of a template: a character that stands for itself, or what is between the
braces of a placeholder. -/
inductive Piece where
  | literal (c : Char)
  | placeholder (expression : Text)
deriving DecidableEq

/-- What a placeholder holds, when the text after a dollar sign opens and closes one. -/
def placeholder? : Text → Option Text
  | '{' :: s => if '}' ∈ s then some (s.takeWhile (· ≠ '}')) else none
  | _ => none

/-- The pieces of a text after `skip` characters. -/
def piecesFrom : ℕ → Text → List Piece
  | _, [] => []
  | skip + 1, _ :: s => piecesFrom skip s
  | 0, c :: s =>
      match if c = '$' then placeholder? s else none with
      | some expression => .placeholder expression :: piecesFrom (expression.length + 2) s
      | none => .literal c :: piecesFrom 0 s

/-- The pieces of a text, from left to right. -/
def pieces (s : Text) : List Piece := piecesFrom 0 s

/-- What is between the braces, if the piece is a placeholder. -/
def Piece.expression? : Piece → Option Text
  | .literal _ => none
  | .placeholder expression => some expression

/-- What the placeholders of a text hold. -/
def placeholders (s : Text) : List Text := (pieces s).filterMap Piece.expression?

/-- The text of a piece, with a placeholder rendered by a function that may raise. -/
def Piece.render {ε : Type} (f : Text → Except ε Text) : Piece → Except ε Text
  | .literal c => .ok [c]
  | .placeholder expression => f expression

/-- A text with its placeholders rendered by a function that may raise. -/
def substitute {ε : Type} (f : Text → Except ε Text) (s : Text) : Except ε Text :=
  ((pieces s).mapM (Piece.render f)).map List.flatten

/-- What a text is substituted to depends only on how its own placeholders are rendered. -/
theorem substitute_congr {ε : Type} {f g : Text → Except ε Text} {s : Text}
    (h : ∀ expression ∈ placeholders s, f expression = g expression) :
  substitute f s = substitute g s
  := by
  have hpieces : (pieces s).mapM (Piece.render f) = (pieces s).mapM (Piece.render g) := by
    apply Outcome.mapM_congr
    intro piece hpiece
    cases piece with
    | literal c => rfl
    | placeholder expression =>
        apply h
        apply List.mem_filterMap.mpr
        exact ⟨_, hpiece, rfl⟩
  rw [substitute, hpieces, substitute]

end Text

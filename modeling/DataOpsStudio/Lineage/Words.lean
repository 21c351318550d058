import DataOpsStudio.Lineage.Segments

/-!
# Words and literals

Keywords are words by themselves: no letter, digit or underscore stands in front of them or behind
them.  Literals begin and end with quotes, and where one of them ends depends on how a doubled quote
is read.
-/

namespace Lineage

open Text Sql

variable {a : Alphabet}

/-! ### Letters -/

theorem toNat_lt_of_isAlpha {c : Char} (h : c.isAlpha = true) :
  c.toNat < 128
  := by
  rw [isAlpha_iff] at h
  omega

/-- The letters of the alphabet of keywords are letters. -/
theorem Alphabet.isAlpha_of_isAlpha (a : Alphabet) {c : Char} (h : c.isAlpha = true) :
  a.isAlpha c = true
  := by
  rw [(a.ascii c (toNat_lt_of_isAlpha h)).1, h]

theorem Alphabet.isWord_of_isAlpha (a : Alphabet) {c : Char} (h : c.isAlpha = true) :
  a.isWord c = true
  := by
  rw [Alphabet.isWord, a.isAlnum_of_isAlpha c (a.isAlpha_of_isAlpha h), Bool.true_or]

theorem isAlpha_of_toLower {c : Char} (h : c.toLower.isAlpha = true) :
  c.isAlpha = true
  := by
  by_cases hupper : 65 ≤ c.toNat ∧ c.toNat ≤ 90
  · apply isAlpha_iff.mpr
    left
    apply hupper
  · rwa [toLower_of_not_upper hupper] at h

/-- A character is a letter when its lower case is one of a keyword. -/
theorem isAlpha_of_toLower_mem {c : Char} {word : Text} (hword : ∀ d ∈ word, d.isAlpha = true)
    (h : c.toLower ∈ word) :
  c.isAlpha = true
  := isAlpha_of_toLower (hword _ h)

/-- White space stands in no word. -/
theorem Alphabet.not_isWord_of_isSpace (a : Alphabet) {c : Char} (h : isSpace c = true) :
  a.isWord c = false
  := by
  have hline : c ≠ '_' := by
    rintro rfl
    cases h
  cases halnum : a.isAlnum c with
  | false => rw [Alphabet.isWord, halnum, Bool.false_or, beq_eq_false_iff_ne]; exact hline
  | true =>
      rw [a.not_isSpace c halnum] at h
      cases h

/-! ### Keywords -/

/-- A text goes on with a keyword, behind some character. -/
def KeywordAt (a : Alphabet) (word : Text) (before : Option Char) (s : Text) : Prop :=
  Regex.wordAt a.isWord before = false ∧ Regex.startsWith word s = true
    ∧ Regex.wordAt a.isWord (s.drop word.length).head? = false

instance (word : Text) (before : Option Char) (s : Text) : Decidable (KeywordAt a word before s) :=
  inferInstanceAs (Decidable (_ ∧ _ ∧ _))

/-- A keyword is matched where it stands. -/
theorem ends_wholeWord {word : String} (hne : word.toList ≠ [])
    (hlower : ∀ c ∈ word.toList, c.isAlpha = true ∧ c.toLower = c) (p : Regex.Spot) :
  Regex.ends (wholeWord a word) p
    = if KeywordAt a word.toList p.before p.rest then [p.advance word.toList.length] else []
  := by
  have hletters : ∀ c ∈ word.toList, ∀ d : Char, d.toLower = c.toLower → a.isWord d = true := by
    intro c hc d hd
    apply a.isWord_of_isAlpha
    apply isAlpha_of_toLower_mem (fun e he => (hlower e he).1)
    rwa [hd, (hlower c hc).2]
  exact Regex.ends_word hne hletters p

theorem isSome_tryAt_loopKeyword {before : Option Char} {pos : ℕ} {s : Text} :
  (Regex.tryAt (loopKeyword a) ⟨before, pos, s, []⟩).isSome = true
    ↔ KeywordAt a "loop".toList before s
  := by
  rw [Regex.tryAt, loopKeyword, ends_wholeWord (by decide) (by decide)]
  split
  · next h => exact iff_of_true rfl h
  · next h => exact iff_of_false Bool.false_ne_true h

theorem startsWith_cons {word s : Text} {c d : Char} :
  Regex.startsWith (c :: word) (d :: s) = (d.toLower == c.toLower && Regex.startsWith word s)
  := by
  simp only [Regex.startsWith, List.length_cons, List.take_succ_cons, List.map_cons,
    List.cons_beq_cons]

/-- What a text starts with is read in front of a character that is not of the word. -/
theorem startsWith_append_cons {word u s : Text} {d : Char}
    (hd : d.toLower ∉ word.map Char.toLower) :
  Regex.startsWith word (u ++ d :: s) = Regex.startsWith word u
  := by
  induction word generalizing u with
  | nil => simp [Regex.startsWith]
  | cons c word ih =>
      rw [List.map_cons, List.mem_cons, not_or] at hd
      cases u with
      | nil =>
          rw [List.nil_append, startsWith_cons, beq_eq_false_iff_ne.mpr hd.1]
          rfl
      | cons e u => rw [List.cons_append, startsWith_cons, startsWith_cons, ih hd.2]

theorem length_le_of_startsWith {word s : Text} (h : Regex.startsWith word s = true) :
  word.length ≤ s.length
  := by
  have heq := congrArg List.length (eq_of_beq h)
  simp only [List.length_map, List.length_take] at heq
  omega

/-- A character outside words ends a keyword like the end of the text. -/
theorem keywordAt_append_cons {word : Text} {before : Option Char} {u s : Text} {d : Char}
    (hword : ∀ c ∈ word, c.isAlpha = true ∧ c.toLower = c) (hd : a.isWord d = false) :
  KeywordAt a word before (u ++ d :: s) ↔ KeywordAt a word before u
  := by
  have hnot : d.toLower ∉ word.map Char.toLower := by
    intro hmem
    obtain ⟨c, hc, heq⟩ := List.mem_map.mp hmem
    rw [(hword c hc).2] at heq
    have halpha : d.isAlpha = true :=
      isAlpha_of_toLower_mem (fun e he => (hword e he).1) (heq ▸ hc)
    rw [a.isWord_of_isAlpha halpha] at hd
    cases hd
  rw [KeywordAt, KeywordAt, startsWith_append_cons hnot]
  refine and_congr_right (fun _ => and_congr_right (fun hstarts => ?_))
  rw [List.drop_append_of_le_length (length_le_of_startsWith hstarts)]
  cases u.drop word.length with
  | nil => exact iff_of_true hd rfl
  | cons e rest => rfl

/-- A keyword stands somewhere in a text. -/
def Occurs (a : Alphabet) (word s : Text) : Prop :=
  ∃ front behind, s = front ++ behind ∧ KeywordAt a word front.getLast? behind

section Occurs

variable {word : Text} (hword : ∀ c ∈ word, c.isAlpha = true ∧ c.toLower = c)

include hword

/-- A keyword stands on one side of a character outside words. -/
theorem occurs_append_cons {u s : Text} {d : Char} (hd : a.isWord d = false) :
  Occurs a word (u ++ d :: s) ↔ Occurs a word u ∨ Occurs a word s
  := by
  have hbehind : ∀ front : Text, Regex.wordAt a.isWord (u ++ d :: front).getLast?
      = Regex.wordAt a.isWord front.getLast? := by
    intro front
    rw [List.getLast?_append_of_ne_nil _ (List.cons_ne_nil _ _)]
    cases front with
    | nil => apply hd
    | cons c front => rw [List.getLast?_cons_cons]
  constructor
  · rintro ⟨front, behind, hsplit, h⟩
    rcases List.append_eq_append_iff.mp hsplit with ⟨x, rfl, hx⟩ | ⟨x, rfl, hx⟩
    · cases x with
      | nil =>
          left
          refine ⟨u, [], (List.append_nil u).symm, ?_⟩
          rw [← keywordAt_append_cons hword hd (s := s), List.nil_append]
          rw [List.append_nil] at h
          rw [List.nil_append] at hx
          rw [hx]
          exact h
      | cons e x =>
          right
          rw [List.cons_append] at hx
          obtain ⟨rfl, rfl⟩ := List.cons.inj hx
          refine ⟨x, behind, rfl, ?_⟩
          rw [KeywordAt, hbehind] at h
          exact h
    · left
      refine ⟨front, x, rfl, ?_⟩
      rw [← keywordAt_append_cons hword hd (s := s), ← hx]
      exact h
  · rintro (⟨front, behind, rfl, h⟩ | ⟨front, behind, rfl, h⟩)
    · refine ⟨front, behind ++ d :: s, List.append_assoc _ _ _, ?_⟩
      exact (keywordAt_append_cons hword hd).mpr h
    · refine ⟨u ++ d :: front, behind, by simp, ?_⟩
      rw [KeywordAt, hbehind]
      exact h

end Occurs

theorem not_occurs_nil {word : Text} (hne : word ≠ []) : ¬ Occurs a word [] := by
  rintro ⟨front, behind, hsplit, h⟩
  obtain ⟨-, rfl⟩ := List.append_eq_nil_iff.mp hsplit.symm
  have hle := length_le_of_startsWith h.2.1
  exact hne (List.eq_nil_of_length_eq_zero (Nat.le_zero.mp hle))

theorem lastOr_none (u : Text) : Regex.lastOr none u = u.getLast? := Option.or_none

/-- A search for a keyword finds nothing exactly when it stands nowhere. -/
theorem search_wholeWord_eq_none_iff {word : String} (hne : word.toList ≠ [])
    (hlower : ∀ c ∈ word.toList, c.isAlpha = true ∧ c.toLower = c) (s : Text) :
  Regex.search (wholeWord a word) s 0 = none ↔ ¬ Occurs a word.toList s
  := by
  have htry : ∀ v w : Text,
      Regex.tryAt (wholeWord a word) ⟨Regex.lastOr none v, 0 + v.length, w, []⟩ = none
        ↔ ¬ KeywordAt a word.toList v.getLast? w := by
    intro v w
    rw [Regex.tryAt, ends_wholeWord hne hlower, lastOr_none]
    split
    · next h => exact iff_of_false (by simp) (fun hnot => hnot h)
    · next h => exact iff_of_true rfl h
  rw [Regex.search_zero, Regex.searchFrom_eq_none_iff, Occurs]
  simp only [htry, not_exists, not_and]

theorem loop_letters : ∀ c ∈ "loop".toList, c.isAlpha = true ∧ c.toLower = c := by decide

theorem toLower_of_keywordAt {before : Option Char} {c : Char} {s : Text}
    (h : KeywordAt a "loop".toList before (c :: s)) :
  c.toLower = 'l'
  := by
  have hstarts := h.2.1
  rw [show "loop".toList = 'l' :: "oop".toList from rfl, startsWith_cons, Bool.and_eq_true,
    beq_iff_eq] at hstarts
  exact hstarts.1

/-! ### Literals -/

/-- The literal that is open behind a character; a quote ends it under some condition on what
follows. -/
def literalAfter (ends : Char → Text → Bool) (literal : Option Char) (c : Char) (s : Text) :
    Option Char :=
  match literal with
  | none => if isQuote c then some c else none
  | some quote => if c = quote ∧ ends quote s = true then none else some quote

/-- A character as it is seen outside literals: blank when it belongs to one. -/
def shown (literal : Option Char) (c : Char) : Char :=
  if literal.isNone && !isQuote c then c else ' '

/-- A text with blanks in place of its literals; nothing when one of them is not closed. -/
def outside (ends : Char → Text → Bool) : Option Char → Text → Option Text
  | literal, [] => if literal.isNone then some [] else none
  | literal, c :: s =>
      (outside ends (literalAfter ends literal c s) s).map (List.cons (shown literal c))

/-- In SQL every quote ends a literal: a doubled one ends it and starts another. -/
def everyQuote (_ : Char) (_ : Text) : Bool := true

/-- In the head of a loop a literal ends with the first quote that no other quote follows. -/
def lastQuote (quote : Char) (s : Text) : Bool := s.head? != some quote

theorem isQuote_iff {c : Char} : isQuote c = true ↔ c = '\'' ∨ c = '"' := by
  rw [isQuote, Bool.or_eq_true, beq_iff_eq, beq_iff_eq]

theorem Alphabet.not_isWord_of_ascii (a : Alphabet) {c : Char} (hascii : c.toNat < 128)
    (h : (c.isAlphanum || c == '_') = false) :
  a.isWord c = false
  := by
  rwa [Alphabet.isWord, (a.ascii c hascii).2]

theorem Alphabet.not_isWord_of_isQuote (a : Alphabet) {c : Char} (h : isQuote c = true) :
  a.isWord c = false
  := by
  rcases isQuote_iff.mp h with rfl | rfl
  · exact a.not_isWord_of_ascii (by decide) (by decide)
  · exact a.not_isWord_of_ascii (by decide) (by decide)

theorem isQuote_of_literalAfter {ends : Char → Text → Bool} {literal : Option Char} {c : Char}
    {s : Text} (h : ∀ quote, literal = some quote → isQuote quote = true) :
  ∀ quote, literalAfter ends literal c s = some quote → isQuote quote = true
  := by
  intro quote hquote
  cases literal with
  | none =>
      rw [literalAfter] at hquote
      split at hquote
      · next hc =>
          cases hquote
          exact hc
      · cases hquote
  | some q =>
      rw [literalAfter] at hquote
      split at hquote
      · cases hquote
      · cases hquote
        exact h _ rfl

/-- A character that is no quote ends a literal like the end of the text. -/
theorem literalAfter_append_cons {literal : Option Char} {c d : Char} {s tail : Text}
    (hd : isQuote d = false) (h : ∀ quote, literal = some quote → isQuote quote = true) :
  literalAfter lastQuote literal c (s ++ d :: tail) = literalAfter lastQuote literal c s
  := by
  cases literal with
  | none => rfl
  | some quote =>
      have hlast : lastQuote quote (s ++ d :: tail) = lastQuote quote s := by
        cases s with
        | nil =>
            have hne : d ≠ quote := by
              rintro rfl
              rw [h d rfl] at hd
              cases hd
            rw [lastQuote, lastQuote, List.nil_append, List.head?_cons, bne_iff_ne.mpr]
            · rfl
            · rwa [ne_eq, Option.some.injEq]
        | cons e s => rfl
      rw [literalAfter, literalAfter, hlast]

theorem outside_cons {ends : Char → Text → Bool} {literal : Option Char} {c : Char} {s t : Text} :
  outside ends literal (c :: s) = some t
    ↔ ∃ t', outside ends (literalAfter ends literal c s) s = some t' ∧ t = shown literal c :: t'
  := by
  rw [outside, Option.map_eq_some_iff]
  exact exists_congr (fun t' => and_congr_right (fun _ => eq_comm))

/-- Up to the first literal nothing changes. -/
theorem outside_split {ends : Char → Text → Bool} {s t : Text} (h : outside ends none s = some t) :
  ∃ u, (s = u ∧ t = u)
    ∨ ∃ quote s' t', isQuote quote = true ∧ s = u ++ quote :: s' ∧ t = u ++ ' ' :: t'
  := by
  induction s generalizing t with
  | nil =>
      cases h
      exact ⟨[], .inl ⟨rfl, rfl⟩⟩
  | cons c s ih =>
      obtain ⟨t', ht', rfl⟩ := outside_cons.mp h
      cases hquote : isQuote c with
      | true =>
          refine ⟨[], .inr ⟨c, s, t', hquote, rfl, ?_⟩⟩
          rw [shown, hquote]
          rfl
      | false =>
          have hshown : shown none c = c := by rw [shown, hquote]; rfl
          have hafter : literalAfter ends none c s = none := by rw [literalAfter, hquote]; rfl
          rw [hafter] at ht'
          rw [hshown]
          obtain ⟨u, ⟨rfl, rfl⟩ | ⟨quote, s', t'', hq, rfl, rfl⟩⟩ := ih ht'
          · exact ⟨_, .inl ⟨rfl, rfl⟩⟩
          · exact ⟨c :: u, .inr ⟨quote, s', t'', hq, rfl, rfl⟩⟩

/-- Keywords are read in the same way where literals are blank. -/
theorem keywordAt_outside {word : Text} (hword : ∀ c ∈ word, c.isAlpha = true ∧ c.toLower = c)
    {ends : Char → Text → Bool} {before before' : Option Char} {s t tail : Text} {d : Char}
    (hd : a.isWord d = false)
    (hbefore : Regex.wordAt a.isWord before = Regex.wordAt a.isWord before')
    (h : outside ends none s = some t) :
  KeywordAt a word before (s ++ d :: tail) ↔ KeywordAt a word before' t
  := by
  have hsame : ∀ t, KeywordAt a word before t ↔ KeywordAt a word before' t := by
    intro t
    rw [KeywordAt, KeywordAt, hbefore]
  rw [keywordAt_append_cons hword hd, hsame]
  obtain ⟨u, ⟨rfl, rfl⟩ | ⟨quote, s', t', hq, rfl, rfl⟩⟩ := outside_split h
  · rfl
  · rw [keywordAt_append_cons hword (a.not_isWord_of_isQuote hq),
      keywordAt_append_cons hword (a.not_isWord_of_isSpace rfl)]

/-- Behind a literal, the characters that are seen end words like the characters that are there. -/
theorem wordAt_shown {ends : Char → Text → Bool} {literal : Option Char} {c : Char} {s : Text}
    (hl : ∀ quote, literal = some quote → isQuote quote = true)
    (h : literalAfter ends literal c s = none) :
  Regex.wordAt a.isWord (some c) = Regex.wordAt a.isWord (some (shown literal c))
  := by
  cases literal with
  | none =>
      cases hquote : isQuote c with
      | true =>
          rw [literalAfter, if_pos hquote] at h
          cases h
      | false =>
          rw [shown, hquote]
          rfl
  | some quote =>
      rw [literalAfter] at h
      split at h
      · next hend =>
          have hquote : a.isWord c = false := by
            rw [hend.1]
            exact a.not_isWord_of_isQuote (hl quote rfl)
          have hblank : a.isWord ' ' = false := a.not_isWord_of_isSpace rfl
          exact hquote.trans hblank.symm
      · cases h

end Lineage

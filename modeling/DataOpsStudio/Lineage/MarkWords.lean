import DataOpsStudio.Lineage.Marks

/-!
# The words of a body

The words that the end of a block is searched for are those at the marks, when none of them stands
in a literal.  Literals and the rest of a keyword have no marks.
-/

namespace Lineage

open Text Sql

/-! ### The words of a text -/

section Tokens

variable {a : Alphabet}

/-- The words `BEGIN` and `END` of a text, whether in literals or outside. -/
def wordTokens (a : Alphabet) : Option Char → ℕ → Text → List Regex.Found
  | _, _, [] => []
  | before, pos, c :: s =>
      if KeywordAt a "begin".toList before (c :: s) then
        ⟨pos, pos + 5, []⟩ :: wordTokens a (some c) (pos + 1) s
      else if KeywordAt a "end".toList before (c :: s) then
        ⟨pos, pos + 3, []⟩ :: wordTokens a (some c) (pos + 1) s
      else wordTokens a (some c) (pos + 1) s

theorem tryAt_blockToken (before : Option Char) (pos : ℕ) (s : Text) :
  Regex.tryAt (blockToken a) ⟨before, pos, s, []⟩
    = if KeywordAt a "begin".toList before s then some (Regex.Spot.advance ⟨before, pos, s, []⟩ 5)
      else if KeywordAt a "end".toList before s then
        some (Regex.Spot.advance ⟨before, pos, s, []⟩ 3)
      else none
  := by
  rw [Regex.tryAt, blockToken, Regex.ends_alt, ends_wholeWord (by decide) (by decide),
    ends_wholeWord (by decide) (by decide)]
  dsimp only
  split
  · rfl
  · split <;> rfl

theorem not_keywordAt_inside {word s : Text} {before : Option Char}
    (h : Regex.wordAt a.isWord before = true) :
  ¬KeywordAt a word before s
  := by
  rintro ⟨hbefore, -⟩
  rw [h] at hbefore
  cases hbefore

/-- The letters of a keyword are letters. -/
theorem isWord_take_of_keywordAt {word : Text}
    (hword : ∀ c ∈ word, c.isAlpha = true ∧ c.toLower = c) {before : Option Char} {s : Text} (h : KeywordAt a word before s) :
  ∀ c ∈ s.take word.length, a.isWord c = true
  := by
  intro c hc
  apply a.isWord_of_isAlpha
  apply isAlpha_of_toLower
  have hmem : c.toLower ∈ word.map Char.toLower := by
    rw [← eq_of_beq h.2.1]
    exact List.mem_map_of_mem hc
  obtain ⟨d, hd, heq⟩ := List.mem_map.mp hmem
  rw [← heq, (hword d hd).2]
  exact (hword d hd).1

/-- What is left of a word is passed over, or is searched without finding anything. -/
theorem matchesFrom_blockToken_skip {before : Option Char} {pos skip : ℕ} {s : Text}
    (hbefore : Regex.wordAt a.isWord before = true)
    (hs : ∀ c ∈ s.take skip, a.isWord c = true) (hskip : skip ≤ s.length) :
  Regex.matchesFrom (blockToken a) skip before pos s
    = Regex.matchesFrom (blockToken a) 0 before pos s
  := by
  have hlength : (s.take skip).length = skip := List.length_take_of_le hskip
  have hskipped := Regex.matchesFrom_skip (blockToken a) before pos (s.take skip) (s.drop skip)
  rw [hlength, List.take_append_drop] at hskipped
  rw [hskipped]
  have hnone := @Regex.matchesFrom_append (blockToken a) before pos (s.take skip) (s.drop skip) (by
    intro v c w hsplit
    have hinside : Regex.wordAt a.isWord (Regex.lastOr before v) = true := by
      cases hlast : v.getLast? with
      | none => rwa [Regex.lastOr, hlast, Option.none_or]
      | some d =>
          rw [Regex.lastOr, hlast]
          apply hs d
          rw [hsplit]
          exact List.mem_append_left _ (List.mem_of_getLast? hlast)
    rw [tryAt_blockToken, if_neg (not_keywordAt_inside hinside),
      if_neg (not_keywordAt_inside hinside)])
  rw [hlength, List.take_append_drop] at hnone
  exact hnone.symm

theorem matchesFrom_blockToken {before : Option Char} {pos : ℕ} {s : Text} :
  Regex.matchesFrom (blockToken a) 0 before pos s = wordTokens a before pos s
  := by
  induction s generalizing before pos with
  | nil =>
      have hbegin : ¬KeywordAt a "begin".toList before [] := by
        rintro ⟨-, hstarts, -⟩
        cases hstarts
      have hend : ¬KeywordAt a "end".toList before [] := by
        rintro ⟨-, hstarts, -⟩
        cases hstarts
      rw [Regex.matchesFrom, tryAt_blockToken, if_neg hbegin, if_neg hend]
      rfl
  | cons c s ih =>
      have hword : ∀ word : Text, (∀ c ∈ word, c.isAlpha = true ∧ c.toLower = c) → word ≠ [] →
          KeywordAt a word before (c :: s) →
            Regex.matchesFrom (blockToken a) (word.length - 1) (some c) (pos + 1) s
              = wordTokens a (some c) (pos + 1) s := by
        intro word hletters hne hkeyword
        obtain ⟨d, word, rfl⟩ := List.exists_cons_of_ne_nil hne
        have hwords := isWord_take_of_keywordAt hletters hkeyword
        have hlength : (d :: word).length ≤ (c :: s).length :=
          length_le_of_startsWith hkeyword.2.1
        rw [List.length_cons, List.length_cons] at hlength
        rw [List.length_cons, Nat.add_sub_cancel, matchesFrom_blockToken_skip, ih]
        · exact hwords c List.mem_cons_self
        · intro e he
          exact hwords e (List.mem_cons_of_mem c he)
        · exact Nat.le_of_succ_le_succ hlength
      rw [Regex.matchesFrom, tryAt_blockToken, wordTokens]
      by_cases hbegin : KeywordAt a "begin".toList before (c :: s)
      · rw [if_pos hbegin, if_pos hbegin, ← hword _ (by decide) (by decide) hbegin]
        dsimp only [Regex.Spot.advance]
        rw [Nat.add_sub_cancel_left]
        rfl
      · rw [if_neg hbegin, if_neg hbegin]
        by_cases hend : KeywordAt a "end".toList before (c :: s)
        · rw [if_pos hend, if_pos hend, ← hword _ (by decide) (by decide) hend]
          dsimp only [Regex.Spot.advance]
          rw [Nat.add_sub_cancel_left]
          rfl
        · rw [if_neg hend, if_neg hend]
          exact ih

theorem blockTokens_eq {body : Text} : blockTokens a body 0 = wordTokens a none 0 body :=
  matchesFrom_blockToken

/-- Up to where the depth is zero, `findBlockEnd` adds up what the words change. -/
theorem blockEndFrom_append {sql : Text} {depth : ℤ} {front behind : List Regex.Found}
    (h : ∀ front' token rest, front = front' ++ token :: rest →
      depth + ((front' ++ [token]).map (tokenDepth a sql)).sum ≠ 0) :
  blockEndFrom a sql depth (front ++ behind)
    = blockEndFrom a sql (depth + (front.map (tokenDepth a sql)).sum) behind
  := by
  induction front generalizing depth with
  | nil =>
      rw [List.map_nil, List.sum_nil, Int.add_zero]
      rfl
  | cons token front ih =>
      have hne : depth + tokenDepth a sql token ≠ 0 := by
        have hne := h [] token front rfl
        rwa [List.nil_append, List.map_singleton, List.sum_singleton] at hne
      have hrest := @ih (depth + tokenDepth a sql token) (by
        intro front' token' rest hsplit
        have hne' := h (token :: front') token' rest (by rw [hsplit]; rfl)
        rwa [List.cons_append, List.map_cons, List.sum_cons, ← Int.add_assoc] at hne')
      rw [List.map_cons, List.sum_cons, ← Int.add_assoc, ← hrest, List.cons_append, blockEndFrom]
      rw [tokenDepth] at hne ⊢
      split at hne
      · next hbegin => rw [if_pos hbegin, if_pos hbegin]
      · next hbegin =>
          rw [if_neg hbegin, if_neg hbegin]
          split at hne
          · next hend =>
              rw [if_pos hend, if_pos hend, if_neg (by omega)]
              rfl
          · next hend => rw [if_neg hend, if_neg hend, Int.add_zero]

/-! ### Words and marks -/

theorem mem_marksFrom {literal before : Option Char} {pos : ℕ} {s : Text} {m : Mark}
    (h : m ∈ marksFrom a literal before pos s) :
  pos ≤ m.pos ∧ m.rest = s.drop (m.pos - pos)
  := by
  induction s generalizing literal before pos with
  | nil => cases h
  | cons c s ih =>
      have hrest : m ∈ marksFrom a (literalAfter everyQuote literal c s) (some c) (pos + 1) s →
          pos ≤ m.pos ∧ m.rest = (c :: s).drop (m.pos - pos) := by
        intro hm
        obtain ⟨hpos, hdrop⟩ := ih hm
        obtain ⟨k, hk⟩ := Nat.exists_eq_add_of_le hpos
        refine ⟨by omega, ?_⟩
        rw [hdrop, hk, Nat.add_sub_cancel_left, Nat.add_right_comm, Nat.add_assoc,
          Nat.add_sub_cancel_left, List.drop_succ_cons]
      rw [marksFrom] at h
      split at h
      · rcases List.mem_cons.mp h with rfl | hm
        · refine ⟨Nat.le_refl pos, ?_⟩
          rw [Nat.sub_self]
          rfl
        · exact hrest hm
      · exact hrest h

theorem pairwise_marksFrom {literal before : Option Char} {pos : ℕ} {s : Text} :
  (marksFrom a literal before pos s).Pairwise (fun m m' => m.pos < m'.pos)
  := by
  induction s generalizing literal before pos with
  | nil => exact List.Pairwise.nil
  | cons c s ih =>
      rw [marksFrom]
      split
      · exact List.Pairwise.cons (fun m hm => (mem_marksFrom hm).1) ih
      · exact ih

/-- The word that stands at a mark. -/
def Mark.token? (a : Alphabet) (m : Mark) : Option Regex.Found :=
  if m.IsBegin a then some ⟨m.pos, m.pos + 5, []⟩
  else if m.IsEnd a then some ⟨m.pos, m.pos + 3, []⟩
  else none

theorem Mark.start_of_token? {m : Mark} {token : Regex.Found} (h : m.token? a = some token) :
  token.start = m.pos
  := by
  rw [Mark.token?] at h
  split at h
  · cases h
    rfl
  · split at h
    · cases h
      rfl
    · cases h

theorem wordTokens_cons {before : Option Char} {pos : ℕ} {c : Char} {s : Text} :
  wordTokens a before pos (c :: s)
    = ((⟨pos, before, c :: s⟩ : Mark).token? a).toList ++ wordTokens a (some c) (pos + 1) s
  := by
  rw [wordTokens]
  by_cases hbegin : KeywordAt a "begin".toList before (c :: s)
  · have hmark : (⟨pos, before, c :: s⟩ : Mark).IsBegin a := hbegin
    rw [if_pos hbegin, Mark.token?, if_pos hmark]
    rfl
  · have hmark : ¬(⟨pos, before, c :: s⟩ : Mark).IsBegin a := hbegin
    rw [if_neg hbegin, Mark.token?, if_neg hmark]
    by_cases hend : KeywordAt a "end".toList before (c :: s)
    · have hmark : (⟨pos, before, c :: s⟩ : Mark).IsEnd a := hend
      rw [if_pos hend, if_pos hmark]
      rfl
    · have hmark : ¬(⟨pos, before, c :: s⟩ : Mark).IsEnd a := hend
      rw [if_neg hend, if_neg hmark]
      rfl

theorem le_start_of_mem_wordTokens {before : Option Char} {pos : ℕ} {s : Text}
    {token : Regex.Found} (h : token ∈ wordTokens a before pos s) :
  pos ≤ token.start
  := by
  induction s generalizing before pos with
  | nil => cases h
  | cons c s ih =>
      rw [wordTokens_cons] at h
      rcases List.mem_append.mp h with hmem | hmem
      · exact Nat.le_of_eq (Mark.start_of_token? (Option.mem_toList.mp hmem)).symm
      · exact Nat.le_of_succ_le (ih hmem)

/-- When all words stand outside literals, they are the words at the marks. -/
theorem wordTokens_eq_filterMap {literal before : Option Char} {pos : ℕ} {s : Text}
    (h : ∀ token ∈ wordTokens a before pos s, ∃ m ∈ marksFrom a literal before pos s,
      m.pos = token.start) :
  wordTokens a before pos s = (marksFrom a literal before pos s).filterMap (Mark.token? a)
  := by
  induction s generalizing literal before pos with
  | nil => rfl
  | cons c s ih =>
      have hnext : marksFrom a literal before pos (c :: s)
          = (if literal = none ∧ isQuote c = false ∧ isMarked a (c :: s) = true then
              [⟨pos, before, c :: s⟩] else [])
            ++ marksFrom a (literalAfter everyQuote literal c s) (some c) (pos + 1) s := by
        rw [marksFrom]
        split <;> rfl
      have htoken := @wordTokens_cons a before pos c s
      have hcover : ∀ token ∈ wordTokens a (some c) (pos + 1) s,
          ∃ m ∈ marksFrom a (literalAfter everyQuote literal c s) (some c) (pos + 1) s,
            m.pos = token.start := by
        intro token hmem
        have hstart := le_start_of_mem_wordTokens hmem
        obtain ⟨m, hm, hpos⟩ := h token (by rw [htoken]; exact List.mem_append_right _ hmem)
        rw [hnext] at hm
        rcases List.mem_append.mp hm with hm | hm
        · split at hm
          · cases List.mem_singleton.mp hm
            dsimp only at hpos
            omega
          · cases hm
        · exact ⟨m, hm, hpos⟩
      rw [htoken, hnext, List.filterMap_append, ih hcover]
      congr 1
      split
      · rw [List.filterMap_cons, List.filterMap_nil]
        cases (⟨pos, before, c :: s⟩ : Mark).token? a <;> rfl
      · next hno =>
          cases hsome : (⟨pos, before, c :: s⟩ : Mark).token? a with
          | none => rfl
          | some token =>
              exfalso
              have hstart : token.start = pos := Mark.start_of_token? hsome
              obtain ⟨m, hm, hpos⟩ := h token (by
                rw [htoken, hsome]
                exact List.mem_append_left _ (List.mem_singleton_self token))
              rw [hnext, if_neg hno, List.nil_append] at hm
              have hle := (mem_marksFrom hm).1
              omega

/-- A word at a mark changes the depth that is counted like the mark does. -/
theorem tokenDepth_of_token? {body : Text} {m : Mark} {token : Regex.Found}
    (hrest : m.rest = body.drop m.pos) (h : m.token? a = some token) :
  tokenDepth a body token = m.counted a
  := by
  rw [Mark.token?] at h
  by_cases hbegin : m.IsBegin a
  · rw [if_pos hbegin] at h
    cases h
    have hstarts : startsWithWord "begin".toList (body.drop m.pos) = true := by
      rw [← hrest, startsWithWord_eq rfl]
      exact hbegin.2.1
    rw [tokenDepth, if_pos hstarts, hbegin.counted]
  · rw [if_neg hbegin] at h
    by_cases hend : m.IsEnd a
    · rw [if_pos hend] at h
      cases h
      have hstarts : ¬startsWithWord "begin".toList (body.drop m.pos) = true := by
        rw [← hrest]
        intro hstarts
        have hlooks : startsWithKeyword a "end".toList m.rest = true := hend.looksEnd
        cases hm : m.rest with
        | nil =>
            rw [hm] at hstarts
            cases hstarts
        | cons c s =>
            rw [hm] at hlooks hstarts
            have hc : c.toLower = 'e' := toLower_of_startsWithKeyword hlooks
            have hc' : c.toLower = 'b' :=
              Option.some.inj (congrArg List.head? (eq_of_beq hstarts))
            rw [hc] at hc'
            exact absurd hc' (by decide)
      have hafter : isBlockEnd a (body.drop (m.pos + 3)) = m.endsBlock a := by
        rw [Mark.endsBlock, hrest, List.drop_drop]
      rw [tokenDepth, if_neg hstarts, hend.counted]
      exact if_congr (by rw [← hafter]) rfl rfl
    · rw [if_neg hend] at h
      cases h

theorem counted_of_token?_eq_none {m : Mark} (h : m.token? a = none) : m.counted a = 0 := by
  rw [Mark.token?] at h
  apply Mark.counted_of_not
  · intro hbegin
    rw [if_pos hbegin] at h
    cases h
  · intro hend
    rw [if_neg hend.not_isBegin, if_pos hend] at h
    cases h

/-- The depth that `findBlockEnd` counts is that of the words. -/
theorem countedDepth_eq {body : Text}
    (h : ∀ token ∈ blockTokens a body 0, ∃ m ∈ marks a body, m.pos = token.start) (pos : ℕ) :
  countedDepth a body pos = wordDepth a ((marks a body).filter (fun m => decide (m.pos < pos)))
  := by
  have hrest : ∀ m ∈ marks a body, m.rest = body.drop m.pos := fun m hm => (mem_marksFrom hm).2
  rw [blockTokens_eq] at h
  rw [countedDepth, blockTokens_eq, wordTokens_eq_filterMap h, wordDepth]
  change _ = (((marks a body).filter _).map _).sum
  change (((List.filterMap _ (marks a body)).filter _).map _).sum = _
  generalize marks a body = ms at hrest
  induction ms with
  | nil => rfl
  | cons m ms ih =>
      have hms := ih (fun m' hm => hrest m' (List.mem_cons_of_mem m hm))
      cases htoken : m.token? a with
      | none =>
          rw [List.filterMap_cons_none htoken, hms, List.filter_cons]
          split
          · rw [List.map_cons, List.sum_cons, counted_of_token?_eq_none htoken, Int.zero_add]
          · rfl
      | some token =>
          have hdepth := tokenDepth_of_token? (hrest m List.mem_cons_self) htoken
          have hstart := Mark.start_of_token? htoken
          rw [List.filterMap_cons_some htoken, List.filter_cons, List.filter_cons, hstart]
          split
          · rw [List.map_cons, List.sum_cons, List.map_cons, List.sum_cons, hms, hdepth]
          · exact hms

end Tokens

/-! ### Marks over what is passed -/

section Passing

variable {a : Alphabet} {before : Option Char} {pos : ℕ}

theorem literalLength_le {quote : Char} {s : Text} : literalLength quote s ≤ s.length := by
  induction s using literalLength.induct quote with
  | case1 => exact Nat.le_refl 0
  | case2 c => exact Nat.le_refl 1
  | case3 s ih =>
      rw [literalLength, if_pos rfl, if_pos rfl]
      exact Nat.succ_le_succ (Nat.succ_le_succ ih)
  | case4 d s hne =>
      rw [literalLength, if_pos rfl, if_neg hne]
      exact Nat.succ_le_succ (Nat.zero_le _)
  | case5 c d s hne ih =>
      rw [literalLength, if_neg hne]
      exact Nat.succ_le_succ ih

/-- A literal has no marks. -/
theorem marksFrom_literal {quote : Char} (hquote : isQuote quote = true) {s : Text} :
  ∃ before', marksFrom a (some quote) before pos s
    = marksFrom a none before' (pos + literalLength quote s) (s.drop (literalLength quote s))
  := by
  have hinside : ∀ {before pos c t}, marksFrom a (some quote) before pos (c :: t)
      = marksFrom a (literalAfter everyQuote (some quote) c t) (some c) (pos + 1) t := by
    intro before pos c t
    rw [marksFrom, if_neg (fun h => by cases h.1)]
  have hafter : ∀ {t}, literalAfter everyQuote (some quote) quote t = none := by
    intro t
    rw [literalAfter, if_pos ⟨rfl, rfl⟩]
  induction s using literalLength.induct quote generalizing before pos with
  | case1 => exact ⟨none, rfl⟩
  | case2 c =>
      rw [hinside]
      exact ⟨none, rfl⟩
  | case3 s ih =>
      have hopen : ∀ {before pos t}, marksFrom a none before pos (quote :: t)
          = marksFrom a (some quote) (some quote) (pos + 1) t := by
        intro before pos t
        have hliteral : literalAfter everyQuote none quote t = some quote := by
          rw [literalAfter, if_pos hquote]
        rw [marksFrom, if_neg (fun h => by rw [hquote] at h; cases h.2.1), hliteral]
      obtain ⟨before', ih⟩ := @ih (some quote) (pos + 1 + 1)
      rw [hinside, hafter, hopen, ih, literalLength, if_pos rfl, if_pos rfl]
      refine ⟨before', ?_⟩
      rw [List.drop_succ_cons, List.drop_succ_cons]
      congr 1
      omega
  | case4 d s hne =>
      rw [hinside, hafter, literalLength, if_pos rfl, if_neg hne]
      exact ⟨some quote, rfl⟩
  | case5 c d s hne ih =>
      have hliteral : literalAfter everyQuote (some quote) c (d :: s) = some quote := by
        rw [literalAfter, if_neg (fun h => hne h.1)]
      obtain ⟨before', ih⟩ := @ih (some c) (pos + 1)
      rw [hinside, hliteral, ih, literalLength, if_neg hne]
      refine ⟨before', ?_⟩
      rw [List.drop_succ_cons]
      congr 1
      omega

theorem marksFrom_quote {quote : Char} (hquote : isQuote quote = true) {s : Text} :
  ∃ before', marksFrom a none before pos (quote :: s)
    = marksFrom a none before' (pos + (literalLength quote s + 1))
      ((quote :: s).drop (literalLength quote s + 1))
  := by
  have hliteral : literalAfter everyQuote none quote s = some quote := by
    rw [literalAfter, if_pos hquote]
  rw [marksFrom, if_neg (fun h => by rw [hquote] at h; cases h.2.1), hliteral]
  obtain ⟨before', h⟩ := @marksFrom_literal a (some quote) (pos + 1) quote hquote s
  refine ⟨before', ?_⟩
  rw [h, List.drop_succ_cons]
  congr 1
  omega

/-- A character where nothing stands is no mark. -/
theorem marksFrom_unmarked {c : Char} {s : Text} (hquote : isQuote c = false)
    (h : isMarked a (c :: s) = false) :
  marksFrom a none before pos (c :: s) = marksFrom a none (some c) (pos + 1) s
  := by
  have hliteral : literalAfter everyQuote none c s = none := by
    rw [literalAfter, hquote]
    rfl
  rw [marksFrom, if_neg (fun hmark => by rw [h] at hmark; cases hmark.2.2), hliteral]

theorem marksFrom_marked {c : Char} {s : Text} (hquote : isQuote c = false)
    (h : isMarked a (c :: s) = true) :
  marksFrom a none before pos (c :: s)
    = ⟨pos, before, c :: s⟩ :: marksFrom a none (some c) (pos + 1) s
  := by
  have hliteral : literalAfter everyQuote none c s = none := by
    rw [literalAfter, hquote]
    rfl
  rw [marksFrom, if_pos ⟨rfl, hquote, h⟩, hliteral]

/-- A letter that no keyword starts with is no mark. -/
theorem isMarked_eq_false {c : Char} {s : Text} (halpha : c.isAlpha = true)
    (hbegin : c.toLower ≠ 'b') (hend : startsWithKeyword a "end".toList (c :: s) = false) :
  isMarked a (c :: s) = false ∧ isQuote c = false
  := by
  have hno : startsWithKeyword a "begin".toList (c :: s) = false := by
    rw [← Bool.not_eq_true]
    intro h
    exact hbegin (toLower_of_startsWithKeyword h)
  constructor
  · rw [isMarked, hno, hend, List.head?_cons, Bool.false_or, Bool.false_or,
      beq_eq_false_iff_ne, ne_eq, Option.some.injEq]
    rintro rfl
    cases halpha
  · cases hquote : isQuote c with
    | false => rfl
    | true => rcases isQuote_iff.mp hquote with rfl | rfl <;> cases halpha

theorem isMarked_letter {c d : Char} {s : Text} (hc : c.toLower = d) (hd : d.isAlpha = true)
    (hbegin : d ≠ 'b') (hend : d ≠ 'e') :
  isMarked a (c :: s) = false ∧ isQuote c = false
  := by
  apply isMarked_eq_false
  · apply isAlpha_of_toLower
    rw [hc]
    exact hd
  · rw [hc]
    exact hbegin
  · rw [← Bool.not_eq_true]
    intro h
    have hc' : c.toLower = 'e' := toLower_of_startsWithKeyword h
    exact hend (hc ▸ hc')

theorem marksFrom_letter {c d : Char} {s : Text} (hc : c.toLower = d) (hd : d.isAlpha = true)
    (hbegin : d ≠ 'b') (hend : d ≠ 'e') :
  marksFrom a none before pos (c :: s) = marksFrom a none (some c) (pos + 1) s
  := by
  obtain ⟨hmarked, hquote⟩ := @isMarked_letter a c d s hc hd hbegin hend
  exact marksFrom_unmarked hquote hmarked

/-- The letters of a word in front of a text. -/
theorem exists_of_startsWithKeyword {word s : Text} (h : startsWithKeyword a word s = true) :
  ∃ u, s = u ++ s.drop word.length ∧ u.map Char.toLower = word
  := by
  rw [startsWithKeyword, Bool.and_eq_true] at h
  exact ⟨s.take word.length, (List.take_append_drop _ s).symm, eq_of_beq h.1⟩

/-- Behind its first letter `BEGIN` has no marks. -/
theorem marksFrom_begin {c : Char} {s : Text}
    (h : startsWithKeyword a "begin".toList (c :: s) = true) :
  ∃ before', marksFrom a none (some c) (pos + 1) s
    = marksFrom a none before' (pos + 5) ((c :: s).drop 5)
  := by
  obtain ⟨u, hsplit, hu⟩ := exists_of_startsWithKeyword h
  have hletters : u.map Char.toLower = ['b', 'e', 'g', 'i', 'n'] := hu
  simp only [List.map_eq_cons_iff, List.map_eq_nil_iff] at hletters
  obtain ⟨_, _, rfl, -, e, _, rfl, he, g, _, rfl, hg, i, _, rfl, hi, n, _, rfl, hn, rfl⟩ :=
    hletters
  obtain ⟨rfl, hs⟩ := List.cons.inj hsplit
  have hdrop : "begin".toList.length = 5 := rfl
  rw [hdrop] at hs
  have hend : startsWithKeyword a "end".toList (e :: g :: i :: n :: (c :: s).drop 5) = false := by
    rw [← Bool.not_eq_true]
    intro hend
    obtain ⟨v, hsplit', hv⟩ := exists_of_startsWithKeyword hend
    have hletters' : v.map Char.toLower = ['e', 'n', 'd'] := hv
    simp only [List.map_eq_cons_iff, List.map_eq_nil_iff] at hletters'
    obtain ⟨_, _, rfl, -, g', _, rfl, hg', -⟩ := hletters'
    obtain ⟨-, hrest⟩ := List.cons.inj hsplit'
    obtain ⟨rfl, -⟩ := List.cons.inj hrest
    rw [hg] at hg'
    exact absurd hg' (by decide)
  have halpha : e.isAlpha = true := isAlpha_of_toLower (by rw [he]; rfl)
  obtain ⟨hmarked, hquote⟩ := isMarked_eq_false halpha (by rw [he]; decide) hend
  refine ⟨some n, ?_⟩
  have hread : marksFrom a none (some c) (pos + 1) (e :: g :: i :: n :: (c :: s).drop 5)
      = marksFrom a none (some n) (pos + 5) ((c :: s).drop 5) := by
    rw [marksFrom_unmarked hquote hmarked,
      marksFrom_letter hg (by decide) (by decide) (by decide),
      marksFrom_letter hi (by decide) (by decide) (by decide),
      marksFrom_letter hn (by decide) (by decide) (by decide)]
  rw [← hread]
  exact congrArg (marksFrom a none (some c) (pos + 1)) hs

theorem marksFrom_end {c : Char} {s : Text}
    (h : startsWithKeyword a "end".toList (c :: s) = true) :
  ∃ before', marksFrom a none (some c) (pos + 1) s
    = marksFrom a none before' (pos + 3) ((c :: s).drop 3)
  := by
  obtain ⟨u, hsplit, hu⟩ := exists_of_startsWithKeyword h
  have hletters : u.map Char.toLower = ['e', 'n', 'd'] := hu
  simp only [List.map_eq_cons_iff, List.map_eq_nil_iff] at hletters
  obtain ⟨_, _, rfl, -, n, _, rfl, hn, d, _, rfl, hd, rfl⟩ := hletters
  obtain ⟨rfl, hs⟩ := List.cons.inj hsplit
  have hdrop : "end".toList.length = 3 := rfl
  rw [hdrop] at hs
  refine ⟨some d, ?_⟩
  have hread : marksFrom a none (some c) (pos + 1) (n :: d :: (c :: s).drop 3)
      = marksFrom a none (some d) (pos + 3) ((c :: s).drop 3) := by
    rw [marksFrom_letter hn (by decide) (by decide) (by decide),
      marksFrom_letter hd (by decide) (by decide) (by decide)]
  rw [← hread]
  exact congrArg (marksFrom a none (some c) (pos + 1)) hs

end Passing

end Lineage

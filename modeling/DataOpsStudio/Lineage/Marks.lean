import DataOpsStudio.Lineage.Words
import Mathlib.Algebra.BigOperators.Group.List.Basic
import Mathlib.Algebra.Order.Ring.Int

/-!
# Blocks

A block begins with the word `BEGIN` and ends with the word `END`.  Where a body is cut, blocks are
counted by the letters of these words, which may also stand in a name.  Both ways to count agree on
some marks exactly when the letters are read as the words that are there.
-/

namespace Lineage

open Text Sql

/-! ### Marks -/

/-- A place outside literals where a semicolon or the letters of `BEGIN` or `END` stand: what is in
front of it, and the text from it on. -/
structure Mark where
  pos : ℕ
  before : Option Char
  rest : Text

namespace Mark

variable (a : Alphabet) (m : Mark)

/-- The letters of `BEGIN`, without a letter or digit behind them. -/
def looksBegin : Bool := startsWithKeyword a "begin".toList m.rest

/-- The letters of `END`, without a letter or digit behind them. -/
def looksEnd : Bool := startsWithKeyword a "end".toList m.rest

/-- What follows the letters of `END` is what follows the end of a block. -/
def endsBlock : Bool := isBlockEnd a (m.rest.drop 3)

def isSemicolon : Bool := m.rest.head? == some ';'

/-- The word `BEGIN`. -/
def IsBegin : Prop := KeywordAt a "begin".toList m.before m.rest

/-- The word `END`. -/
def IsEnd : Prop := KeywordAt a "end".toList m.before m.rest

instance : Decidable (m.IsBegin a) := inferInstanceAs (Decidable (KeywordAt a _ _ _))

instance : Decidable (m.IsEnd a) := inferInstanceAs (Decidable (KeywordAt a _ _ _))

/-- How many more blocks are open behind a mark than in front of it. -/
def delta : ℤ := if m.IsBegin a then 1 else if m.IsEnd a then -1 else 0

end Mark

section Marks

variable (a : Alphabet)

/-- Whether a text starts like a mark. -/
def isMarked (s : Text) : Bool :=
  startsWithKeyword a "begin".toList s || startsWithKeyword a "end".toList s
    || s.head? == some ';'

/-- The marks of a text that stands behind some others. -/
def marksFrom : Option Char → Option Char → ℕ → Text → List Mark
  | _, _, _, [] => []
  | literal, before, pos, c :: s =>
      let after := marksFrom (literalAfter everyQuote literal c s) (some c) (pos + 1) s
      if literal = none ∧ isQuote c = false ∧ isMarked a (c :: s) = true then
        ⟨pos, before, c :: s⟩ :: after
      else after

/-- The marks of a body. -/
def marks (body : Text) : List Mark := marksFrom a none none 0 body

/-- Where semicolons end that are at the top, as the depth is counted from mark to mark. -/
def endsFrom {Depth : Type} (next : Depth → Mark → Depth) (isTop : Depth → Bool) :
    Depth → List Mark → List ℕ
  | _, [] => []
  | depth, m :: ms =>
      if m.isSemicolon && isTop depth then (m.pos + 1) :: endsFrom next isTop (next depth m) ms
      else endsFrom next isTop (next depth m) ms

/-- The number of open blocks behind some marks. -/
def blockDepth (ms : List Mark) : ℤ := (ms.map (Mark.delta a)).sum

/-- Where the semicolons outside literals and blocks end. -/
def topLevelEnds (body : Text) : List ℕ :=
  endsFrom (fun depth m => depth + Mark.delta a m) (· == 0) (0 : ℤ) (marks a body)

/-- The pieces of a body that end at some places. -/
def piecesFrom (body : Text) : ℕ → List ℕ → List RawSegment
  | _, [] => []
  | start, stop :: stops =>
      ⟨(body.take (stop - 1)).drop start, start, stop⟩ :: piecesFrom body stop stops

/-- The statements of a body. -/
def statements (body : Text) : List RawSegment := piecesFrom body 0 (topLevelEnds a body)

/-- A piece has a keyword of a statement that is kept. -/
def hasDml (piece : RawSegment) : Bool := (Regex.search (bodyDml a) (strip piece.text) 0).isSome

/-! ### Depths -/

/-- How a word changes the depth that `findBlockEnd` counts. -/
def tokenDepth (sql : Text) (token : Regex.Found) : ℤ :=
  if startsWithWord "begin".toList (sql.drop token.start) then 1
  else if isBlockEnd a (sql.drop token.stop) then -1
  else 0

/-- The depth that `findBlockEnd` has counted in front of a place. -/
def countedDepth (sql : Text) (pos : ℕ) : ℤ :=
  (((blockTokens a sql 0).filter (fun token => decide (token.start < pos))).map
    (tokenDepth a sql)).sum

end Marks

/-- No name is read as `BEGIN`, every `END` is read as the end of a block, and no name inside a
block is read as such an `END`. -/
structure ReadsMarks (a : Alphabet) (ms : List Mark) : Prop where
  begins : ∀ m ∈ ms, m.looksBegin a = true → m.IsBegin a
  ends : ∀ m ∈ ms, m.IsEnd a → m.endsBlock a = true
  names : ∀ front m behind, ms = front ++ m :: behind → 0 < blockDepth a front →
    m.looksEnd a = true → m.endsBlock a = true → m.IsEnd a

/-! ### Words at a mark -/

section Words

variable {a : Alphabet} {m : Mark}

theorem startsWithWord_eq {word s : Text} (hword : word.map Char.toLower = word) :
  startsWithWord word s = Regex.startsWith word s
  := by
  rw [startsWithWord, Regex.startsWith, hword]
  rfl

/-- A keyword looks like one. -/
theorem startsWithKeyword_of_keywordAt {word : Text} (hword : word.map Char.toLower = word)
    {before : Option Char} {s : Text} (h : KeywordAt a word before s) :
  startsWithKeyword a word s = true
  := by
  have hafter : (s.drop word.length).head?.any a.isAlnum = false := by
    have hafter := h.2.2
    cases hhead : (s.drop word.length).head? with
    | none => rfl
    | some d =>
        rw [hhead] at hafter
        have hd : a.isWord d = false := hafter
        rw [Alphabet.isWord, Bool.or_eq_false_iff] at hd
        exact hd.1
  rw [startsWithKeyword, startsWithWord_eq hword, h.2.1, hafter]
  rfl

theorem toLower_of_startsWithKeyword {word s : Text} {c d : Char}
    (h : startsWithKeyword a (d :: word) (c :: s) = true) :
  c.toLower = d
  := by
  rw [startsWithKeyword, Bool.and_eq_true, startsWithWord] at h
  have hheads := congrArg List.head? (eq_of_beq h.1)
  exact Option.some.inj hheads

theorem Mark.IsBegin.looksBegin (h : m.IsBegin a) : m.looksBegin a = true :=
  startsWithKeyword_of_keywordAt rfl h

theorem Mark.IsEnd.looksEnd (h : m.IsEnd a) : m.looksEnd a = true :=
  startsWithKeyword_of_keywordAt rfl h

/-- The letters of `BEGIN` are not those of `END`, nor a semicolon. -/
theorem looksBegin_excludes {s : Text} (h : startsWithKeyword a "begin".toList s = true) :
  startsWithKeyword a "end".toList s = false ∧ (s.head? == some ';') = false
  := by
  cases s with
  | nil => cases h
  | cons c s =>
      have hc : c.toLower = 'b' := toLower_of_startsWithKeyword h
      constructor
      · rw [← Bool.not_eq_true]
        intro hend
        have hc' : c.toLower = 'e' := toLower_of_startsWithKeyword hend
        rw [hc] at hc'
        exact absurd hc' (by decide)
      · rw [List.head?_cons, ← Bool.not_eq_true, beq_iff_eq, Option.some.injEq]
        rintro rfl
        exact absurd hc (by decide)

theorem looksEnd_excludes {s : Text} (h : startsWithKeyword a "end".toList s = true) :
  (s.head? == some ';') = false
  := by
  cases s with
  | nil => rfl
  | cons c s =>
      have hc : c.toLower = 'e' := toLower_of_startsWithKeyword h
      rw [List.head?_cons, ← Bool.not_eq_true, beq_iff_eq, Option.some.injEq]
      rintro rfl
      exact absurd hc (by decide)

theorem Mark.IsEnd.not_isBegin (h : m.IsEnd a) : ¬m.IsBegin a := by
  intro hbegin
  have hno := (looksBegin_excludes hbegin.looksBegin).1
  have hlooks : startsWithKeyword a "end".toList m.rest = true := h.looksEnd
  rw [hlooks] at hno
  cases hno

theorem Mark.IsBegin.delta (h : m.IsBegin a) : m.delta a = 1 := if_pos h

theorem Mark.IsEnd.delta (h : m.IsEnd a) : m.delta a = -1 := by
  rw [Mark.delta, if_neg h.not_isBegin, if_pos h]

theorem Mark.delta_of_not (hbegin : ¬m.IsBegin a) (hend : ¬m.IsEnd a) : m.delta a = 0 := by
  rw [Mark.delta, if_neg hbegin, if_neg hend]

end Words

/-! ### Counting from mark to mark -/

section Ends

variable {Depth Depth' : Type} {next : Depth → Mark → Depth} {isTop : Depth → Bool}
  {next' : Depth' → Mark → Depth'} {isTop' : Depth' → Bool}

/-- A semicolon ends a piece when the marks in front of it lead to the top. -/
theorem mem_endsFrom_iff {depth : Depth} {ms : List Mark} {stop : ℕ} :
  stop ∈ endsFrom next isTop depth ms
    ↔ ∃ front m behind, ms = front ++ m :: behind ∧ m.isSemicolon = true
        ∧ isTop (front.foldl next depth) = true ∧ stop = m.pos + 1
  := by
  induction ms generalizing depth with
  | nil =>
      apply iff_of_false List.not_mem_nil
      rintro ⟨front, m, behind, hsplit, -⟩
      exact absurd hsplit.symm (List.append_ne_nil_of_right_ne_nil _ (List.cons_ne_nil _ _))
  | cons m ms ih =>
      have hrest : stop ∈ endsFrom next isTop (next depth m) ms
          ↔ ∃ front m' behind, ms = front ++ m' :: behind ∧ m'.isSemicolon = true
            ∧ isTop ((m :: front).foldl next depth) = true ∧ stop = m'.pos + 1 := ih
      constructor
      · intro hmem
        rw [endsFrom] at hmem
        split at hmem
        · next htop =>
            rw [Bool.and_eq_true] at htop
            rcases List.mem_cons.mp hmem with rfl | hmem
            · exact ⟨[], m, ms, rfl, htop.1, htop.2, rfl⟩
            · obtain ⟨front, m', behind, rfl, h⟩ := hrest.mp hmem
              exact ⟨m :: front, m', behind, rfl, h⟩
        · obtain ⟨front, m', behind, rfl, h⟩ := hrest.mp hmem
          exact ⟨m :: front, m', behind, rfl, h⟩
      · rintro ⟨front, m', behind, hsplit, hsemicolon, htop, rfl⟩
        rw [endsFrom]
        cases front with
        | nil =>
            obtain ⟨rfl, rfl⟩ := List.cons.inj hsplit
            have hboth : (m.isSemicolon && isTop depth) = true := by
              rw [hsemicolon]
              exact htop
            rw [if_pos hboth]
            exact List.mem_cons_self
        | cons m'' front =>
            obtain ⟨rfl, rfl⟩ := List.cons.inj hsplit
            have hmem := hrest.mpr ⟨front, m', behind, rfl, hsemicolon, htop, rfl⟩
            split
            · exact List.mem_cons_of_mem _ hmem
            · exact hmem

/-- Counts that are at the top in front of the same semicolons end the same pieces. -/
theorem endsFrom_congr {depth : Depth} {depth' : Depth'} {ms : List Mark}
    (h : ∀ front m behind, ms = front ++ m :: behind → m.isSemicolon = true →
      isTop (front.foldl next depth) = isTop' (front.foldl next' depth')) :
  endsFrom next isTop depth ms = endsFrom next' isTop' depth' ms
  := by
  induction ms generalizing depth depth' with
  | nil => rfl
  | cons m ms ih =>
      have hrest := @ih (next depth m) (next' depth' m)
        (fun front m' behind hsplit => h (m :: front) m' behind (by rw [hsplit]; rfl))
      rw [endsFrom, endsFrom, hrest]
      cases hsemicolon : m.isSemicolon with
      | false => rfl
      | true =>
          have htop : isTop depth = isTop' depth' := h [] m ms rfl hsemicolon
          rw [htop]

end Ends

/-! ### Two ways to count blocks -/

section Counts

variable (a : Alphabet)

/-- The depth behind a mark, by the letters that are there. -/
def nextDepth (depth : ℕ) (m : Mark) : ℕ :=
  if m.looksBegin a then depth + 1
  else if m.looksEnd a && m.endsBlock a then depth - 1
  else depth

/-- The depth behind some marks, by the letters that are there. -/
def letterDepth (ms : List Mark) : ℕ := ms.foldl (nextDepth a) 0

/-- How a word changes the depth, when only such an `END` counts that ends a block. -/
def Mark.counted (m : Mark) : ℤ :=
  if m.IsBegin a then 1 else if m.IsEnd a ∧ m.endsBlock a = true then -1 else 0

/-- The depth behind some marks, by the words that are there. -/
def wordDepth (ms : List Mark) : ℤ := (ms.map (Mark.counted a)).sum

end Counts

section Agreement

variable {a : Alphabet} {ms : List Mark}

theorem blockDepth_append {front behind : List Mark} :
  blockDepth a (front ++ behind) = blockDepth a front + blockDepth a behind
  := by
  rw [blockDepth, List.map_append, List.sum_append]
  rfl

theorem wordDepth_append {front behind : List Mark} :
  wordDepth a (front ++ behind) = wordDepth a front + wordDepth a behind
  := by
  rw [wordDepth, List.map_append, List.sum_append]
  rfl

theorem blockDepth_cons {m : Mark} : blockDepth a (m :: ms) = m.delta a + blockDepth a ms :=
  List.sum_cons

theorem wordDepth_cons {m : Mark} : wordDepth a (m :: ms) = m.counted a + wordDepth a ms :=
  List.sum_cons

theorem blockDepth_singleton {m : Mark} : blockDepth a [m] = m.delta a := List.sum_singleton

theorem wordDepth_singleton {m : Mark} : wordDepth a [m] = m.counted a := List.sum_singleton

theorem letterDepth_concat {m : Mark} :
  letterDepth a (ms ++ [m]) = nextDepth a (letterDepth a ms) m
  := by
  rw [letterDepth, List.foldl_concat]
  rfl

theorem foldl_delta {depth : ℤ} :
  ms.foldl (fun depth m => depth + Mark.delta a m) depth = depth + blockDepth a ms
  := by
  induction ms generalizing depth with
  | nil => exact (Int.add_zero depth).symm
  | cons m ms ih => rw [List.foldl_cons, ih, Int.add_assoc, ← blockDepth_cons]

theorem Mark.IsBegin.counted {m : Mark} (h : m.IsBegin a) : m.counted a = 1 := if_pos h

theorem Mark.IsEnd.counted {m : Mark} (h : m.IsEnd a) :
  m.counted a = if m.endsBlock a = true then -1 else 0
  := by
  rw [Mark.counted, if_neg h.not_isBegin]
  exact if_congr (and_iff_right h) rfl rfl

theorem Mark.counted_of_not {m : Mark} (hbegin : ¬m.IsBegin a) (hend : ¬m.IsEnd a) :
  m.counted a = 0
  := by
  rw [Mark.counted, if_neg hbegin, if_neg (fun h : m.IsEnd a ∧ m.endsBlock a = true => hend h.1)]

/-- An `END` that does not end a block is counted in only one of two ways. -/
theorem delta_le_counted {m : Mark} : m.delta a ≤ m.counted a := by
  by_cases hbegin : m.IsBegin a
  · exact Int.le_of_eq (hbegin.delta.trans hbegin.counted.symm)
  · by_cases hend : m.IsEnd a
    · rw [hend.delta, hend.counted]
      split <;> decide
    · exact Int.le_of_eq
        ((Mark.delta_of_not hbegin hend).trans (Mark.counted_of_not hbegin hend).symm)

theorem blockDepth_le_wordDepth : blockDepth a ms ≤ wordDepth a ms := by
  induction ms with
  | nil => exact Int.le_refl _
  | cons m ms ih =>
      have hle : m.delta a ≤ m.counted a := delta_le_counted
      rw [blockDepth_cons, wordDepth_cons]
      omega

/-- Both ways to count blocks agree, and cut in the same places. -/
structure Agrees (a : Alphabet) (ms : List Mark) : Prop where
  ends : endsFrom (nextDepth a) (· == 0) 0 ms
    = endsFrom (fun depth m => depth + Mark.delta a m) (· == 0) (0 : ℤ) ms
  depth : ∀ front behind, ms = front ++ behind → (letterDepth a front : ℤ) = wordDepth a front

theorem Mark.counted_of_ends {m : Mark} (h : m.IsEnd a → m.endsBlock a = true) :
  m.counted a = m.delta a
  := by
  by_cases hbegin : m.IsBegin a
  · rw [hbegin.counted, hbegin.delta]
  · by_cases hend : m.IsEnd a
    · rw [hend.counted, hend.delta, if_pos (h hend)]
    · rw [Mark.counted_of_not hbegin hend, Mark.delta_of_not hbegin hend]

/-- The depth by letters follows the blocks over one mark. -/
theorem nextDepth_of_reads {m : Mark} {depth : ℕ} (hbegin : m.looksBegin a = true → m.IsBegin a)
    (hend : m.IsEnd a → m.endsBlock a = true)
    (hname : 0 < depth → m.looksEnd a = true → m.endsBlock a = true → m.IsEnd a)
    (hbalanced : 0 ≤ (depth : ℤ) + m.delta a) :
  (nextDepth a depth m : ℤ) = depth + m.delta a
  := by
  rw [nextDepth]
  by_cases hlooks : m.looksBegin a = true
  · rw [if_pos hlooks, (hbegin hlooks).delta]
    rfl
  · have hnot : ¬m.IsBegin a := fun h => hlooks h.looksBegin
    rw [if_neg hlooks]
    by_cases hboth : (m.looksEnd a && m.endsBlock a) = true
    · rw [if_pos hboth]
      rw [Bool.and_eq_true] at hboth
      by_cases hword : m.IsEnd a
      · rw [hword.delta] at hbalanced ⊢
        omega
      · have hzero : depth = 0 := by
          by_contra hpos
          exact hword (hname (Nat.pos_of_ne_zero hpos) hboth.1 hboth.2)
        rw [Mark.delta_of_not hnot hword, hzero]
        rfl
    · have hword : ¬m.IsEnd a := by
        intro hword
        rw [hword.looksEnd, hend hword] at hboth
        exact hboth rfl
      rw [if_neg hboth, Mark.delta_of_not hnot hword, Int.add_zero]

theorem ReadsMarks.letterDepth_eq (h : ReadsMarks a ms)
    (hbalanced : ∀ front behind, ms = front ++ behind → 0 ≤ blockDepth a front) :
  ∀ front behind, ms = front ++ behind → (letterDepth a front : ℤ) = blockDepth a front
  := by
  intro front
  induction front using List.reverseRecOn with
  | nil =>
      intro behind _
      rfl
  | append_singleton front m ih =>
      intro behind hsplit
      have hsplit' : ms = front ++ m :: behind := by rw [hsplit, List.append_assoc]; rfl
      have hmem : m ∈ ms := by
        rw [hsplit']
        exact List.mem_append_right _ List.mem_cons_self
      have hfront := ih (m :: behind) hsplit'
      have hnonneg := hbalanced (front ++ [m]) behind hsplit
      rw [blockDepth_append, blockDepth_singleton] at hnonneg ⊢
      rw [letterDepth_concat, ← hfront]
      apply nextDepth_of_reads (h.begins m hmem) (h.ends m hmem)
      · intro hpos
        exact h.names front m behind hsplit' (by omega)
      · omega

theorem ReadsMarks.wordDepth_eq (h : ReadsMarks a ms) :
  ∀ front behind, ms = front ++ behind → wordDepth a front = blockDepth a front
  := by
  intro front behind hsplit
  rw [wordDepth, blockDepth]
  apply congrArg List.sum
  apply List.map_congr_left
  intro m hm
  apply Mark.counted_of_ends
  apply h.ends m
  rw [hsplit]
  exact List.mem_append_left behind hm

/-- When words are read, both ways to count blocks agree. -/
theorem ReadsMarks.agrees (h : ReadsMarks a ms)
    (hbalanced : ∀ front behind, ms = front ++ behind → 0 ≤ blockDepth a front) :
  Agrees a ms
  := by
  have hdepth := h.letterDepth_eq hbalanced
  constructor
  · apply endsFrom_congr
    intro front m behind hsplit _
    have hfront : (letterDepth a front : ℤ) = blockDepth a front := hdepth front _ hsplit
    rw [foldl_delta, Int.zero_add, ← hfront]
    rw [Bool.eq_iff_iff, beq_iff_eq, beq_iff_eq]
    exact Int.natCast_eq_zero.symm
  · intro front behind hsplit
    rw [hdepth front behind hsplit, h.wordDepth_eq front behind hsplit]

/-- A place splits marks in one way. -/
theorem front_eq_of_pos_eq {front front' behind behind' : List Mark} {m m' : Mark}
    (hord : (front ++ m :: behind).Pairwise (fun m m' => m.pos < m'.pos))
    (hsplit : front ++ m :: behind = front' ++ m' :: behind') (hpos : m.pos = m'.pos) :
  front = front'
  := by
  induction front generalizing front' with
  | nil =>
      cases front' with
      | nil => rfl
      | cons m'' front' =>
          obtain ⟨rfl, rfl⟩ := List.cons.inj hsplit
          have hlt := List.rel_of_pairwise_cons hord
            (List.mem_append_right front' List.mem_cons_self)
          omega
  | cons m'' front ih =>
      cases front' with
      | nil =>
          obtain ⟨rfl, rfl⟩ := List.cons.inj hsplit
          have hlt := List.rel_of_pairwise_cons hord
            (List.mem_append_right front List.mem_cons_self)
          omega
      | cons m₃ front' =>
          obtain ⟨rfl, hrest⟩ := List.cons.inj hsplit
          rw [ih (List.Pairwise.of_cons hord) hrest]

/-- When both ways to count blocks agree, words are read: the depth by letters changes where the
depth by words does, and an `END` that does not end a block would hide the next semicolon that is
outside of blocks. -/
theorem Agrees.reads (h : Agrees a ms) (hord : ms.Pairwise (fun m m' => m.pos < m'.pos))
    (hterminated : ∀ front m behind, ms = front ++ m :: behind → m.IsEnd a →
      ∃ front' m' behind', behind = front' ++ m' :: behind' ∧ m'.isSemicolon = true
        ∧ blockDepth a (front ++ m :: front') = 0) :
  ReadsMarks a ms
  := by
  have hstep : ∀ front m behind, ms = front ++ m :: behind →
      (nextDepth a (letterDepth a front) m : ℤ) = letterDepth a front + m.counted a := by
    intro front m behind hsplit
    have hfront := h.depth front _ hsplit
    have hconcat := h.depth (front ++ [m]) behind (by rw [hsplit, List.append_assoc]; rfl)
    rw [letterDepth_concat, wordDepth_append, wordDepth_singleton] at hconcat
    rw [hconcat, hfront]
  constructor
  · intro m hm hlooks
    obtain ⟨front, behind, hsplit⟩ := List.append_of_mem hm
    have hdepth := hstep front m behind hsplit
    rw [nextDepth, if_pos hlooks] at hdepth
    by_contra hbegin
    rw [Mark.counted, if_neg hbegin] at hdepth
    split at hdepth <;> omega
  · intro m hm hend
    obtain ⟨front, behind, hsplit⟩ := List.append_of_mem hm
    by_contra hblock
    obtain ⟨front', m', behind', rfl, hsemicolon, hzero⟩ := hterminated front m behind hsplit hend
    have hsplit' : ms = (front ++ m :: front') ++ m' :: behind' := by
      rw [hsplit, List.append_assoc]
      rfl
    have hstop : m'.pos + 1
        ∈ endsFrom (fun depth m => depth + Mark.delta a m) (· == 0) (0 : ℤ) ms := by
      refine mem_endsFrom_iff.mpr ⟨_, m', behind', hsplit', hsemicolon, ?_, rfl⟩
      rw [foldl_delta, hzero]
      rfl
    rw [← h.ends] at hstop
    obtain ⟨before, m₃, after, hthere, -, htop, hpos⟩ := mem_endsFrom_iff.mp hstop
    have hsame : front ++ m :: front' = before := by
      apply front_eq_of_pos_eq (hsplit' ▸ hord) (hsplit'.symm.trans hthere)
      exact Nat.succ.inj hpos
    have hletters : letterDepth a (front ++ m :: front') = 0 := by
      rw [hsame]
      exact eq_of_beq htop
    have hwords := h.depth _ _ hsplit'
    rw [hletters] at hwords
    have hsum : wordDepth a (front ++ m :: front')
        = wordDepth a front + (m.counted a + wordDepth a front') := by
      rw [wordDepth_append, wordDepth_cons]
    have hsum' : blockDepth a (front ++ m :: front')
        = blockDepth a front + (m.delta a + blockDepth a front') := by
      rw [blockDepth_append, blockDepth_cons]
    have hfront : blockDepth a front ≤ wordDepth a front := blockDepth_le_wordDepth
    have hfront' : blockDepth a front' ≤ wordDepth a front' := blockDepth_le_wordDepth
    rw [hend.counted, if_neg hblock] at hsum
    rw [hend.delta] at hsum'
    omega
  · intro front m behind hsplit hpos hlooks hblock
    have hdepth := hstep front m behind hsplit
    have hfront := h.depth front _ hsplit
    have hle : blockDepth a front ≤ wordDepth a front := blockDepth_le_wordDepth
    have hbegin : ¬m.looksBegin a = true := by
      intro hbegin
      have hno := (looksBegin_excludes hbegin).1
      have hlooks' : startsWithKeyword a "end".toList m.rest = true := hlooks
      rw [hlooks'] at hno
      cases hno
    have hboth : (m.looksEnd a && m.endsBlock a) = true := by rw [hlooks, hblock]; rfl
    rw [nextDepth, if_neg hbegin, if_pos hboth] at hdepth
    by_contra hend
    rw [Mark.counted_of_not (fun h => hbegin h.looksBegin) hend] at hdepth
    omega

end Agreement

end Lineage

import DataOpsStudio.Lineage.MarkWords

/-!
# The statements of a body

A body is cut at the semicolons outside literals and outside blocks.  The cuts are right, and blocks
are counted like `findBlockEnd` counts them, exactly when its marks are read as what they are.
-/

namespace Lineage

open Text Sql

/-! ### Bodies -/

/-- A body of statements that end with semicolons.  Its literals are closed, and the words `BEGIN`
and `END` stand outside of them and enclose blocks; no statement is a loop, since the `END` of a
loop does not end a block. -/
structure ProcedureBody (a : Alphabet) where
  text : Text
  closed : (outside everyQuote none text).isSome = true
  words : ∀ token ∈ blockTokens a text 0, ∃ m ∈ marks a text, m.pos = token.start
  balanced : ∀ ms ∈ (marks a text).inits, 0 ≤ blockDepth a ms
  blocks_closed : blockDepth a (marks a text) = 0
  terminated : strip (text.drop ((topLevelEnds a text).getLast?.getD 0)) = []
  noLoop : ∀ piece ∈ statements a text,
    (Regex.tryAt (cursorForLoopHead a) (Regex.Spot.at (strip piece.text) 0)).isNone = true

/-- A body is cut into its statements, with one segment for each statement that has a keyword, and
blocks are counted like `findBlockEnd` counts them. -/
structure ProcedureBody.Splits {a : Alphabet} (body : ProcedureBody a) (declarationRegion : Text) :
    Prop where
  cuts : (bodyRounds a body.text body.text.length).raw.map RawSegment.stop
    = topLevelEnds a body.text
  segments : List.Forall₂
    (fun segment piece => segment.stop = piece.stop ∧ segment.text <:+: piece.text)
    (iterProcedureBodySegments a body.text declarationRegion)
    ((statements a body.text).filter (hasDml a))
  depth : ∀ n, ((bodyRounds a body.text n).depth : ℤ)
    = countedDepth a body.text (bodyRounds a body.text n).pos

/-! ### Rounds -/

section Rounds

variable {a : Alphabet} {body : Text} {scan : BodyScan} {done : List Mark}

theorem endsFrom_append {Depth : Type} {next : Depth → Mark → Depth} {isTop : Depth → Bool}
    {depth : Depth} {ms ms' : List Mark} :
  endsFrom next isTop depth (ms ++ ms')
    = endsFrom next isTop depth ms ++ endsFrom next isTop (ms.foldl next depth) ms'
  := by
  induction ms generalizing depth with
  | nil => rfl
  | cons m ms ih =>
      rw [List.cons_append, endsFrom, endsFrom, ih, List.foldl_cons]
      split <;> rfl

theorem piecesFrom_append {start : ℕ} {stops stops' : List ℕ} :
  piecesFrom body start (stops ++ stops')
    = piecesFrom body start stops ++ piecesFrom body (stops.getLast?.getD start) stops'
  := by
  induction stops generalizing start with
  | nil => rfl
  | cons stop stops ih =>
      rw [List.cons_append, piecesFrom, piecesFrom, ih, List.cons_append]
      congr 3
      cases stops with
      | nil => rfl
      | cons stop' stops => rfl

/-- A body has been cut up to some place: the marks in front of it have been counted by their
letters, and what has been cut are the pieces in front of it. -/
structure Reached (a : Alphabet) (body : Text) (scan : BodyScan) (done : List Mark) : Prop where
  rest : scan.rest = body.drop scan.pos
  pos_le : scan.pos ≤ body.length
  todo : ∃ before, marks a body = done ++ marksFrom a none before scan.pos scan.rest
  lt : ∀ m ∈ done, m.pos < scan.pos
  depth : scan.depth = letterDepth a done
  stops : scan.raw.map RawSegment.stop = endsFrom (nextDepth a) (· == 0) 0 done
  pieces : scan.raw = piecesFrom body 0 (scan.raw.map RawSegment.stop)
  segStart : scan.segStart = (scan.raw.map RawSegment.stop).getLast?.getD 0
  segStart_le : scan.segStart ≤ scan.pos
  buffer : scan.buffer = (body.take scan.pos).drop scan.segStart

theorem reached_start : Reached a body { rest := body } [] where
  rest := rfl
  pos_le := Nat.zero_le _
  todo := ⟨none, rfl⟩
  lt := by rintro m ⟨⟩
  depth := rfl
  stops := rfl
  pieces := rfl
  segStart := rfl
  segStart_le := Nat.le_refl 0
  buffer := rfl

/-- Characters that belong to the piece that is being read are passed over, with the marks that
stand there. -/
theorem Reached.take (h : Reached a body scan done) {count : ℕ} (hcount : count ≤ scan.rest.length)
    {found : List Mark} {before before' : Option Char}
    (htodo : marks a body = done ++ marksFrom a none before scan.pos scan.rest)
    (hfound : marksFrom a none before scan.pos scan.rest
      = found ++ marksFrom a none before' (scan.pos + count) (scan.rest.drop count))
    (hlt : ∀ m ∈ found, m.pos < scan.pos + count)
    (hends : endsFrom (nextDepth a) (· == 0) (letterDepth a done) found = []) {depth : ℕ}
    (hdepth : depth = letterDepth a (done ++ found)) :
  Reached a body { scan.take count with depth := depth } (done ++ found)
  := by
  have hlength : scan.pos + scan.rest.length = body.length := by
    rw [h.rest, List.length_drop]
    exact Nat.add_sub_cancel' h.pos_le
  constructor
  · change scan.rest.drop count = body.drop (scan.pos + count)
    rw [h.rest, List.drop_drop]
  · change scan.pos + count ≤ body.length
    omega
  · exact ⟨before', by rw [htodo, hfound, List.append_assoc]; rfl⟩
  · intro m hm
    rcases List.mem_append.mp hm with hm | hm
    · exact Nat.lt_of_lt_of_le (h.lt m hm) (Nat.le_add_right _ _)
    · exact hlt m hm
  · exact hdepth
  · rw [endsFrom_append, ← letterDepth, hends, List.append_nil]
    exact h.stops
  · exact h.pieces
  · exact h.segStart
  · exact Nat.le_add_right_of_le h.segStart_le
  · change scan.buffer ++ scan.rest.take count = (body.take (scan.pos + count)).drop scan.segStart
    have hle : scan.segStart ≤ (body.take scan.pos).length := by
      rw [List.length_take_of_le h.pos_le]
      exact h.segStart_le
    rw [List.take_add, List.drop_append_of_le_length hle, ← h.buffer, h.rest]

theorem endsFrom_singleton {Depth : Type} {next : Depth → Mark → Depth} {isTop : Depth → Bool}
    {depth : Depth} {m : Mark} (h : (m.isSemicolon && isTop depth) = false) :
  endsFrom next isTop depth [m] = []
  := by
  rw [endsFrom, h]
  rfl

/-- Characters without marks are passed over. -/
theorem Reached.pass (h : Reached a body scan done) {count : ℕ} (hcount : count ≤ scan.rest.length)
    (hfound : ∀ before, ∃ before', marksFrom a none before scan.pos scan.rest
      = marksFrom a none before' (scan.pos + count) (scan.rest.drop count)) :
  Reached a body (scan.take count) done
  := by
  obtain ⟨before, htodo⟩ := h.todo
  obtain ⟨before', hfound⟩ := hfound before
  have htaken := @Reached.take a body scan done h count hcount [] before before' htodo hfound
    (by rintro m ⟨⟩) rfl scan.depth (by rw [List.append_nil, ← h.depth])
  rwa [List.append_nil] at htaken

/-- The mark that comes next has been read. -/
def ReachedNext (a : Alphabet) (body : Text) (scan : BodyScan) (done : List Mark) : Prop :=
  ∃ m todo, marks a body = done ++ m :: todo ∧ Reached a body scan (done ++ [m])

/-- A mark that ends no piece is passed over. -/
theorem Reached.take_mark (h : Reached a body scan done) {c : Char} {s : Text}
    (hrest : scan.rest = c :: s) (hquote : isQuote c = false) (hmarked : isMarked a (c :: s) = true)
    {count : ℕ} (hcount : count ≤ scan.rest.length) (hpos : 0 < count)
    (hafter : ∃ before', marksFrom a none (some c) (scan.pos + 1) s
      = marksFrom a none before' (scan.pos + count) (scan.rest.drop count))
    (hends : ∀ m : Mark, m.rest = c :: s → (m.isSemicolon && letterDepth a done == 0) = false)
    {depth : ℕ}
    (hdepth : ∀ m : Mark, m.rest = c :: s → depth = nextDepth a (letterDepth a done) m) :
  ReachedNext a body { scan.take count with depth := depth } done
  := by
  obtain ⟨before, htodo⟩ := h.todo
  obtain ⟨before', hafter⟩ := hafter
  have hfound : marksFrom a none before scan.pos scan.rest
      = [⟨scan.pos, before, c :: s⟩]
        ++ marksFrom a none before' (scan.pos + count) (scan.rest.drop count) := by
    conv_lhs => rw [hrest, marksFrom_marked hquote hmarked, hafter]
    rfl
  refine ⟨⟨scan.pos, before, c :: s⟩, _, htodo.trans (by rw [hfound]; rfl), ?_⟩
  apply h.take hcount htodo hfound
  · intro m hm
    cases List.mem_singleton.mp hm
    exact Nat.lt_add_of_pos_right hpos
  · exact endsFrom_singleton (hends _ rfl)
  · rw [letterDepth_concat]
    exact hdepth _ rfl

/-- A semicolon at the top ends the piece. -/
theorem Reached.cut (h : Reached a body scan done) {s : Text} (hrest : scan.rest = ';' :: s)
    (hdepth : scan.depth = 0) :
  ReachedNext a body
    { rest := s
      pos := scan.pos + 1
      depth := 0
      buffer := []
      segStart := scan.pos + 1
      raw := scan.raw ++ [⟨scan.buffer, scan.segStart, scan.pos + 1⟩] } done
  := by
  obtain ⟨before, htodo⟩ := h.todo
  have hlength : scan.pos + scan.rest.length = body.length := by
    rw [h.rest, List.length_drop]
    exact Nat.add_sub_cancel' h.pos_le
  have hbegin : startsWithKeyword a "begin".toList (';' :: s) = false := by
    rw [← Bool.not_eq_true]
    intro hbegin
    cases (looksBegin_excludes hbegin).2
  have hend : startsWithKeyword a "end".toList (';' :: s) = false := by
    rw [← Bool.not_eq_true]
    intro hend
    cases looksEnd_excludes hend
  have hmarked : isMarked a (';' :: s) = true := by
    rw [isMarked, hbegin, hend]
    rfl
  have hfound : marksFrom a none before scan.pos scan.rest
      = ⟨scan.pos, before, ';' :: s⟩ :: marksFrom a none (some ';') (scan.pos + 1) s := by
    rw [hrest, marksFrom_marked rfl hmarked]
  have hnext : nextDepth a (letterDepth a done) ⟨scan.pos, before, ';' :: s⟩
      = letterDepth a done := by
    rw [nextDepth, Mark.looksBegin, Mark.looksEnd, hbegin, hend]
    rfl
  refine ⟨⟨scan.pos, before, ';' :: s⟩, _, by rw [htodo, hfound], ?_⟩
  constructor
  · change s = body.drop (scan.pos + 1)
    rw [← List.drop_drop, ← h.rest, hrest]
    rfl
  · change scan.pos + 1 ≤ body.length
    rw [hrest, List.length_cons] at hlength
    omega
  · exact ⟨some ';', by rw [htodo, hfound, List.append_assoc]; rfl⟩
  · intro m hm
    rcases List.mem_append.mp hm with hm | hm
    · exact Nat.lt_succ_of_lt (h.lt m hm)
    · cases List.mem_singleton.mp hm
      exact Nat.lt_succ_self scan.pos
  · rw [letterDepth_concat, hnext, ← h.depth, hdepth]
  · dsimp only
    rw [List.map_append, h.stops, endsFrom_append]
    congr 1
    rw [← letterDepth, ← h.depth, hdepth]
    rfl
  · dsimp only
    rw [List.map_append, piecesFrom_append, ← h.pieces, ← h.segStart]
    congr 1
    rw [h.buffer]
    rfl
  · dsimp only
    rw [List.map_append, List.getLast?_append]
    rfl
  · exact Nat.le_refl _
  · rw [List.drop_eq_nil_of_le]
    exact List.length_take_le _ _

theorem isAlpha_of_startsWithKeyword {word s : Text} {c d : Char} (hd : d.isAlpha = true)
    (h : startsWithKeyword a (d :: word) (c :: s) = true) :
  a.isAlpha c = true
  := by
  apply a.isAlpha_of_isAlpha
  apply isAlpha_of_toLower
  rw [toLower_of_startsWithKeyword h]
  exact hd

theorem length_of_startsWithKeyword {word s : Text} (h : startsWithKeyword a word s = true) :
  word.length ≤ s.length
  := by
  obtain ⟨u, hsplit, rfl⟩ := exists_of_startsWithKeyword h
  have hlength := congrArg List.length hsplit
  rw [List.length_append, List.length_map, List.length_drop] at hlength
  rw [List.length_map]
  omega

/-- What one round reads: a literal, a keyword, a semicolon or another character. -/
theorem Reached.step (h : Reached a body scan done) {c : Char} {s : Text}
    (hrest : scan.rest = c :: s) :
  Reached a body (bodyRound a scan) done ∨ ReachedNext a body (bodyRound a scan) done
  := by
  have hlength : scan.rest.length = s.length + 1 := by rw [hrest, List.length_cons]
  rw [bodyRound, hrest]
  dsimp only
  by_cases hquote : isQuote c = true
  · rw [if_pos hquote]
    left
    have hle : literalLength c s ≤ s.length := literalLength_le
    apply h.pass
    · omega
    · intro before
      rw [hrest]
      exact marksFrom_quote hquote
  · rw [if_neg hquote]
    rw [Bool.not_eq_true] at hquote
    by_cases hbegin : startsWithKeyword a "begin".toList (c :: s) = true
    · have halpha := isAlpha_of_startsWithKeyword rfl hbegin
      have hcount : 5 ≤ (c :: s).length := length_of_startsWithKeyword hbegin
      rw [halpha, hbegin, Bool.and_self, if_pos rfl]
      right
      apply h.take_mark hrest hquote (by rw [isMarked, hbegin]; rfl)
      · rwa [hrest]
      · decide
      · rw [hrest]
        exact marksFrom_begin hbegin
      · intro m hm
        rw [Mark.isSemicolon, hm, (looksBegin_excludes hbegin).2]
        rfl
      · intro m hm
        rw [nextDepth, Mark.looksBegin, hm, if_pos hbegin, h.depth]
    · rw [if_neg (fun hboth => hbegin (Bool.and_eq_true_iff.mp hboth).2)]
      rw [Bool.not_eq_true] at hbegin
      by_cases hend : startsWithKeyword a "end".toList (c :: s) = true
      · have halpha := isAlpha_of_startsWithKeyword rfl hend
        have hcount : 3 ≤ (c :: s).length := length_of_startsWithKeyword hend
        rw [halpha, hend, Bool.and_self, if_pos rfl]
        right
        apply h.take_mark hrest hquote (by rw [isMarked, hbegin, hend]; rfl)
        · rwa [hrest]
        · decide
        · rw [hrest]
          exact marksFrom_end hend
        · intro m hm
          rw [Mark.isSemicolon, hm, looksEnd_excludes hend]
          rfl
        · intro m hm
          rw [nextDepth, Mark.looksBegin, Mark.looksEnd, Mark.endsBlock, hm, hbegin, hend,
            Bool.true_and, h.depth]
          rfl
      · rw [if_neg (fun hboth => hend (Bool.and_eq_true_iff.mp hboth).2)]
        rw [Bool.not_eq_true] at hend
        by_cases hsemicolon : c = ';'
        · subst hsemicolon
          have hmarked : isMarked a (';' :: s) = true := by
            rw [isMarked, hbegin, hend]
            rfl
          right
          by_cases hdepth : scan.depth = 0
          · rw [if_pos ⟨rfl, hdepth⟩]
            exact h.cut hrest hdepth
          · rw [if_neg (fun hboth => hdepth hboth.2)]
            apply h.take_mark hrest hquote hmarked
            · omega
            · decide
            · rw [hrest]
              exact ⟨some ';', rfl⟩
            · intro m hm
              rw [← h.depth, beq_eq_false_iff_ne.mpr hdepth, Bool.and_false]
            · intro m hm
              rw [nextDepth, Mark.looksBegin, Mark.looksEnd, hm, hbegin, hend, h.depth]
              rfl
        · rw [if_neg (fun hboth => hsemicolon hboth.1)]
          left
          apply h.pass
          · omega
          · intro before
            rw [hrest]
            refine ⟨some c, marksFrom_unmarked hquote ?_⟩
            rw [isMarked, hbegin, hend, List.head?_cons, Bool.false_or, Bool.false_or,
              beq_eq_false_iff_ne, ne_eq, Option.some.injEq]
            exact hsemicolon

/-- A round leaves less to be read. -/
theorem length_bodyRound_lt {c : Char} {s : Text} (hrest : scan.rest = c :: s) :
  (bodyRound a scan).rest.length < scan.rest.length
  := by
  have hdrop : ∀ count, 0 < count → (scan.rest.drop count).length < scan.rest.length := by
    intro count hcount
    rw [List.length_drop, hrest, List.length_cons]
    omega
  rw [bodyRound, hrest]
  dsimp only
  rw [← hrest]
  split
  · exact hdrop _ (Nat.succ_pos _)
  · split
    · exact hdrop 5 (by decide)
    · split
      · exact hdrop 3 (by decide)
      · split
        · rw [hrest]
          exact Nat.lt_succ_self _
        · exact hdrop 1 (by decide)

theorem bodyRounds_succ {n : ℕ} :
  bodyRounds a body (n + 1) = bodyRound a (bodyRounds a body n)
  := Function.iterate_succ_apply' _ _ _

/-- After any number of rounds some marks have been read. -/
theorem exists_reached (n : ℕ) : ∃ done, Reached a body (bodyRounds a body n) done := by
  induction n with
  | zero => exact ⟨[], reached_start⟩
  | succ n ih =>
      obtain ⟨done, hreached⟩ := ih
      rw [bodyRounds_succ]
      cases hrest : (bodyRounds a body n).rest with
      | nil =>
          rw [bodyRound, hrest]
          exact ⟨done, hreached⟩
      | cons c s =>
          rcases hreached.step hrest with hsame | ⟨m, todo, -, hnext⟩
          · exact ⟨done, hsame⟩
          · exact ⟨done ++ [m], hnext⟩

theorem length_bodyRounds_le (n : ℕ) :
  (bodyRounds a body n).rest.length ≤ body.length - n
  := by
  induction n with
  | zero => exact Nat.le_refl _
  | succ n ih =>
      rw [bodyRounds_succ]
      cases hrest : (bodyRounds a body n).rest with
      | nil =>
          rw [bodyRound, hrest]
          dsimp only
          rw [hrest]
          exact Nat.zero_le _
      | cons c s =>
          have hlt := @length_bodyRound_lt a _ c s hrest
          rw [hrest, List.length_cons] at ih hlt
          omega

/-- After as many rounds as there are characters all marks have been read. -/
theorem reached_end :
  Reached a body (bodyRounds a body body.length) (marks a body)
    ∧ (bodyRounds a body body.length).pos = body.length
  := by
  obtain ⟨done, hreached⟩ := @exists_reached a body body.length
  have hle := @length_bodyRounds_le a body body.length
  rw [Nat.sub_self] at hle
  have hnil : (bodyRounds a body body.length).rest = [] :=
    List.eq_nil_of_length_eq_zero (Nat.le_zero.mp hle)
  obtain ⟨before, htodo⟩ := hreached.todo
  rw [hnil, marksFrom, List.append_nil] at htodo
  have hrest := hreached.rest
  rw [hnil, eq_comm, List.drop_eq_nil_iff] at hrest
  exact ⟨htodo ▸ hreached, Nat.le_antisymm hreached.pos_le hrest⟩

/-- The next mark is read after some more rounds. -/
theorem exists_reached_next {n : ℕ} (h : Reached a body (bodyRounds a body n) done) {m : Mark}
    {todo : List Mark} (htodo : marks a body = done ++ m :: todo) :
  ∃ n', Reached a body (bodyRounds a body n') (done ++ [m])
  := by
  induction hlength : (bodyRounds a body n).rest.length using Nat.strong_induction_on
    generalizing n with
  | _ length ih =>
      cases hrest : (bodyRounds a body n).rest with
      | nil =>
          obtain ⟨before, hnone⟩ := h.todo
          rw [hrest, marksFrom, htodo, List.append_cancel_left_eq] at hnone
          cases hnone
      | cons c s =>
          have hlt := @length_bodyRound_lt a _ c s hrest
          rw [hlength, ← bodyRounds_succ] at hlt
          rcases h.step hrest with hsame | ⟨m', todo', htodo', hnext⟩
          · rw [← bodyRounds_succ] at hsame
            exact ih _ hlt hsame rfl
          · rw [htodo, List.append_cancel_left_eq] at htodo'
            obtain ⟨rfl, -⟩ := List.cons.inj htodo'
            exact ⟨n + 1, by rwa [bodyRounds_succ]⟩

/-- All marks are read one after the other. -/
theorem exists_reached_front {front behind : List Mark} (h : marks a body = front ++ behind) :
  ∃ n, Reached a body (bodyRounds a body n) front
  := by
  induction front using List.reverseRecOn generalizing behind with
  | nil => exact ⟨0, reached_start⟩
  | append_singleton front m ih =>
      have hsplit : marks a body = front ++ m :: behind := by
        rw [h, List.append_assoc]
        rfl
      obtain ⟨n, hreached⟩ := ih hsplit
      exact exists_reached_next hreached hsplit

/-- The marks in front of a place that has been reached are those that have been read. -/
theorem Reached.filter_marks (h : Reached a body scan done) :
  (marks a body).filter (fun m => decide (m.pos < scan.pos)) = done
  := by
  obtain ⟨before, htodo⟩ := h.todo
  rw [htodo, List.filter_append, List.filter_eq_self.mpr, List.filter_eq_nil_iff.mpr,
    List.append_nil]
  · intro m hm
    have hle := (mem_marksFrom hm).1
    rw [decide_eq_true_eq]
    omega
  · intro m hm
    exact decide_eq_true (h.lt m hm)

end Rounds

/-! ### Cutting a body -/

namespace ProcedureBody

variable {a : Alphabet} (body : ProcedureBody a)

/-- Cuts and depths are right when both ways to count blocks agree. -/
theorem agrees_iff :
  ((bodyRounds a body.text body.text.length).raw.map RawSegment.stop = topLevelEnds a body.text
      ∧ ∀ n, ((bodyRounds a body.text n).depth : ℤ)
        = countedDepth a body.text (bodyRounds a body.text n).pos)
    ↔ Agrees a (marks a body.text)
  := by
  have hcounted : ∀ {n done}, Reached a body.text (bodyRounds a body.text n) done →
      countedDepth a body.text (bodyRounds a body.text n).pos = wordDepth a done := by
    intro n done hreached
    rw [countedDepth_eq body.words, hreached.filter_marks]
  constructor
  · rintro ⟨hcuts, hdepth⟩
    constructor
    · rw [← (@reached_end a body.text).1.stops]
      exact hcuts
    · intro front behind hsplit
      obtain ⟨n, hreached⟩ := exists_reached_front hsplit
      rw [← hreached.depth, hdepth n, hcounted hreached]
  · intro h
    constructor
    · rw [(@reached_end a body.text).1.stops]
      exact h.ends
    · intro n
      obtain ⟨done, hreached⟩ := @exists_reached a body.text n
      obtain ⟨before, htodo⟩ := hreached.todo
      rw [hreached.depth, hcounted hreached]
      exact h.depth done _ htodo

end ProcedureBody

/-! ### Segments -/

section Segments

variable {a : Alphabet}

theorem forall_isSpace_of_strip {s : Text} (h : strip s = []) : ∀ c ∈ s, isSpace c = true := by
  have hdrop : (s.dropWhile isSpace).rdropWhile isSpace = [] := h
  rw [List.rdropWhile_eq_nil_iff] at hdrop
  apply List.dropWhile_eq_nil_iff.mp
  cases hs : s.dropWhile isSpace with
  | nil => rfl
  | cons c t =>
      have hc : isSpace c = true := hdrop c (by rw [hs]; exact List.mem_cons_self)
      have hhead := List.head?_dropWhile_not isSpace s
      rw [hs] at hhead
      dsimp only [List.head?_cons] at hhead
      rw [hc] at hhead
      cases hhead

theorem hasDml_nil : (Regex.search (bodyDml a) [] 0).isSome = false := rfl

/-- A piece that is no loop gives a segment when it has a keyword. -/
theorem cleanPiece_spec {piece : RawSegment}
    (h : (Regex.tryAt (cursorForLoopHead a) (Regex.Spot.at (strip piece.text) 0)).isNone = true) :
  (cleanPiece a piece).isSome = hasDml a piece
    ∧ ∀ segment, cleanPiece a piece = some segment →
      segment.stop = piece.stop ∧ segment.text <:+: piece.text
  := by
  have hstrip : stripCursorForPrefixWithSources a (strip piece.text) = (strip piece.text, []) := by
    rw [stripCursorForPrefixWithSources, if_pos h]
  rw [cleanPiece, hasDml, hstrip]
  dsimp only
  by_cases hempty : (strip piece.text).isEmpty = true
  · rw [if_pos hempty, List.isEmpty_iff.mp hempty]
    exact ⟨hasDml_nil.symm, by rintro segment ⟨⟩⟩
  · rw [if_neg hempty]
    cases hsearch : Regex.search (bodyDml a) (strip piece.text) 0 with
    | none => exact ⟨rfl, by rintro segment ⟨⟩⟩
    | some found =>
        refine ⟨rfl, ?_⟩
        rintro segment ⟨⟩
        refine ⟨rfl, ?_⟩
        dsimp only
        refine (isInfix_strip _).trans ?_
        split
        · exact isInfix_strip _
        · exact (List.drop_suffix _ _).isInfix.trans (isInfix_strip _)

theorem forall₂_filterMap {α β : Type} {R : β → α → Prop} {f : α → Option β} {p : α → Bool}
    {l : List α} (hp : ∀ x ∈ l, (f x).isSome = p x) (hf : ∀ x ∈ l, ∀ y, f x = some y → R y x) :
  List.Forall₂ R (l.filterMap f) (l.filter p)
  := by
  induction l with
  | nil => exact List.Forall₂.nil
  | cons x l ih =>
      have hrest := ih (fun x' hx => hp x' (List.mem_cons_of_mem x hx))
        (fun x' hx => hf x' (List.mem_cons_of_mem x hx))
      have hx := hp x List.mem_cons_self
      cases hfx : f x with
      | none =>
          rw [hfx] at hx
          have hno : ¬p x = true := by
            rw [← hx]
            exact Bool.false_ne_true
          rw [List.filterMap_cons_none hfx, List.filter_cons_of_neg hno]
          exact hrest
      | some y =>
          rw [hfx] at hx
          rw [List.filterMap_cons_some hfx, List.filter_cons_of_pos hx.symm]
          exact List.Forall₂.cons (hf x List.mem_cons_self y hfx) hrest

end Segments

/-! ### Splitting -/

namespace ProcedureBody

variable {a : Alphabet} (body : ProcedureBody a)

theorem balanced_front {front behind : List Mark} (h : marks a body.text = front ++ behind) :
  0 ≤ blockDepth a front
  := body.balanced front ((List.mem_inits _ _).mpr ⟨behind, h.symm⟩)

/-- The word `END` stands in front of the last semicolon at the top. -/
theorem lt_getLast_topLevelEnds {m : Mark} (hmem : m ∈ marks a body.text) (hend : m.IsEnd a) :
  m.pos < (topLevelEnds a body.text).getLast?.getD 0
  := by
  have hrest : m.rest = body.text.drop m.pos := (mem_marksFrom hmem).2
  by_contra hle
  obtain ⟨k, hk⟩ := Nat.exists_eq_add_of_le (Nat.le_of_not_lt hle)
  rw [hk, ← List.drop_drop] at hrest
  have hlooks : startsWithKeyword a "end".toList m.rest = true := hend.looksEnd
  cases hm : m.rest with
  | nil =>
      rw [hm] at hlooks
      cases hlooks
  | cons c s =>
      rw [hm] at hlooks hrest
      have hc : c.toLower = 'e' := toLower_of_startsWithKeyword hlooks
      have halpha : c.isAlpha = true := isAlpha_of_toLower (by rw [hc]; rfl)
      have hspace : isSpace c = true := by
        apply forall_isSpace_of_strip body.terminated
        apply List.mem_of_mem_drop (i := k)
        rw [← hrest]
        exact List.mem_cons_self
      have hword := a.not_isWord_of_isSpace hspace
      rw [a.isWord_of_isAlpha halpha] at hword
      cases hword

/-- Behind the end of a block a statement ends. -/
theorem exists_semicolon {front behind : List Mark} {m : Mark}
    (h : marks a body.text = front ++ m :: behind) (hend : m.IsEnd a) :
  ∃ front' m' behind', behind = front' ++ m' :: behind' ∧ m'.isSemicolon = true
    ∧ blockDepth a (front ++ m :: front') = 0
  := by
  have hord : (marks a body.text).Pairwise (fun m m' => m.pos < m'.pos) := pairwise_marksFrom
  have hlast := body.lt_getLast_topLevelEnds
    (by rw [h]; exact List.mem_append_right _ List.mem_cons_self) hend
  cases hstop : (topLevelEnds a body.text).getLast? with
  | none =>
      rw [hstop] at hlast
      cases hlast
  | some stop =>
      rw [hstop, Option.getD_some] at hlast
      obtain ⟨front', m', behind', hsplit, hsemicolon, htop, rfl⟩ :=
        mem_endsFrom_iff.mp (List.mem_of_getLast? hstop)
      rw [foldl_delta, Int.zero_add, beq_iff_eq] at htop
      have hmem : m ∈ front' ++ m' :: behind' := by
        rw [← hsplit, h]
        exact List.mem_append_right _ List.mem_cons_self
      rcases List.mem_append.mp hmem with hm | hm
      · obtain ⟨front₁, front₂, rfl⟩ := List.append_of_mem hm
        rw [List.append_assoc, List.cons_append] at hsplit
        have hfront : front = front₁ := front_eq_of_pos_eq (h ▸ hord) (h.symm.trans hsplit) rfl
        subst hfront
        rw [h, List.append_cancel_left_eq] at hsplit
        exact ⟨front₂, m', behind', (List.cons.inj hsplit).2, hsemicolon, htop⟩
      · exfalso
        rcases List.mem_cons.mp hm with rfl | hm
        · have hno := looksEnd_excludes hend.looksEnd
          rw [Mark.isSemicolon] at hsemicolon
          rw [hsemicolon] at hno
          cases hno
        · rw [hsplit] at hord
          have hlt := List.rel_of_pairwise_cons (List.pairwise_append.mp hord).2.1 hm
          omega

/-- When the cuts are right, the pieces are the statements. -/
theorem rawSegments_eq
    (h : (bodyRounds a body.text body.text.length).raw.map RawSegment.stop
      = topLevelEnds a body.text) :
  rawSegments a body.text = statements a body.text
  := by
  obtain ⟨hreached, hpos⟩ := @reached_end a body.text
  have hblank : strip (bodyRounds a body.text body.text.length).buffer = [] := by
    rw [hreached.buffer, hreached.segStart, h, hpos, List.take_length]
    exact body.terminated
  rw [rawSegments, hblank, List.isEmpty_nil, if_pos rfl, hreached.pieces, h]
  rfl

theorem Splits.reads {declarationRegion : Text} (h : body.Splits declarationRegion) :
  ReadsMarks a (marks a body.text)
  := by
  have hagrees := body.agrees_iff.mp ⟨h.cuts, h.depth⟩
  exact hagrees.reads pairwise_marksFrom (fun _ _ _ => body.exists_semicolon)

/-- A body is cut into its statements exactly when its words are read: no name is taken for `BEGIN`,
every `END` for the end of a block, and no name in a block for one. -/
theorem splits_iff (declarationRegion : Text) :
  body.Splits declarationRegion ↔ ReadsMarks a (marks a body.text)
  := by
  constructor
  · exact fun h => h.reads
  · intro h
    obtain ⟨hcuts, hdepth⟩ :=
      body.agrees_iff.mpr (h.agrees (fun _ _ => body.balanced_front))
    refine ⟨hcuts, ?_, hdepth⟩
    rw [iterProcedureBodySegments, body.rawSegments_eq hcuts, List.forall₂_map_left_iff]
    have hsegments := forall₂_filterMap
      (fun piece hpiece => (cleanPiece_spec (body.noLoop piece hpiece)).1)
      (fun piece hpiece => (cleanPiece_spec (body.noLoop piece hpiece)).2)
    apply hsegments.imp
    intro segment piece hsame
    rw [inheritSources]
    split <;> exact hsame

end ProcedureBody

/-! ### A name that starts with `BEGIN` -/

/-- `UPDATE t SET d = begin_date; DELETE FROM u;`. -/
def updateBody : ProcedureBody asciiAlphabet where
  text := "UPDATE t SET d = begin_date; DELETE FROM u;".toList
  closed := by decide
  words := by
    rw [blockTokens_eq]
    decide
  balanced := by decide
  blocks_closed := by decide
  terminated := by decide
  noLoop := by decide

/-- The two statements are not told apart. -/
theorem not_splits_updateBody :
  ¬updateBody.Splits []
  := by
  intro h
  have hname : ∃ m ∈ marks asciiAlphabet updateBody.text,
      m.looksBegin asciiAlphabet = true ∧ ¬m.IsBegin asciiAlphabet := by
    decide
  obtain ⟨m, hm, hlooks, hnot⟩ := hname
  exact hnot (h.reads.begins m hm hlooks)

end Lineage

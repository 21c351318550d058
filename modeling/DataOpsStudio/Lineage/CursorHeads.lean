import DataOpsStudio.Lineage.Words

/-!
# The head of a loop over a cursor

The head `FOR r IN (select) LOOP` of a loop is read by counting parentheses outside literals.  A
literal is taken to end with the first quote that no other quote follows, so that one with doubled
quotes inside ends too early.
-/

namespace Lineage

open Text Sql

variable {a : Alphabet}

/-! ### One step -/

/-- What has been read after one more character outside literals. -/
def CursorHead.read (head : CursorHead) (pos : ℕ) (c : Char) : CursorHead :=
  if c = '(' then
    { head with
      depth := head.depth + 1
      selectStart := if head.depth = 0 then some (pos + 1) else head.selectStart }
  else if c = ')' then
    { head with
      depth := head.depth - 1
      selectEnd :=
        if head.depth - 1 = 0 ∧ head.selectEnd = none then some pos else head.selectEnd }
  else head

/-- Outside literals, reading stops at a keyword outside parentheses, and else goes on. -/
theorem readCursorHead_cons {before : Option Char} {pos : ℕ} {head : CursorHead} {c : Char}
    {s : Text} (hquote : isQuote c = false) :
  readCursorHead a 0 before pos head (c :: s)
    = if head.depth = 0 ∧ KeywordAt a "loop".toList before (c :: s) then
        some (head, (c :: s).drop 4)
      else readCursorHead a 0 (some c) (pos + 1) (head.read pos c) s
  := by
  have hfirst : KeywordAt a "loop".toList before (c :: s) → c.toLower = 'l' := toLower_of_keywordAt
  rw [readCursorHead, if_neg (by rw [hquote]; exact Bool.false_ne_true)]
  by_cases hopen : c = '('
  · subst hopen
    have hno : ¬(head.depth = 0 ∧ KeywordAt a "loop".toList before ('(' :: s)) :=
      fun h => absurd (hfirst h.2) (by decide)
    rw [if_pos rfl, if_neg hno]
    rfl
  · by_cases hclose : c = ')'
    · subst hclose
      have hno : ¬(head.depth = 0 ∧ KeywordAt a "loop".toList before (')' :: s)) :=
        fun h => absurd (hfirst h.2) (by decide)
      rw [if_neg hopen, if_pos rfl, if_neg hno]
      rfl
    · have hread : head.read pos c = head := by rw [CursorHead.read, if_neg hopen, if_neg hclose]
      rw [if_neg hopen, if_neg hclose, hread]
      refine if_congr (and_congr_right (fun _ => ?_)) rfl rfl
      rw [isSome_tryAt_loopKeyword]
      constructor
      · exact fun h => h.2.1
      · intro hloop
        have halpha : c.isAlpha = true := isAlpha_of_toLower (by rw [hfirst hloop]; rfl)
        refine ⟨a.isAlpha_of_isAlpha halpha, hloop, ?_⟩
        have hafter := hloop.2.2
        rw [show "loop".toList.length = 4 from rfl] at hafter
        cases hhead : ((c :: s).drop 4).head? with
        | none => rfl
        | some d =>
            rw [hhead] at hafter
            have hword : a.isWord d = false := hafter
            rw [Alphabet.isWord, Bool.or_eq_false_iff] at hword
            exact hword.1

/-! ### Parentheses -/

/-- How many more parentheses a text opens than it closes. -/
def parens : Text → ℤ
  | [] => 0
  | c :: s => (if c = '(' then 1 else if c = ')' then -1 else 0) + parens s

/-- The parentheses outside the literals of a query are balanced. -/
def IsBalanced (select : Text) : Prop :=
  ∃ t, outside everyQuote none select = some t ∧ parens t = 0 ∧ ∀ u v, t = u ++ v → 0 ≤ parens u

/-! ### Reading a query -/

/-- The characters that are still to be passed over in a literal. -/
def skipOf (literal : Option Char) (s : Text) : ℕ :=
  match literal with
  | none => 0
  | some quote => runLength quote s

theorem runLength_cons {quote c : Char} {s : Text} :
  runLength quote (c :: s) = skipOf (literalAfter lastQuote (some quote) c s) s + 1
  := by
  cases s with
  | nil =>
      rw [literalAfter]
      split <;> rfl
  | cons d s =>
      have hlast : lastQuote quote (d :: s) = true ↔ d ≠ quote := by
        rw [lastQuote, List.head?_cons, bne_iff_ne, ne_eq, Option.some.injEq]
      rw [runLength, literalAfter]
      by_cases hend : c = quote ∧ d ≠ quote
      · rw [if_pos hend, if_pos ⟨hend.1, hlast.mpr hend.2⟩]
        rfl
      · rw [if_neg hend, if_neg (fun h => hend ⟨h.1, hlast.mp h.2⟩)]
        rfl

theorem read_blank {head : CursorHead} {pos : ℕ} {c : Char} (hopen : c ≠ '(') (hclose : c ≠ ')') :
  head.read pos c = head
  := by
  rw [CursorHead.read, if_neg hopen, if_neg hclose]

/-- What one character does: a keyword outside literals and parentheses stops the reading. -/
theorem readCursorHead_step {literal before : Option Char} {pos : ℕ} {head : CursorHead} {c : Char}
    {s : Text} :
  readCursorHead a (skipOf literal (c :: s)) before pos head (c :: s)
    = if (literal = none ∧ isQuote c = false) ∧ head.depth = 0
        ∧ KeywordAt a "loop".toList before (c :: s) then some (head, (c :: s).drop 4)
      else readCursorHead a (skipOf (literalAfter lastQuote literal c s) s) (some c) (pos + 1)
        (head.read pos (shown literal c)) s
  := by
  cases literal with
  | none =>
      cases hquote : isQuote c with
      | true =>
          rw [if_neg (fun h => by cases h.1.2), skipOf, readCursorHead, if_pos hquote, shown,
            hquote, literalAfter, if_pos hquote]
          rfl
      | false =>
          have hshown : shown none c = c := by rw [shown, hquote]; rfl
          have hafter : literalAfter lastQuote none c s = none := by
            rw [literalAfter, hquote]
            rfl
          rw [skipOf, readCursorHead_cons hquote, hshown, hafter]
          exact if_congr (by simp only [true_and]) rfl rfl
  | some quote =>
      rw [if_neg (fun h => by cases h.1.1), skipOf, runLength_cons, readCursorHead]
      rfl

theorem parens_append {u v : Text} :
  parens (u ++ v) = parens u + parens v
  := by
  induction u with
  | nil => rw [List.nil_append, parens, Int.zero_add]
  | cons c u ih => rw [List.cons_append, parens, parens, ih, Int.add_assoc]

theorem depth_read {head : CursorHead} {pos : ℕ} {c : Char} :
  (head.read pos c).depth = head.depth + parens [c]
  := by
  rw [CursorHead.read, parens, parens, Int.add_zero]
  split
  · rfl
  · split
    · exact Int.sub_eq_add_neg
    · exact (Int.add_zero _).symm

/-- What has been read after a text outside literals. -/
def CursorHead.readAll : CursorHead → ℕ → Text → CursorHead
  | head, _, [] => head
  | head, pos, c :: t => readAll (head.read pos c) (pos + 1) t

theorem drop_keyword {before : Option Char} {s tail : Text} {d : Char} (hd : a.isWord d = false)
    (h : KeywordAt a "loop".toList before (s ++ d :: tail)) :
  ∃ y, (s ++ d :: tail).drop 4 = y ++ d :: tail
  := by
  have hkeyword := (keywordAt_append_cons loop_letters hd).mp h
  have hlength : 4 ≤ s.length := length_le_of_startsWith hkeyword.2.1
  exact ⟨s.drop 4, List.drop_append_of_le_length hlength⟩

section Select

variable {d : Char} {tail : Text} {select t : Text} {literal before before' : Option Char} {pos : ℕ}
  {head : CursorHead}

/-- A text without the keyword outside parentheses is read to its end. -/
theorem readCursorHead_pass (hquote : isQuote d = false) (hd : a.isWord d = false)
    (hl : ∀ quote, literal = some quote → isQuote quote = true)
    (hbefore : literal = none → Regex.wordAt a.isWord before = Regex.wordAt a.isWord before')
    (h : outside lastQuote literal select = some t)
    (hno : ∀ u v, t = u ++ v → head.depth + parens u = 0 →
      ¬KeywordAt a "loop".toList (Regex.lastOr before' u) v) :
  readCursorHead a (skipOf literal (select ++ d :: tail)) before pos head (select ++ d :: tail)
    = readCursorHead a 0 (Regex.lastOr before select) (pos + select.length) (head.readAll pos t)
      (d :: tail)
  := by
  induction select generalizing literal before before' pos head t with
  | nil =>
      cases literal with
      | none =>
          cases h
          rfl
      | some quote => cases h
  | cons c select ih =>
      obtain ⟨t', ht', rfl⟩ := outside_cons.mp h
      have hstop : ¬((literal = none ∧ isQuote c = false) ∧ head.depth = 0
          ∧ KeywordAt a "loop".toList before (c :: (select ++ d :: tail))) := by
        rintro ⟨⟨rfl, -⟩, hdepth, hkeyword⟩
        apply hno [] _ rfl
        · rw [parens, Int.add_zero, hdepth]
        · exact (keywordAt_outside loop_letters hd (hbefore rfl) h).mp hkeyword
      rw [List.cons_append, readCursorHead_step, if_neg hstop, literalAfter_append_cons hquote hl,
        @ih t' _ (some c) (some (shown literal c)), Regex.lastOr_cons, List.length_cons,
        Nat.add_assoc, Nat.add_comm 1]
      · rfl
      · exact isQuote_of_literalAfter hl
      · exact wordAt_shown hl
      · exact ht'
      · intro u v hsplit hdepth
        have hnext := hno (shown literal c :: u) v (by rw [hsplit]; rfl)
        rw [Regex.lastOr_cons] at hnext
        apply hnext
        rw [depth_read] at hdepth
        rw [← hdepth, Int.add_assoc, ← parens_append]
        rfl

/-- With the keyword outside parentheses, a text is not read to its end. -/
theorem readCursorHead_stop (hquote : isQuote d = false) (hd : a.isWord d = false)
    (hl : ∀ quote, literal = some quote → isQuote quote = true)
    (hbefore : literal = none → Regex.wordAt a.isWord before = Regex.wordAt a.isWord before')
    (h : outside lastQuote literal select = some t)
    (hkeyword : ∃ u v, t = u ++ v ∧ head.depth + parens u = 0
      ∧ KeywordAt a "loop".toList (Regex.lastOr before' u) v) :
  ∃ head' y,
    readCursorHead a (skipOf literal (select ++ d :: tail)) before pos head (select ++ d :: tail)
      = some (head', y ++ d :: tail)
  := by
  induction select generalizing literal before before' pos head t with
  | nil =>
      cases literal with
      | none =>
          cases h
          obtain ⟨u, v, hsplit, -, hkeyword⟩ := hkeyword
          obtain ⟨rfl, rfl⟩ := List.append_eq_nil_iff.mp hsplit.symm
          cases hkeyword.2.1
      | some quote => cases h
  | cons c select ih =>
      obtain ⟨t', ht', rfl⟩ := outside_cons.mp h
      rw [List.cons_append, readCursorHead_step]
      split
      · next hstop =>
          obtain ⟨y, hy⟩ := drop_keyword (s := c :: select) hd hstop.2.2
          exact ⟨head, y, by rw [← hy]; rfl⟩
      · next hstop =>
          rw [literalAfter_append_cons hquote hl]
          apply @ih t' _ (some c) (some (shown literal c))
          · exact isQuote_of_literalAfter hl
          · exact wordAt_shown hl
          · exact ht'
          · obtain ⟨u, v, hsplit, hdepth, hkeyword⟩ := hkeyword
            cases u with
            | nil =>
                rw [List.nil_append] at hsplit
                subst hsplit
                have houter : literal = none ∧ isQuote c = false := by
                  have hfirst := toLower_of_keywordAt hkeyword
                  have hblank : ' '.toLower ≠ 'l' := by decide
                  cases literal with
                  | some quote => exact absurd hfirst hblank
                  | none =>
                      cases hc : isQuote c with
                      | false => exact ⟨rfl, rfl⟩
                      | true =>
                          rw [shown, hc] at hfirst
                          exact absurd hfirst hblank
                obtain ⟨rfl, hc⟩ := houter
                rw [parens, Int.add_zero] at hdepth
                have hthere : KeywordAt a "loop".toList before (c :: select ++ d :: tail) :=
                  (keywordAt_outside loop_letters hd (hbefore rfl) h).mpr hkeyword
                exact absurd ⟨⟨rfl, hc⟩, hdepth, hthere⟩ hstop
            | cons e u =>
                obtain ⟨rfl, rfl⟩ := List.cons.inj hsplit
                rw [Regex.lastOr_cons] at hkeyword
                refine ⟨u, v, rfl, ?_, hkeyword⟩
                rw [depth_read, ← hdepth, Int.add_assoc, ← parens_append]
                rfl

/-- A text with an open literal is not read to its end, or the literal goes on behind it. -/
theorem readCursorHead_open (hquote : isQuote d = false) (hd : a.isWord d = false)
    (hl : ∀ quote, literal = some quote → isQuote quote = true)
    (h : outside lastQuote literal select = none) :
  (∃ head' y,
    readCursorHead a (skipOf literal (select ++ d :: tail)) before pos head (select ++ d :: tail)
      = some (head', y ++ d :: tail))
  ∨ ∃ quote before' pos' head', isQuote quote = true
    ∧ readCursorHead a (skipOf literal (select ++ d :: tail)) before pos head (select ++ d :: tail)
      = readCursorHead a (runLength quote (d :: tail)) before' pos' head' (d :: tail)
  := by
  induction select generalizing literal before pos head with
  | nil =>
      cases literal with
      | none => cases h
      | some quote => exact .inr ⟨quote, before, pos, head, hl quote rfl, rfl⟩
  | cons c select ih =>
      rw [outside, Option.map_eq_none_iff] at h
      rw [List.cons_append, readCursorHead_step]
      split
      · next hstop =>
          obtain ⟨y, hy⟩ := drop_keyword (s := c :: select) hd hstop.2.2
          exact .inl ⟨head, y, by rw [← hy]; rfl⟩
      · rw [literalAfter_append_cons hquote hl]
        exact ih (isQuote_of_literalAfter hl) h

end Select

/-! ### Reading other parts -/

/-- Outside parentheses a text without the letter that the keyword starts with is read to its end,
and inside of them any text without parentheses. -/
theorem readCursorHead_plain {before : Option Char} {pos : ℕ} {head : CursorHead} {u s : Text}
    (hu : ∀ c ∈ u, isQuote c = false ∧ c ≠ '(' ∧ c ≠ ')')
    (h : head.depth ≠ 0 ∨ ∀ c ∈ u, c.toLower ≠ 'l') :
  readCursorHead a 0 before pos head (u ++ s)
    = readCursorHead a 0 (Regex.lastOr before u) (pos + u.length) head s
  := by
  induction u generalizing before pos with
  | nil => rfl
  | cons c u ih =>
      obtain ⟨hquote, hopen, hclose⟩ := hu c List.mem_cons_self
      have hstop : ¬(head.depth = 0 ∧ KeywordAt a "loop".toList before (c :: (u ++ s))) := by
        rintro ⟨hdepth, hkeyword⟩
        rcases h with h | h
        · exact h hdepth
        · exact h c List.mem_cons_self (toLower_of_keywordAt hkeyword)
      rw [List.cons_append, readCursorHead_cons hquote, if_neg hstop, read_blank hopen hclose,
        ih (fun d hd => hu d (List.mem_cons_of_mem c hd))
          (h.imp id (fun h d hd => h d (List.mem_cons_of_mem c hd))), Regex.lastOr_cons,
        List.length_cons, Nat.add_assoc, Nat.add_comm 1]

/-- Reading stops at a keyword behind what is passed over. -/
theorem exists_of_readCursorHead {skip : ℕ} {before : Option Char} {pos : ℕ}
    {head head' : CursorHead} {s after : Text}
    (h : readCursorHead a skip before pos head s = some (head', after)) :
  ∃ x v, s = x ++ (v ++ after) ∧ skip ≤ x.length ∧ Regex.startsWith "loop".toList v = true
  := by
  induction s generalizing skip before pos head with
  | nil => rw [readCursorHead] at h; cases h
  | cons c s ih =>
      cases skip with
      | succ skip =>
          rw [readCursorHead] at h
          obtain ⟨x, v, hs, hlength, hv⟩ := ih h
          exact ⟨c :: x, v, by rw [hs]; rfl, Nat.succ_le_succ hlength, hv⟩
      | zero =>
          cases hquote : isQuote c with
          | true =>
              rw [readCursorHead, if_pos hquote] at h
              obtain ⟨x, v, hs, -, hv⟩ := ih h
              exact ⟨c :: x, v, by rw [hs]; rfl, Nat.zero_le _, hv⟩
          | false =>
              rw [readCursorHead_cons hquote] at h
              split at h
              · next hstop =>
                  cases h
                  refine ⟨[], (c :: s).take 4, (List.take_append_drop 4 (c :: s)).symm,
                    Nat.zero_le _, ?_⟩
                  have hstarts := hstop.2.2.1
                  rw [Regex.startsWith, show "loop".toList.length = 4 from rfl] at hstarts ⊢
                  rwa [List.take_take, Nat.min_self]
              · obtain ⟨x, v, hs, -, hv⟩ := ih h
                exact ⟨c :: x, v, by rw [hs]; rfl, Nat.zero_le _, hv⟩

/-- A literal that is not closed in a text goes on behind it. -/
theorem length_le_runLength {quote : Char} {u s : Text} (hu : quote ∉ u) :
  u.length ≤ runLength quote (u ++ s)
  := by
  induction u with
  | nil => exact Nat.zero_le _
  | cons c u ih =>
      rw [List.mem_cons, not_or] at hu
      have hafter : literalAfter lastQuote (some quote) c (u ++ s) = some quote := by
        rw [literalAfter, if_neg (fun h => hu.1 h.1.symm)]
      rw [List.cons_append, runLength_cons, hafter]
      exact Nat.succ_le_succ (ih hu.2)

/-! ### What has been read of the query -/

theorem depth_readAll {head : CursorHead} {pos : ℕ} {t : Text} :
  (head.readAll pos t).depth = head.depth + parens t
  := by
  induction t generalizing head pos with
  | nil => exact (Int.add_zero _).symm
  | cons c t ih =>
      rw [CursorHead.readAll, ih, depth_read, Int.add_assoc, ← parens_append]
      rfl

theorem readAll_plain {head : CursorHead} {pos : ℕ} {t : Text}
    (ht : ∀ c ∈ t, c ≠ '(' ∧ c ≠ ')') :
  head.readAll pos t = head
  := by
  induction t generalizing pos with
  | nil => rfl
  | cons c t ih =>
      obtain ⟨hopen, hclose⟩ := ht c List.mem_cons_self
      rw [CursorHead.readAll, read_blank hopen hclose,
        ih (fun d hd => ht d (List.mem_cons_of_mem c hd))]

/-- Inside the parentheses of the query neither its start nor its end is set. -/
theorem readAll_inside {head : CursorHead} {pos : ℕ} {t : Text}
    (h : ∀ u v, t = u ++ v → 1 ≤ head.depth + parens u) :
  (head.readAll pos t).selectStart = head.selectStart
    ∧ (head.readAll pos t).selectEnd = head.selectEnd
  := by
  induction t generalizing head pos with
  | nil => exact ⟨rfl, rfl⟩
  | cons c t ih =>
      have hdepth : 1 ≤ head.depth := by
        have h := h [] _ rfl
        rwa [parens, Int.add_zero] at h
      have hnext : 1 ≤ (head.read pos c).depth := by
        rw [depth_read]
        exact h [c] t rfl
      have hsame : (head.read pos c).selectStart = head.selectStart
          ∧ (head.read pos c).selectEnd = head.selectEnd := by
        by_cases hopen : c = '('
        · subst hopen
          exact ⟨if_neg (by omega), rfl⟩
        · by_cases hclose : c = ')'
          · subst hclose
            have hinside : 1 ≤ head.depth - 1 := hnext
            exact ⟨rfl, if_neg (by omega)⟩
          · rw [read_blank hopen hclose]
            exact ⟨rfl, rfl⟩
      rw [CursorHead.readAll]
      obtain ⟨hstart, hend⟩ := @ih (head.read pos c) (pos + 1) (by
        intro u v hsplit
        have h := h (c :: u) v (by rw [hsplit]; rfl)
        rw [depth_read, Int.add_assoc, ← parens_append]
        exact h)
      exact ⟨hstart.trans hsame.1, hend.trans hsame.2⟩

/-- The end of the query has been read, and only what is opened behind it is taken for a query. -/
def CursorHead.IsClosed (head : CursorHead) (pos : ℕ) : Prop :=
  ∃ stop, head.selectEnd = some stop ∧ stop < pos
    ∧ (1 ≤ head.depth → ∃ start, head.selectStart = some start ∧ stop < start)

theorem CursorHead.IsClosed.read {head : CursorHead} {pos : ℕ} (h : head.IsClosed pos) (c : Char) :
  (head.read pos c).IsClosed (pos + 1)
  := by
  obtain ⟨stop, hstop, hpos, hstart⟩ := h
  by_cases hopen : c = '('
  · subst hopen
    refine ⟨stop, hstop, Nat.lt_succ_of_lt hpos, fun hdepth => ?_⟩
    have hdepth : 1 ≤ head.depth + 1 := hdepth
    by_cases hzero : head.depth = 0
    · exact ⟨pos + 1, if_pos hzero, Nat.lt_succ_of_lt hpos⟩
    · obtain ⟨start, hsome, hlt⟩ := hstart (by omega)
      exact ⟨start, (if_neg hzero).trans hsome, hlt⟩
  · by_cases hclose : c = ')'
    · subst hclose
      have hend : ¬(head.depth - 1 = 0 ∧ head.selectEnd = none) := by
        rintro ⟨-, hnone⟩
        rw [hstop] at hnone
        cases hnone
      refine ⟨stop, (if_neg hend).trans hstop, Nat.lt_succ_of_lt hpos, fun hdepth => ?_⟩
      have hdepth : 1 ≤ head.depth - 1 := hdepth
      exact hstart (by omega)
    · rw [read_blank hopen hclose]
      exact ⟨stop, hstop, Nat.lt_succ_of_lt hpos, hstart⟩

theorem CursorHead.IsClosed.readAll {head : CursorHead} {pos : ℕ} (h : head.IsClosed pos)
    (t : Text) :
  (head.readAll pos t).IsClosed (pos + t.length)
  := by
  induction t generalizing head pos with
  | nil => exact h
  | cons c t ih =>
      rw [CursorHead.readAll, List.length_cons, Nat.add_comm t.length 1, ← Nat.add_assoc]
      exact ih (h.read c)

/-- A parenthesis that closes the query too early sets its end. -/
theorem isClosed_readAll {head : CursorHead} {pos : ℕ} {t : Text} (hdepth : 1 ≤ head.depth)
    (hend : head.selectEnd = none) (h : ∃ u v, t = u ++ v ∧ head.depth + parens u ≤ 0) :
  (head.readAll pos t).IsClosed (pos + t.length)
  := by
  induction t generalizing head pos with
  | nil =>
      obtain ⟨u, v, hsplit, hle⟩ := h
      obtain ⟨rfl, rfl⟩ := List.append_eq_nil_iff.mp hsplit.symm
      rw [parens, Int.add_zero] at hle
      omega
  | cons c t ih =>
      rw [CursorHead.readAll, List.length_cons, Nat.add_comm t.length 1, ← Nat.add_assoc]
      by_cases hnext : 1 ≤ (head.read pos c).depth
      · apply ih hnext
        · by_cases hopen : c = '('
          · subst hopen
            exact hend
          · by_cases hclose : c = ')'
            · subst hclose
              have hinside : 1 ≤ head.depth - 1 := hnext
              exact (if_neg (by omega)).trans hend
            · rwa [read_blank hopen hclose]
        · obtain ⟨u, v, hsplit, hle⟩ := h
          cases u with
          | nil =>
              rw [parens, Int.add_zero] at hle
              omega
          | cons d u =>
              obtain ⟨rfl, rfl⟩ := List.cons.inj hsplit
              refine ⟨u, v, rfl, ?_⟩
              rw [depth_read, Int.add_assoc, ← parens_append]
              exact hle
      · apply CursorHead.IsClosed.readAll
        by_cases hopen : c = '('
        · subst hopen
          have hdepth' : ¬1 ≤ head.depth + 1 := hnext
          omega
        · by_cases hclose : c = ')'
          · subst hclose
            have hdepth' : ¬1 ≤ head.depth - 1 := hnext
            refine ⟨pos, if_pos ⟨by omega, hend⟩, Nat.lt_succ_self pos, fun h => absurd h hnext⟩
          · rw [read_blank hopen hclose] at hnext
            contradiction

end Lineage

import DataOpsStudio.Library.Text

/-!
# Lines

The lines of a text, as the interpreter cuts it: at the end of a line of any kind, a carriage
return with a line feed behind it being one.  What is put together again, with a function applied
to every line, is followed character by character.
-/

namespace Text

/-- Whether a character ends a line. -/
def isLineEnd (c : Char) : Bool :=
  let n := c.toNat
  (0xa ≤ n && n ≤ 0xd) || (0x1c ≤ n && n ≤ 0x1e) || n == 0x85 || n == 0x2028 || n == 0x2029

/-- A character in front of the first line. -/
def consLine (c : Char) : List Text → List Text
  | [] => [[c]]
  | line :: lines => (c :: line) :: lines

/-- The lines of a text, that of the last one being empty not counted.  `afterReturn` says that a
carriage return is in front of the text. -/
def splitlinesFrom : Bool → Text → List Text
  | _, [] => []
  | afterReturn, c :: s =>
      if afterReturn && c == '\n' then splitlinesFrom false s
      else if isLineEnd c then [] :: splitlinesFrom (c == '\r') s
      else consLine c (splitlinesFrom false s)

/-- The lines of a text. -/
def splitlines (s : Text) : List Text := splitlinesFrom false s

theorem isSpace_of_isLineEnd {c : Char} (h : isLineEnd c = true) :
  isSpace c = true
  := by
  simp only [isLineEnd, isSpace, Bool.or_eq_true, Bool.and_eq_true, decide_eq_true_eq,
    beq_iff_eq] at h ⊢
  omega

section Lines

variable {afterReturn : Bool} {c : Char} {s : Text}

theorem splitlinesFrom_lineEnd (hskip : (afterReturn && c == '\n') = false)
    (hc : isLineEnd c = true) :
  splitlinesFrom afterReturn (c :: s) = [] :: splitlinesFrom (c == '\r') s
  := by rw [splitlinesFrom, hskip, if_neg Bool.false_ne_true, if_pos hc]

theorem splitlinesFrom_cons (hc : isLineEnd c = false) :
  splitlinesFrom afterReturn (c :: s) = consLine c (splitlinesFrom false s)
  := by
  have hfeed : (c == '\n') = false := by
    rw [beq_eq_false_iff_ne]
    rintro rfl
    cases hc
  rw [splitlinesFrom, hfeed, Bool.and_false, hc, if_neg Bool.false_ne_true,
    if_neg Bool.false_ne_true]

theorem splitlinesFrom_of_head (h : s.head? ≠ some '\n') :
  splitlinesFrom afterReturn s = splitlinesFrom false s
  := by
  cases s with
  | nil => rfl
  | cons c s =>
      have hfeed : (c == '\n') = false := by
        rw [beq_eq_false_iff_ne]
        rintro rfl
        exact h rfl
      rw [splitlinesFrom, splitlinesFrom, hfeed, Bool.and_false, Bool.and_false]

theorem splitlinesFrom_ne_nil (hs : s ≠ []) (h : s.head? ≠ some '\n' ∨ afterReturn = false) :
  splitlinesFrom afterReturn s ≠ []
  := by
  have hfalse : splitlinesFrom afterReturn s = splitlinesFrom false s := by
    rcases h with h | rfl
    · apply splitlinesFrom_of_head h
    · rfl
  rw [hfalse]
  obtain ⟨c, s, rfl⟩ := List.exists_cons_of_ne_nil hs
  cases hc : isLineEnd c with
  | true =>
      rw [splitlinesFrom_lineEnd rfl hc]
      apply List.cons_ne_nil
  | false =>
      rw [splitlinesFrom_cons hc]
      cases splitlinesFrom false s with
      | nil => apply List.cons_ne_nil
      | cons line lines => apply List.cons_ne_nil

theorem splitlinesFrom_append_ne_nil {u : Text} (hs : s ≠ []) (h : s.head? ≠ some '\n') :
  splitlinesFrom afterReturn (u ++ s) ≠ []
  := by
  cases u with
  | nil => apply splitlinesFrom_ne_nil hs (.inl h)
  | cons c u =>
      rw [List.cons_append, splitlinesFrom]
      split
      · apply splitlinesFrom_ne_nil _ (.inr rfl)
        rw [ne_eq, List.append_eq_nil_iff]
        exact fun hnil => hs hnil.2
      · split
        · apply List.cons_ne_nil
        · cases splitlinesFrom false (u ++ s) with
          | nil => apply List.cons_ne_nil
          | cons line lines => apply List.cons_ne_nil

/-- A line reaches up to where the first one ends. -/
theorem splitlinesFrom_append {u : Text} (hu : ∀ d ∈ u, isLineEnd d = false)
    (hc : isLineEnd c = true) :
  splitlinesFrom false (u ++ c :: s) = u :: splitlinesFrom (c == '\r') s
  := by
  induction u with
  | nil => apply splitlinesFrom_lineEnd rfl hc
  | cons d u ih =>
      rw [List.cons_append, splitlinesFrom_cons (hu d List.mem_cons_self),
        ih (fun e he => hu e (List.mem_cons_of_mem d he))]
      rfl

theorem isPrefix_of_splitlinesFrom {line : Text} {lines : List Text}
    (h : splitlinesFrom false s = line :: lines) :
  line <+: s
  := by
  induction s generalizing line lines with
  | nil => cases h
  | cons c s ih =>
      cases hc : isLineEnd c with
      | true =>
          rw [splitlinesFrom_lineEnd rfl hc] at h
          obtain ⟨rfl, -⟩ := List.cons.inj h
          apply List.nil_prefix
      | false =>
          rw [splitlinesFrom_cons hc] at h
          cases hlines : splitlinesFrom false s with
          | nil =>
              rw [hlines] at h
              obtain ⟨rfl, -⟩ := List.cons.inj h
              exact ⟨s, rfl⟩
          | cons first rest =>
              rw [hlines] at h
              obtain ⟨rfl, -⟩ := List.cons.inj h
              apply List.cons_prefix_cons.mpr
              exact ⟨rfl, ih hlines⟩

/-- No line holds the end of one. -/
theorem not_isLineEnd_of_mem_splitlinesFrom {line : Text}
    (hline : line ∈ splitlinesFrom afterReturn s) :
  ∀ d ∈ line, isLineEnd d = false
  := by
  induction s generalizing afterReturn line with
  | nil => cases hline
  | cons c s ih =>
      rw [splitlinesFrom] at hline
      split at hline
      · apply ih hline
      · split at hline
        · rcases List.mem_cons.mp hline with rfl | hline
          · simp
          · apply ih hline
        · next hc =>
            rw [Bool.not_eq_true] at hc
            cases hlines : splitlinesFrom false s with
            | nil =>
                rw [hlines] at hline
                obtain rfl := List.mem_singleton.mp hline
                simp [hc]
            | cons first lines =>
                rw [hlines] at hline
                rcases List.mem_cons.mp hline with rfl | hline
                · intro d hd
                  rcases List.mem_cons.mp hd with rfl | hd
                  · apply hc
                  · apply ih (hlines ▸ List.mem_cons_self) d hd
                · apply ih (hlines ▸ List.mem_cons_of_mem _ hline)

end Lines

/-! ### Lines put together -/

/-- The lines of a text under a function, with line feeds between them. -/
def mapLines (f : Text → Text) (afterReturn : Bool) (s : Text) : Text :=
  join ['\n'] ((splitlinesFrom afterReturn s).map f)

section MapLines

variable {f : Text → Text} {afterReturn : Bool} {c : Char} {s : Text}

theorem join_cons_of_ne_nil {separator line : Text} {lines : List Text} (h : lines ≠ []) :
  join separator (line :: lines) = line ++ separator ++ join separator lines
  := by
  obtain ⟨next, lines, rfl⟩ := List.exists_cons_of_ne_nil h
  rw [join, List.intercalate_cons_cons]
  rfl

theorem mapLines_of_head (h : s.head? ≠ some '\n') :
  mapLines f afterReturn s = mapLines f false s
  := by rw [mapLines, mapLines, splitlinesFrom_of_head h]

/-- The end of a line leaves a line feed when a line follows. -/
theorem mapLines_lineEnd (hf : f [] = []) (hskip : (afterReturn && c == '\n') = false)
    (hc : isLineEnd c = true) (hs : splitlinesFrom (c == '\r') s ≠ []) :
  mapLines f afterReturn (c :: s) = '\n' :: mapLines f (c == '\r') s
  := by
  rw [mapLines, splitlinesFrom_lineEnd hskip hc, List.map_cons, hf,
    join_cons_of_ne_nil (fun hnil => hs (List.map_eq_nil_iff.mp hnil))]
  rfl

variable (afterReturn s) in
/-- White space is put in the place of the end of a line. -/
theorem exists_mapLines_lineEnd (hf : f [] = []) (hc : isLineEnd c = true) :
  ∃ w, (∀ d ∈ w, isSpace d = true) ∧ mapLines f afterReturn (c :: s) = w ++ mapLines f (c == '\r') s
    ∧ (splitlinesFrom (c == '\r') s ≠ [] → (afterReturn && c == '\n') = false → w ≠ [])
  := by
  cases hskip : afterReturn && c == '\n' with
  | true =>
      have hfeed : c = '\n' := by
        rw [Bool.and_eq_true, beq_iff_eq] at hskip
        exact hskip.2
      refine ⟨[], by simp, ?_, by simp⟩
      rw [mapLines, splitlinesFrom, hskip, if_pos rfl, hfeed]
      rfl
  | false =>
      by_cases hs : splitlinesFrom (c == '\r') s = []
      · refine ⟨[], by simp, ?_, fun hne => absurd hs hne⟩
        rw [mapLines, splitlinesFrom_lineEnd hskip hc, mapLines, hs, List.map_singleton, hf]
        rfl
      · refine ⟨['\n'], ?_, mapLines_lineEnd hf hskip hc hs, by simp⟩
        intro d hd
        rw [List.mem_singleton.mp hd]
        rfl

end MapLines

end Text

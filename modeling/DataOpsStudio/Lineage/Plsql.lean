import DataOpsStudio.Library.Lines
import DataOpsStudio.Lineage.Words
import Mathlib.Data.List.Chain

/-!
# The statements of a script

A script is cut into its statements in three passes.  Line comments are taken off, on every line
from the first two dashes on; what stands between `BEGIN` and `END` is taken for the body; and the
body is cut at the semicolons outside literals.  Only the last pass knows what a literal is.
-/

namespace Lineage

open Text

/-! ### The passes -/

/-- What stands before the first two dashes. -/
def beforeComment : Text → Text
  | [] => []
  | c :: s => if "--".toList.isPrefixOf (c :: s) then [] else c :: beforeComment s

/-- A text without its line comments. -/
def stripLineComments (sqlText : Text) : Text := mapLines beforeComment false sqlText

section Plsql

variable (a : Alphabet)

/-- The characters of the name behind the last `END`; letters of either case, and the characters
that the interpreter takes for letters of the other case. -/
def blockNameChar (c : Char) : Bool :=
  c.isAlphanum || "_$#".toList.contains c || [0x130, 0x131, 0x17f, 0x212a].contains c.toNat

/-- The end of a block, up to the end of the text. -/
def blockTail : Regex :=
  .seq [wordEdge a, .letters "end", wordEdge a, .star .space, .star (.char blockNameChar),
    .star .space, .optional (.exactly ';'), .star .space, .optional (.exactly '/'), .star .space,
    .textEnd]

/-- What a script holds between `BEGIN` and `END`, without its line comments. -/
def procedureBody (sqlText : Text) : Text :=
  let text := strip (stripLineComments sqlText)
  let text :=
    match Regex.search (wholeWord a "begin") text 0 with
    | some found => text.drop found.stop
    | none => text
  match Regex.search (blockTail a) text 0 with
  | some found => text.take found.start
  | none => text

/-- A statement without the semicolons behind it, if anything is left. -/
def statementOf (current : Text) : List Text :=
  match strip ((strip current).rdropWhile (· == ';')) with
  | [] => []
  | statement => [statement]

/-- The statements of a text from a place on, with the quote of the literal around the place and
what has been read since the last semicolon. -/
def plsqlStatementsFrom : Option Char → Text → Text → List Text
  | _, current, [] =>
      match strip current with
      | [] => []
      | tail => [tail]
  | some quote, current, [c] =>
      plsqlStatementsFrom (if c = quote then none else some quote) (current ++ [c]) []
  | some quote, current, c :: d :: s =>
      if c = quote ∧ d = quote then plsqlStatementsFrom (some quote) (current ++ [c, d]) s
      else plsqlStatementsFrom (if c = quote then none else some quote) (current ++ [c]) (d :: s)
  | none, current, c :: s =>
      if isQuote c then plsqlStatementsFrom (some c) (current ++ [c]) s
      else if c = ';' then statementOf (current ++ [c]) ++ plsqlStatementsFrom none [] s
      else plsqlStatementsFrom none (current ++ [c]) s

/-- The keywords of statements. -/
def dmlKeywords : List String := ["insert", "update", "merge", "delete", "select"]

/-- The start of a statement. -/
def dmlStart : Regex :=
  .seq [.textStart, .star .space, .group 1 (.oneOf (dmlKeywords.map .letters)), wordEdge a]

/-- The statements of a script that begin with a keyword. -/
def splitPlsqlStatements (sqlText : Text) : List Text :=
  (plsqlStatementsFrom none [] (procedureBody a sqlText)).filter
    (fun statement => (Regex.tryAt (dmlStart a) (Regex.Spot.at statement 0)).isSome)

end Plsql

/-! ### Comments are taken off -/

/-- Two dashes stand nowhere. -/
def Uncommented (s : Text) : Prop := s.IsChain (fun c d => ¬(c = '-' ∧ d = '-'))

instance decidableUncommented (s : Text) : Decidable (Uncommented s) := inferInstanceAs (Decidable (List.IsChain _ _))

theorem uncommented_beforeComment (s : Text) :
  Uncommented (beforeComment s)
  := by
  induction s with
  | nil => apply List.IsChain.nil
  | cons c s ih =>
      rw [beforeComment]
      split
      · apply List.IsChain.nil
      · next hdashes =>
          apply List.isChain_cons.mpr
          refine ⟨?_, ih⟩
          rintro d hd ⟨rfl, rfl⟩
          apply hdashes
          cases s with
          | nil => cases hd
          | cons e s =>
              rw [beforeComment] at hd
              split at hd
              · cases hd
              · obtain rfl := Option.some.inj hd
                rfl

theorem take_beforeComment (s : Text) : beforeComment s <+: s := by
  induction s with
  | nil => apply List.prefix_rfl
  | cons c s ih =>
      rw [beforeComment]
      split
      · apply List.nil_prefix
      · apply List.cons_prefix_cons.mpr ⟨rfl, ih⟩

/-- What is left holds neither dashes in a row nor ends of lines of another kind. -/
theorem stripLineComments_spec (sqlText : Text) :
  Uncommented (stripLineComments sqlText)
    ∧ ∀ c ∈ stripLineComments sqlText, isLineEnd c = true → c = '\n'
  := by
  have hlines : ∀ lines : List Text, (∀ line ∈ lines, Uncommented line
      ∧ ∀ c ∈ line, isLineEnd c = false) →
      Uncommented (join ['\n'] lines) ∧ ∀ c ∈ join ['\n'] lines, isLineEnd c = true → c = '\n' := by
    intro lines hlines
    induction lines with
    | nil => exact ⟨List.IsChain.nil, by simp [join]⟩
    | cons line lines ih =>
        obtain ⟨huncommented, hends⟩ := hlines line List.mem_cons_self
        by_cases hne : lines = []
        · subst hne
          have hline : join ['\n'] [line] = line := by simp [join]
          rw [hline]
          refine ⟨huncommented, ?_⟩
          intro c hc hend
          rw [hends c hc] at hend
          cases hend
        · obtain ⟨ihuncommented, ihends⟩ := ih (fun l hl => hlines l (List.mem_cons_of_mem _ hl))
          rw [join_cons_of_ne_nil hne, List.append_assoc]
          constructor
          · apply List.isChain_append.mpr
            refine ⟨huncommented, List.isChain_cons.mpr ⟨?_, ihuncommented⟩, ?_⟩
            · rintro d - ⟨hfeed, -⟩
              cases hfeed
            · rintro c - d hd ⟨-, rfl⟩
              cases hd
          · intro c hc hend
            rcases List.mem_append.mp hc with hc | hc
            · rw [hends c hc] at hend
              cases hend
            · rcases List.mem_append.mp hc with hc | hc
              · apply List.mem_singleton.mp hc
              · apply ihends c hc hend
  apply hlines
  intro line hline
  obtain ⟨raw, hraw, rfl⟩ := List.mem_map.mp hline
  refine ⟨uncommented_beforeComment raw, ?_⟩
  intro c hc
  exact not_isLineEnd_of_mem_splitlinesFrom hraw c ((take_beforeComment raw).subset hc)

section Uncomment

variable {afterReturn : Bool} {c : Char} {s : Text}

/-- A character of a line stays when no comment begins at it. -/
theorem mapLines_beforeComment_cons (hc : isLineEnd c = false)
    (hdashes : ¬ "--".toList <+: c :: s) :
  mapLines beforeComment afterReturn (c :: s) = c :: mapLines beforeComment false s
  := by
  rw [mapLines, mapLines, splitlinesFrom_cons hc]
  have hkept : ∀ line, line <+: s → beforeComment (c :: line) = c :: beforeComment line := by
    intro line hline
    rw [beforeComment, if_neg]
    intro hbegins
    apply hdashes
    exact (List.isPrefixOf_iff_prefix.mp hbegins).trans (List.cons_prefix_cons.mpr ⟨rfl, hline⟩)
  cases hlines : splitlinesFrom false s with
  | nil =>
      rw [consLine, List.map_singleton, hkept [] List.nil_prefix]
      rfl
  | cons line lines =>
      rw [consLine, List.map_cons, List.map_cons, hkept line (isPrefix_of_splitlinesFrom hlines)]
      cases lines with
      | nil => rfl
      | cons next lines =>
          rw [List.map_cons, join_cons_of_ne_nil (List.cons_ne_nil _ _),
            join_cons_of_ne_nil (List.cons_ne_nil _ _)]
          rfl

/-- A comment is taken off up to the end of its line. -/
theorem mapLines_beforeComment_comment {comment : Text} (h : ∀ d ∈ comment, isLineEnd d = false)
    (hc : isLineEnd c = true) :
  mapLines beforeComment afterReturn ("--".toList ++ comment ++ c :: s)
    = mapLines beforeComment false (c :: s)
  := by
  have hfirst : splitlinesFrom afterReturn ("--".toList ++ comment ++ c :: s)
      = ("--".toList ++ comment) :: splitlinesFrom (c == '\r') s := by
    rw [splitlinesFrom_of_head (by simp)]
    apply splitlinesFrom_append _ hc
    intro d hd
    rcases List.mem_append.mp hd with hd | hd
    · have hdash : d = '-' := by simpa using hd
      rw [hdash]
      rfl
    · apply h d hd
  rw [mapLines, mapLines, hfirst, splitlinesFrom_lineEnd rfl hc, List.map_cons, List.map_cons]
  rfl

/-- What holds no comment and no other ends of lines stays as it is. -/
theorem mapLines_beforeComment_append {u : Text} (huncommented : Uncommented u)
    (hends : ∀ d ∈ u, isLineEnd d = true → d = '\n')
    (hjoin : ∀ d ∈ u.getLast?, ¬(d = '-' ∧ s.head? = some '-') ∧ (s = [] → isLineEnd d = false)) :
  mapLines beforeComment false (u ++ s) = u ++ mapLines beforeComment false s
  := by
  induction u with
  | nil => rfl
  | cons d u ih =>
      have htail : mapLines beforeComment false (u ++ s) = u ++ mapLines beforeComment false s := by
        apply ih (List.isChain_cons.mp huncommented).2
          (fun e he => hends e (List.mem_cons_of_mem d he))
        intro e he
        apply hjoin e
        rw [List.getLast?_cons]
        rw [Option.mem_def.mp he]
        rfl
      rw [List.cons_append, List.cons_append, ← htail]
      cases hd : isLineEnd d with
      | true =>
          obtain rfl := hends d List.mem_cons_self hd
          apply mapLines_lineEnd rfl rfl hd
          apply splitlinesFrom_ne_nil _ (.inr rfl)
          intro hnil
          obtain ⟨rfl, rfl⟩ := List.append_eq_nil_iff.mp hnil
          rw [(hjoin '\n' rfl).2 rfl] at hd
          cases hd
      | false =>
          apply mapLines_beforeComment_cons hd
          rintro ⟨rest, hrest⟩
          change '-' :: '-' :: rest = d :: (u ++ s) at hrest
          obtain ⟨rfl, hbehind⟩ := List.cons.inj hrest
          cases u with
          | nil =>
              apply (hjoin '-' rfl).1
              rw [List.nil_append] at hbehind
              exact ⟨rfl, by rw [← hbehind]; rfl⟩
          | cons e u =>
              apply (List.isChain_cons_cons.mp huncommented).1
              exact ⟨rfl, (List.cons.inj hbehind).1.symm⟩

end Uncomment

/-! ### Statements are cut off -/

theorem isSpace_not_quote {c : Char} (h : isSpace c = true) : isQuote c = false ∧ c ≠ ';' := by
  constructor
  · rw [← Bool.not_eq_true]
    intro hquote
    rcases isQuote_iff.mp hquote with rfl | rfl
    · cases h
    · cases h
  · rintro rfl
    cases h

section Split

variable {literal : Option Char} {current s shown : Text} {c : Char}

theorem plsqlStatementsFrom_nil :
  plsqlStatementsFrom literal current [] = if strip current = [] then [] else [strip current]
  := by
  cases literal <;> cases hstrip : strip current <;> simp [plsqlStatementsFrom, hstrip]

theorem statementOf_eq :
  statementOf current
    = if strip ((strip current).rdropWhile (· == ';')) = [] then []
      else [strip ((strip current).rdropWhile (· == ';'))]
  := by
  cases hstrip : strip ((strip current).rdropWhile (· == ';')) <;> simp [statementOf, hstrip]

/-- A doubled quote ends a literal and begins another. -/
theorem plsqlStatementsFrom_cons (hl : ∀ quote, literal = some quote → isQuote quote = true) :
  plsqlStatementsFrom literal current (c :: s)
    = if literal = none ∧ c = ';' then
        statementOf (current ++ [c]) ++ plsqlStatementsFrom none [] s
      else plsqlStatementsFrom (literalAfter everyQuote literal c s) (current ++ [c]) s
  := by
  cases literal with
  | none =>
      rw [plsqlStatementsFrom]
      by_cases hc : c = ';'
      · simp [hc, isQuote]
      · rw [if_neg hc, if_neg (fun h : none = none ∧ c = ';' => hc h.2), literalAfter]
        split <;> rfl
  | some quote =>
      have hafter : ∀ t, literalAfter everyQuote (some quote) c t
          = if c = quote then none else some quote := by
        intro t
        simp only [literalAfter, everyQuote, and_true]
      rw [if_neg (fun h => Option.some_ne_none _ h.1), hafter]
      cases s with
      | nil => rfl
      | cons d s =>
          rw [plsqlStatementsFrom]
          by_cases hdouble : c = quote ∧ d = quote
          · obtain ⟨rfl, rfl⟩ := hdouble
            rw [if_pos ⟨rfl, rfl⟩, if_pos rfl, plsqlStatementsFrom, if_pos (hl d rfl),
              List.append_assoc]
            rfl
          · rw [if_neg hdouble]

/-- What holds no semicolon outside its literals is read as a whole. -/
theorem plsqlStatementsFrom_append (hl : ∀ quote, literal = some quote → isQuote quote = true)
    {u : Text} (hu : outside everyQuote literal u = some shown) (hsemicolon : ';' ∉ shown) :
  plsqlStatementsFrom literal current (u ++ s) = plsqlStatementsFrom none (current ++ u) s
  := by
  induction u generalizing literal current shown with
  | nil =>
      rw [outside] at hu
      split at hu
      · next hnone =>
          rw [Option.isNone_iff_eq_none.mp hnone, List.append_nil]
          rfl
      · cases hu
  | cons c u ih =>
      obtain ⟨t, ht, rfl⟩ := outside_cons.mp hu
      rw [List.mem_cons, not_or] at hsemicolon
      have hrest : plsqlStatementsFrom (literalAfter everyQuote literal c (u ++ s)) (current ++ [c])
          (u ++ s) = plsqlStatementsFrom none (current ++ [c] ++ u) s :=
        ih (isQuote_of_literalAfter hl) ht hsemicolon.2
      rw [List.cons_append, plsqlStatementsFrom_cons hl, if_neg, hrest, List.append_assoc]
      · rfl
      · rintro ⟨rfl, rfl⟩
        exact hsemicolon.1 rfl

theorem plsqlStatementsFrom_semicolon :
  plsqlStatementsFrom none current (';' :: s)
    = statementOf (current ++ [';']) ++ plsqlStatementsFrom none [] s
  := by
  rw [plsqlStatementsFrom_cons (fun _ h => by cases h)]
  exact if_pos ⟨rfl, rfl⟩

/-- Outside literals, white space is what it is. -/
theorem outside_of_forall {u : Text} (hu : ∀ d ∈ u, isQuote d = false) :
  outside everyQuote none (u ++ s) = (outside everyQuote none s).map (u ++ ·)
  := by
  induction u with
  | nil => simp
  | cons c u ih =>
      have hc := hu c List.mem_cons_self
      have hafter : literalAfter everyQuote none c (u ++ s) = none := by rw [literalAfter, hc]; rfl
      have hshown : Lineage.shown none c = c := by rw [Lineage.shown, hc]; rfl
      rw [List.cons_append, outside, hafter, ih (fun d hd => hu d (List.mem_cons_of_mem c hd)),
        Option.map_map, hshown]
      rfl

/-- Literals that are closed are passed over. -/
theorem outside_append {u t : Text} (hu : outside everyQuote literal u = some t) :
  outside everyQuote literal (u ++ s) = (outside everyQuote none s).map (t ++ ·)
  := by
  induction u generalizing literal t with
  | nil =>
      rw [outside] at hu
      split at hu
      · next hnone =>
          rw [Option.isNone_iff_eq_none.mp hnone, ← Option.some.inj hu]
          simp
      · cases hu
  | cons c u ih =>
      obtain ⟨t, ht, rfl⟩ := outside_cons.mp hu
      rw [List.cons_append, outside]
      have hrest : outside everyQuote (literalAfter everyQuote literal c (u ++ s)) (u ++ s)
          = (outside everyQuote none s).map (t ++ ·) := ih ht
      rw [hrest, Option.map_map]
      rfl

end Split

/-! ### What the patterns match -/

section Patterns

variable {a : Alphabet}

theorem end_letters : ∀ c ∈ "end".toList, c.isAlpha = true ∧ c.toLower = c := by decide

theorem begin_letters : ∀ c ∈ "begin".toList, c.isAlpha = true ∧ c.toLower = c := by decide

theorem not_isQuote_of_isAlpha {c : Char} (h : c.isAlpha = true) :
  isQuote c = false
  := by
  rw [← Bool.not_eq_true]
  intro hquote
  rcases isQuote_iff.mp hquote with rfl | rfl
  · cases h
  · cases h

/-- The characters of a keyword are letters. -/
theorem isAlpha_of_startsWith {word s : Text}
    (hword : ∀ c ∈ word, c.isAlpha = true ∧ c.toLower = c)
    (h : Regex.startsWith word s = true) :
  ∀ c ∈ s.take word.length, c.isAlpha = true
  := by
  intro c hc
  have hmem : c.toLower ∈ word.map Char.toLower := by
    rw [← eq_of_beq h]
    exact List.mem_map_of_mem hc
  obtain ⟨d, hd, heq⟩ := List.mem_map.mp hmem
  rw [(hword d hd).2] at heq
  exact isAlpha_of_toLower_mem (fun e he => (hword e he).1) (heq ▸ hd)

/-- What may stand behind the word at the end of a block. -/
def blockTailParts : List Regex :=
  [.star .space, .star (.char blockNameChar), .star .space, .optional (.exactly ';'),
    .star .space, .optional (.exactly '/'), .star .space]

theorem mem_ends_blockTail {p q : Regex.Spot} :
  q ∈ Regex.ends (blockTail a) p
    ↔ KeywordAt a "end".toList p.before p.rest
      ∧ ∃ m ∈ Regex.ends (.seq blockTailParts) (p.advance 3), q ∈ Regex.ends (.seq [.textEnd]) m
  := by
  have hword : Regex.ends (wholeWord a "end") p = _ := ends_wholeWord (by decide) end_letters p
  change q ∈ Regex.ends (.seq ([wordEdge a, .letters "end", wordEdge a]
    ++ (blockTailParts ++ [.textEnd]))) p ↔ _
  rw [Regex.mem_ends_seq_append]
  simp only [Regex.mem_ends_seq_append]
  change (∃ m ∈ Regex.ends (wholeWord a "end") p, _) ↔ _
  rw [hword]
  split
  · next h =>
      constructor
      · rintro ⟨m, hm, h'⟩
        rw [List.mem_singleton.mp hm] at h'
        exact ⟨h, h'⟩
      · rintro ⟨-, h'⟩
        exact ⟨_, List.mem_singleton_self _, h'⟩
  · next h =>
      constructor
      · rintro ⟨m, hm, -⟩
        cases hm
      · rintro ⟨h', -⟩
        exact absurd h' h

theorem readsOnly_blockTailParts :
  Regex.ReadsOnly (fun c => isQuote c = false) (.seq blockTailParts)
  := by
  have hspace : Regex.ReadsOnly (fun c => isQuote c = false) (.star .space) :=
    Regex.readsOnly_star_char (fun c hc => (isSpace_not_quote hc).1)
  have hexactly : ∀ d, isQuote d = false →
      Regex.ReadsOnly (fun c => isQuote c = false) (.optional (.exactly d)) := by
    intro d hd
    apply Regex.ReadsOnly.optional
    apply Regex.readsOnly_char
    intro c hc
    rw [eq_of_beq hc]
    apply hd
  have hname : Regex.ReadsOnly (fun c => isQuote c = false) (.star (.char blockNameChar)) := by
    apply Regex.readsOnly_star_char
    intro c hc
    rw [← Bool.not_eq_true]
    intro hquote
    rcases isQuote_iff.mp hquote with rfl | rfl
    · revert hc
      decide
    · revert hc
      decide
  apply Regex.readsOnly_seq
  intro r hr
  simp only [blockTailParts, List.mem_cons, List.not_mem_nil, or_false] at hr
  rcases hr with rfl | rfl | rfl | rfl | rfl | rfl | rfl
  · apply hspace
  · apply hname
  · apply hspace
  · apply hexactly ';' rfl
  · apply hspace
  · apply hexactly '/' rfl
  · apply hspace

/-- The end of a block begins with `END` and holds no literal. -/
theorem of_mem_ends_blockTail {p q : Regex.Spot} (h : q ∈ Regex.ends (blockTail a) p) :
  KeywordAt a "end".toList p.before p.rest ∧ ∀ c ∈ p.rest, isQuote c = false
  := by
  obtain ⟨hkeyword, m, hm, hq⟩ := mem_ends_blockTail.mp h
  use hkeyword
  obtain ⟨u, hread, hu⟩ := readsOnly_blockTailParts _ _ hm
  have hend : ∀ c ∈ m.rest, isQuote c = false := by
    obtain ⟨m', hm', -⟩ := Regex.mem_ends_seq_cons hq
    rw [Regex.ends_textEnd] at hm'
    split at hm'
    · next hrest =>
        rcases hrest with hrest | hrest
        · simp [hrest]
        · rw [hrest]
          decide
    · cases hm'
  rw [← List.take_append_drop 3 p.rest, show p.rest.drop 3 = u ++ m.rest from hread.rest]
  intro c hc
  rcases List.mem_append.mp hc with hc | hc
  · exact not_isQuote_of_isAlpha (isAlpha_of_startsWith end_letters hkeyword.2.1 c hc)
  rcases List.mem_append.mp hc with hc | hc
  · exact hu c hc
  · exact hend c hc

/-- A block ends with `END` and a semicolon. -/
theorem isSome_tryAt_blockTail {p : Regex.Spot} {word : Text}
    (hword : word.map Char.toLower = "end".toList) (hp : p.rest = word ++ [';'])
    (hbefore : Regex.wordAt a.isWord p.before = false) :
  (Regex.tryAt (blockTail a) p).isSome = true
  := by
  have hlength : word.length = 3 := by
    have h := congrArg List.length hword
    rwa [List.length_map] at h
  have hkeyword : KeywordAt a "end".toList p.before p.rest := by
    refine ⟨hbefore, ?_, ?_⟩
    · have htake : p.rest.take "end".toList.length = word := by
        rw [hp, show "end".toList.length = word.length from hlength.symm, List.take_left]
      rw [Regex.startsWith, htake, hword]
      rfl
    · rw [hp, show "end".toList.length = word.length from hlength.symm, List.drop_left]
      exact a.not_isWord_of_ascii (by decide) (by decide)
  have hrest : (p.advance 3).rest = [';'] := by
    rw [← hlength]
    exact Regex.Spot.rest_advance hp
  have hnone : ∀ f : Char → Bool, Regex.Reads (.star (.char f)) [] :=
    fun f => Regex.reads_star_char (by simp)
  have hreads : Regex.Reads (.seq blockTailParts) [';'] := by
    apply (hnone isSpace).cat
    apply (hnone blockNameChar).cat
    apply (hnone isSpace).cat
    apply Regex.Reads.cat (u := [';']) (Regex.reads_exactly ';').optional
    apply (hnone isSpace).cat
    apply (Regex.reads_optional_nil (.exactly '/')).cat
    apply (hnone isSpace).cat Regex.reads_empty
  have hmem := hreads (p.advance 3) [] (by rw [hrest, List.append_nil])
  have hend : ((p.advance 3).advance 1).rest = [] := by
    rw [Regex.Spot.advance, hrest]
    rfl
  have htail : (p.advance 3).advance 1 ∈ Regex.ends (.seq [.textEnd]) ((p.advance 3).advance 1) := by
    apply List.mem_flatMap.mpr
    refine ⟨_, ?_, List.mem_singleton_self _⟩
    rw [Regex.ends_textEnd, if_pos (.inl hend)]
    apply List.mem_singleton_self
  apply Regex.isSome_tryAt_of_mem (mem_ends_blockTail.mpr ⟨hkeyword, _, hmem, htail⟩)

theorem dmlKeywords_letters :
  ∀ word ∈ dmlKeywords, word.toList ≠ [] ∧ ∀ c ∈ word.toList, c.isAlpha = true ∧ c.toLower = c
  := by decide

/-- A statement that begins with a keyword is recognised. -/
theorem isSome_tryAt_dmlStart {s : Text} (h : ∃ word ∈ dmlKeywords, KeywordAt a word.toList none s) :
  (Regex.tryAt (dmlStart a) (Regex.Spot.at s 0)).isSome = true
  := by
  obtain ⟨word, hmem, hkeyword⟩ := h
  obtain ⟨hne, hletters⟩ := dmlKeywords_letters word hmem
  let p := Regex.Spot.at s 0
  let q := p.advance word.toList.length
  let q' : Regex.Spot :=
    { q with groups := (1, p.rest.take (q.passed - p.passed)) :: q.groups }
  have hstart : p ∈ Regex.ends .textStart p := List.mem_singleton_self p
  have hspace : p ∈ Regex.ends (.star .space) p := by
    have hmem := Regex.reads_star_char (f := isSpace) (u := []) (by simp) p s rfl
    rwa [List.length_nil, Regex.Spot.advance_zero] at hmem
  have hword : q ∈ Regex.ends (.letters word) p := by
    rw [Regex.letters, Regex.ends_letters,
      if_pos (show Regex.startsWith word.toList p.rest = true from hkeyword.2.1)]
    apply List.mem_singleton_self
  have hgroup : q' ∈ Regex.ends (.group 1 (.oneOf (dmlKeywords.map .letters))) p := by
    apply List.mem_map.mpr
    exact ⟨q, Regex.mem_ends_oneOf (List.mem_map_of_mem hmem) hword, rfl⟩
  have hedge : q' ∈ Regex.ends (wordEdge a) q' := by
    have hlast : Regex.wordAt a.isWord q'.before = true := by
      have hbefore : q'.before = (s.take word.toList.length).getLast? :=
        if_neg (fun hzero => hne (List.eq_nil_of_length_eq_zero hzero))
      have htake : s.take word.toList.length ≠ [] := by
        intro hnil
        have hle := length_le_of_startsWith hkeyword.2.1
        rcases List.take_eq_nil_iff.mp hnil with hzero | hs
        · exact hne (List.eq_nil_of_length_eq_zero hzero)
        · rw [hs] at hle
          exact hne (List.eq_nil_of_length_eq_zero (Nat.le_zero.mp hle))
      rw [hbefore, List.getLast?_eq_some_getLast htake]
      apply a.isWord_of_isAlpha
      exact isAlpha_of_startsWith hletters hkeyword.2.1 _ (List.getLast_mem htake)
    have hhead : Regex.wordAt a.isWord q'.rest.head? = false := hkeyword.2.2
    rw [wordEdge, Regex.ends_boundary, hlast, hhead, if_neg Bool.false_ne_true.symm]
    apply List.mem_singleton_self
  apply Regex.isSome_tryAt_of_mem (q := q')
  apply List.mem_flatMap.mpr ⟨p, hstart, _⟩
  apply List.mem_flatMap.mpr ⟨p, hspace, _⟩
  apply List.mem_flatMap.mpr ⟨q', hgroup, _⟩
  apply List.mem_flatMap.mpr ⟨q', hedge, List.mem_singleton_self q'⟩

end Patterns

end Lineage

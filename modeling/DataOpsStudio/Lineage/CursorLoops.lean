import DataOpsStudio.Lineage.CursorHeads

/-!
# Loops over cursors

A loop over a cursor is stripped of its head, and the tables of its query are found, exactly when
the query is read to its end.
-/

namespace Lineage

open Text Sql

variable {a : Alphabet}

/-! ### Loops -/

/-- A loop over a cursor, with the white space between its parts. -/
structure CursorLoop (a : Alphabet) where
  forWord : Text
  afterFor : Text
  name : Text
  afterName : Text
  inWord : Text
  afterIn : Text
  select : Text
  afterSelect : Text
  loopWord : Text
  rest : Text
  forWord_eq : lowerWord forWord = "for".toList
  inWord_eq : lowerWord inWord = "in".toList
  loopWord_eq : lowerWord loopWord = "loop".toList
  afterFor_ne : afterFor ≠ []
  afterName_ne : afterName ≠ []
  name_ne : name ≠ []
  isSpace_afterFor : ∀ c ∈ afterFor, isSpace c = true
  isSpace_afterName : ∀ c ∈ afterName, isSpace c = true
  isSpace_afterIn : ∀ c ∈ afterIn, isSpace c = true
  isSpace_afterSelect : ∀ c ∈ afterSelect, isSpace c = true
  name_chars : ∀ c ∈ name, (a.isWord c || "$#".toList.contains c) = true
  rest_head : Regex.wordAt a.isWord rest.head? = false

namespace CursorLoop

/-- What stands in front of the query, without its parenthesis. -/
def front (loop : CursorLoop a) : Text :=
  loop.forWord ++ loop.afterFor ++ loop.name ++ loop.afterName ++ loop.inWord ++ loop.afterIn

/-- What stands behind the query and its parenthesis. -/
def behind (loop : CursorLoop a) : Text := loop.afterSelect ++ (loop.loopWord ++ loop.rest)

/-- The text of a loop. -/
def text (loop : CursorLoop a) : Text :=
  loop.front ++ '(' :: (loop.select ++ ')' :: loop.behind)

/-- What follows the head of the loop is given back, with the tables of its query. -/
def Strips (loop : CursorLoop a) : Prop :=
  stripCursorForPrefixWithSources a loop.text
    = (lstrip loop.rest, extractCursorSelectTables a loop.select)

end CursorLoop

/-- A keyword stands in a text as a word. -/
def HasKeyword (a : Alphabet) (word s : Text) : Prop :=
  ∃ u v, s = u ++ v ∧ KeywordAt a word u.getLast? v

/-- The keyword is not in the name of the loop, and a query is read to its end when a literal ends
with the first quote that no other quote follows: its literals are closed, and either its
parentheses are balanced or it names no tables and no keyword stands outside its parentheses. -/
structure CursorLoop.IsRead (loop : CursorLoop a) : Prop where
  name : ¬HasKeyword a "loop".toList loop.name
  select : ∃ t, outside lastQuote none loop.select = some t ∧ parens t = 0
    ∧ ((∀ u v, t = u ++ v → 0 ≤ parens u)
      ∨ extractCursorSelectTables a loop.select = []
        ∧ ∀ u v, t = u ++ v → parens u = -1 → ¬KeywordAt a "loop".toList u.getLast? v)

/-! ### The parts of a loop -/

namespace CursorLoop

variable {loop : CursorLoop a}

theorem toLower_mem {word : Text} {w : String} (h : lowerWord word = w.toList) :
  ∀ c ∈ word, c.toLower ∈ w.toList
  := by
  intro c hc
  rw [← h]
  exact List.mem_map_of_mem hc

/-- Characters whose lower case is none of these are no parts of a keyword. -/
theorem plain_of_toLower_mem {word : Text} {w : String} (h : lowerWord word = w.toList)
    (hw : ∀ c ∈ w.toList, c.isAlpha = true) :
  ∀ c ∈ word, isQuote c = false ∧ c ≠ '(' ∧ c ≠ ')'
  := by
  intro c hc
  have halpha := isAlpha_of_toLower_mem hw (toLower_mem h c hc)
  refine ⟨?_, ?_, ?_⟩
  · cases hquote : isQuote c with
    | false => rfl
    | true => rcases isQuote_iff.mp hquote with rfl | rfl <;> cases halpha
  · rintro rfl
    cases halpha
  · rintro rfl
    cases halpha

theorem plain_of_isSpace {u : Text} (hu : ∀ c ∈ u, isSpace c = true) :
  (∀ c ∈ u, isQuote c = false ∧ c ≠ '(' ∧ c ≠ ')') ∧ ∀ c ∈ u, c.toLower ≠ 'l'
  := by
  constructor
  · intro c hc
    have hspace := hu c hc
    refine ⟨?_, ?_, ?_⟩
    · cases hquote : isQuote c with
      | false => rfl
      | true => rcases isQuote_iff.mp hquote with rfl | rfl <;> cases hspace
    · rintro rfl
      cases hspace
    · rintro rfl
      cases hspace
  · intro c hc hlower
    have halpha : c.isAlpha = true := isAlpha_of_toLower (by rw [hlower]; rfl)
    have hspace : asciiAlphabet.isWord c = false := asciiAlphabet.not_isWord_of_isSpace (hu c hc)
    rw [asciiAlphabet.isWord_of_isAlpha halpha] at hspace
    cases hspace

/-- White space, or else the end of a text, in front of a spot. -/
theorem wordAt_lastOr {before : Option Char} {u : Text}
    (hbefore : Regex.wordAt a.isWord before = false) :
  Regex.wordAt a.isWord (Regex.lastOr before u) = Regex.wordAt a.isWord u.getLast?
  := by
  rw [Regex.lastOr]
  cases u.getLast? with
  | none => rwa [Option.none_or]
  | some c => rfl

theorem wordAt_lastOr_of_isSpace {before : Option Char} {u : Text}
    (hbefore : Regex.wordAt a.isWord before = false) (hu : ∀ c ∈ u, isSpace c = true) :
  Regex.wordAt a.isWord (Regex.lastOr before u) = false
  := by
  rw [wordAt_lastOr hbefore]
  cases hlast : u.getLast? with
  | none => rfl
  | some c => exact a.not_isWord_of_isSpace (hu c (List.mem_of_getLast? hlast))

theorem keywordAt_lastOr {word : Text} {before : Option Char} {u v : Text}
    (hbefore : Regex.wordAt a.isWord before = false) :
  KeywordAt a word (Regex.lastOr before u) v ↔ KeywordAt a word u.getLast? v
  := by
  rw [KeywordAt, KeywordAt, wordAt_lastOr hbefore]

theorem plain_of_name_chars (loop : CursorLoop a) :
  ∀ c ∈ loop.name, isQuote c = false ∧ c ≠ '(' ∧ c ≠ ')'
  := by
  have hnot : ∀ c : Char, a.isWord c = false → "$#".toList.contains c = false → c ∉ loop.name := by
    intro c hword hsign hc
    have h := loop.name_chars c hc
    rw [hword, hsign] at h
    cases h
  intro c hc
  refine ⟨?_, ?_, ?_⟩
  · cases hquote : isQuote c with
    | false => rfl
    | true =>
        apply absurd hc
        apply hnot c (a.not_isWord_of_isQuote hquote)
        rcases isQuote_iff.mp hquote with rfl | rfl <;> rfl
  · rintro rfl
    exact hnot '(' (a.not_isWord_of_ascii (by decide) (by decide)) rfl hc
  · rintro rfl
    exact hnot ')' (a.not_isWord_of_ascii (by decide) (by decide)) rfl hc

/-- The parts in front of the name. -/
theorem readCursorHead_for (loop : CursorLoop a) {pos : ℕ} {head : CursorHead} {s : Text} :
  readCursorHead a 0 none pos head (loop.forWord ++ loop.afterFor ++ s)
    = readCursorHead a 0 (Regex.lastOr none (loop.forWord ++ loop.afterFor))
      (pos + (loop.forWord ++ loop.afterFor).length) head s
  := by
  apply readCursorHead_plain
  · intro c hc
    rcases List.mem_append.mp hc with hc | hc
    · exact plain_of_toLower_mem loop.forWord_eq (by decide) c hc
    · exact (plain_of_isSpace loop.isSpace_afterFor).1 c hc
  · right
    intro c hc
    rcases List.mem_append.mp hc with hc | hc
    · intro hlower
      have hmem := toLower_mem loop.forWord_eq c hc
      rw [hlower] at hmem
      exact absurd hmem (by decide)
    · exact (plain_of_isSpace loop.isSpace_afterFor).2 c hc

/-- The parts behind the name. -/
theorem readCursorHead_in (loop : CursorLoop a) {before : Option Char} {pos : ℕ} {head : CursorHead}
    {s : Text} :
  readCursorHead a 0 before pos head (loop.afterName ++ loop.inWord ++ loop.afterIn ++ s)
    = readCursorHead a 0 (Regex.lastOr before (loop.afterName ++ loop.inWord ++ loop.afterIn))
      (pos + (loop.afterName ++ loop.inWord ++ loop.afterIn).length) head s
  := by
  apply readCursorHead_plain
  · intro c hc
    rw [List.mem_append, List.mem_append] at hc
    rcases hc with (hc | hc) | hc
    · exact (plain_of_isSpace loop.isSpace_afterName).1 c hc
    · exact plain_of_toLower_mem loop.inWord_eq (by decide) c hc
    · exact (plain_of_isSpace loop.isSpace_afterIn).1 c hc
  · right
    intro c hc
    rw [List.mem_append, List.mem_append] at hc
    rcases hc with (hc | hc) | hc
    · exact (plain_of_isSpace loop.isSpace_afterName).2 c hc
    · intro hlower
      have hmem := toLower_mem loop.inWord_eq c hc
      rw [hlower] at hmem
      exact absurd hmem (by decide)
    · exact (plain_of_isSpace loop.isSpace_afterIn).2 c hc

theorem wordAt_for (loop : CursorLoop a) :
  Regex.wordAt a.isWord (Regex.lastOr none (loop.forWord ++ loop.afterFor)) = false
  := by
  rw [Regex.lastOr, List.getLast?_append_of_ne_nil _ loop.afterFor_ne,
    List.getLast?_eq_some_getLast loop.afterFor_ne]
  exact a.not_isWord_of_isSpace (loop.isSpace_afterFor _ (List.getLast_mem loop.afterFor_ne))

theorem front_append (loop : CursorLoop a) (s : Text) :
  loop.front ++ s = loop.forWord ++ loop.afterFor
    ++ (loop.name ++ (loop.afterName ++ loop.inWord ++ loop.afterIn ++ s))
  := by
  rw [front]
  simp only [List.append_assoc]

theorem parens_of_plain {u : Text} (hu : ∀ c ∈ u, c ≠ '(' ∧ c ≠ ')') :
  parens u = 0
  := by
  induction u with
  | nil => rfl
  | cons c u ih =>
      obtain ⟨hopen, hclose⟩ := hu c List.mem_cons_self
      rw [parens, if_neg hopen, if_neg hclose, ih (fun d hd => hu d (List.mem_cons_of_mem c hd))]
      rfl

theorem outside_of_plain {ends : Char → Text → Bool} {u : Text} (hu : ∀ c ∈ u, isQuote c = false) :
  outside ends none u = some u
  := by
  induction u with
  | nil => rfl
  | cons c u ih =>
      have hc := hu c List.mem_cons_self
      have hafter : literalAfter ends none c u = none := by rw [literalAfter, hc]; rfl
      have hshown : shown none c = c := by rw [shown, hc]; rfl
      rw [outside, hafter, hshown, ih (fun d hd => hu d (List.mem_cons_of_mem c hd))]
      rfl

/-- The white space behind the name ends it. -/
theorem exists_afterName (loop : CursorLoop a) (s : Text) :
  ∃ d tail, loop.afterName ++ loop.inWord ++ loop.afterIn ++ s = d :: tail ∧ isQuote d = false
    ∧ a.isWord d = false
  := by
  obtain ⟨d, gap, hgap⟩ := List.exists_cons_of_ne_nil loop.afterName_ne
  have hmem : d ∈ loop.afterName := by
    rw [hgap]
    exact List.mem_cons_self
  refine ⟨d, gap ++ loop.inWord ++ loop.afterIn ++ s, by rw [hgap]; rfl, ?_, ?_⟩
  · exact ((plain_of_isSpace loop.isSpace_afterName).1 d hmem).1
  · exact a.not_isWord_of_isSpace (loop.isSpace_afterName d hmem)

section Name

variable {before : Option Char} {pos : ℕ} {s : Text}

theorem readCursorHead_name (hbefore : Regex.wordAt a.isWord before = false)
    (h : ¬HasKeyword a "loop".toList loop.name) :
  readCursorHead a 0 before pos {}
      (loop.name ++ (loop.afterName ++ loop.inWord ++ loop.afterIn ++ s))
    = readCursorHead a 0 (Regex.lastOr before loop.name) (pos + loop.name.length) {}
      (loop.afterName ++ loop.inWord ++ loop.afterIn ++ s)
  := by
  obtain ⟨d, tail, htail, hquote, hd⟩ := loop.exists_afterName s
  have hplain := loop.plain_of_name_chars
  rw [htail]
  have hpass := @readCursorHead_pass a d tail loop.name loop.name none before before pos {} hquote
    hd (by rintro quote ⟨⟩) (fun _ => rfl) (outside_of_plain (fun c hc => (hplain c hc).1))
    (fun u v hsplit _ hkeyword => h ⟨u, v, hsplit, (keywordAt_lastOr hbefore).mp hkeyword⟩)
  rwa [readAll_plain (fun c hc => (hplain c hc).2)] at hpass

theorem exists_readCursorHead_name (hbefore : Regex.wordAt a.isWord before = false)
    (h : HasKeyword a "loop".toList loop.name) :
  ∃ head y, readCursorHead a 0 before pos {}
      (loop.name ++ (loop.afterName ++ loop.inWord ++ loop.afterIn ++ s))
    = some (head, y ++ (loop.afterName ++ loop.inWord ++ loop.afterIn ++ s))
  := by
  obtain ⟨d, tail, htail, hquote, hd⟩ := loop.exists_afterName s
  have hplain := loop.plain_of_name_chars
  obtain ⟨u, v, hsplit, hkeyword⟩ := h
  have hu : ∀ c ∈ u, c ≠ '(' ∧ c ≠ ')' := by
    intro c hc
    apply And.right
    apply hplain c
    rw [hsplit]
    exact List.mem_append_left v hc
  rw [htail]
  exact @readCursorHead_stop a d tail loop.name loop.name none before before pos {} hquote hd
    (by rintro quote ⟨⟩) (fun _ => rfl) (outside_of_plain (fun c hc => (hplain c hc).1))
    ⟨u, v, hsplit, by rw [parens_of_plain hu]; rfl, (keywordAt_lastOr hbefore).mpr hkeyword⟩

end Name

theorem readCursorHead_paren {before : Option Char} {pos : ℕ} {head : CursorHead} {c : Char}
    {s : Text} (hc : c = '(' ∨ c = ')') :
  readCursorHead a 0 before pos head (c :: s)
    = readCursorHead a 0 (some c) (pos + 1) (head.read pos c) s
  := by
  have hquote : isQuote c = false := by rcases hc with rfl | rfl <;> rfl
  rw [readCursorHead_cons hquote, if_neg]
  rintro ⟨-, hkeyword⟩
  have hlower := toLower_of_keywordAt hkeyword
  rcases hc with rfl | rfl <;> exact absurd hlower (by decide)

/-- What has been read of a loop up to its query. -/
def headOpen (loop : CursorLoop a) : CursorHead where
  depth := 1
  selectStart := some (loop.front.length + 1)
  selectEnd := none

/-- Without the keyword in the name, the head of a loop is read up to its query. -/
theorem readCursorHead_front (h : ¬HasKeyword a "loop".toList loop.name) (s : Text) :
  readCursorHead a 0 none 0 {} (loop.front ++ '(' :: s)
    = readCursorHead a 0 (some '(') (loop.front.length + 1) loop.headOpen s
  := by
  rw [front_append, readCursorHead_for, readCursorHead_name loop.wordAt_for h, readCursorHead_in,
    readCursorHead_paren (.inl rfl)]
  have hpos : 0 + (loop.forWord ++ loop.afterFor).length + loop.name.length
      + (loop.afterName ++ loop.inWord ++ loop.afterIn).length = loop.front.length := by
    rw [front]
    simp only [List.length_append]
    omega
  rw [hpos]
  rfl

/-- With the keyword in the name, reading stops in front of the query. -/
theorem exists_readCursorHead_front (h : HasKeyword a "loop".toList loop.name) (s : Text) :
  ∃ head y, readCursorHead a 0 none 0 {} (loop.front ++ s) = some (head, y ++ s)
  := by
  rw [front_append, readCursorHead_for]
  obtain ⟨head, y, hy⟩ := exists_readCursorHead_name loop.wordAt_for h
  refine ⟨head, y ++ (loop.afterName ++ loop.inWord ++ loop.afterIn), ?_⟩
  rw [hy, ← List.append_assoc y]

/-- Behind the query the keyword is read outside parentheses, and what follows is left. -/
theorem readCursorHead_behind (loop : CursorLoop a) {before : Option Char} {pos : ℕ}
    {head : CursorHead} (hbefore : Regex.wordAt a.isWord before = false) (hdepth : head.depth = 0) :
  readCursorHead a 0 before pos head loop.behind = some (head, loop.rest)
  := by
  obtain ⟨hplain, hlower⟩ := plain_of_isSpace loop.isSpace_afterSelect
  rw [behind, readCursorHead_plain hplain (.inr hlower)]
  have hword := wordAt_lastOr_of_isSpace hbefore loop.isSpace_afterSelect
  have hlength : loop.loopWord.length = 4 := by
    have h := congrArg List.length loop.loopWord_eq
    rwa [lowerWord, List.length_map] at h
  obtain ⟨c, w, hw⟩ := List.exists_cons_of_length_pos (by rw [hlength]; exact Nat.succ_pos 3)
  have hquote : isQuote c = false :=
    (plain_of_toLower_mem loop.loopWord_eq (by decide) c (by rw [hw]; exact List.mem_cons_self)).1
  have hdrop : (c :: (w ++ loop.rest)).drop 4 = loop.rest := by
    rw [← List.cons_append, ← hw, ← hlength, List.drop_left]
  rw [hw, List.cons_append, readCursorHead_cons hquote, if_pos, hdrop]
  refine ⟨hdepth, hword, ?_, ?_⟩
  · rw [← List.cons_append, ← hw, Regex.startsWith, show "loop".toList.length = 4 from rfl,
      ← hlength, List.take_left, beq_iff_eq]
    exact loop.loopWord_eq
  · rw [show "loop".toList.length = 4 from rfl, hdrop]
    exact loop.rest_head

/-- No quote stands between the query and what follows the keyword. -/
theorem not_mem_behind (loop : CursorLoop a) {quote : Char} (hquote : isQuote quote = true) :
  quote ∉ ')' :: (loop.afterSelect ++ loop.loopWord)
  := by
  intro hmem
  have hplain : isQuote quote = false := by
    rcases List.mem_cons.mp hmem with rfl | hmem
    · rfl
    · rcases List.mem_append.mp hmem with hmem | hmem
      · exact ((plain_of_isSpace loop.isSpace_afterSelect).1 quote hmem).1
      · exact (plain_of_toLower_mem loop.loopWord_eq (by decide) quote hmem).1
  rw [hplain] at hquote
  cases hquote

/-- Inside parentheses the keyword is passed over. -/
theorem readCursorHead_behind_inside (loop : CursorLoop a) {before : Option Char} {pos : ℕ}
    {head : CursorHead} (hdepth : head.depth ≠ 0) :
  ∃ before' pos',
    readCursorHead a 0 before pos head loop.behind = readCursorHead a 0 before' pos' head loop.rest
  := by
  rw [behind, ← List.append_assoc, readCursorHead_plain _ (.inl hdepth)]
  · exact ⟨_, _, rfl⟩
  · intro c hc
    rcases List.mem_append.mp hc with hc | hc
    · exact (plain_of_isSpace loop.isSpace_afterSelect).1 c hc
    · exact plain_of_toLower_mem loop.loopWord_eq (by decide) c hc

/-! ### What is left of a loop -/

theorem not_isSpace_of_toLower {c : Char} (h : c.toLower = 'l') : isSpace c = false := by
  cases hspace : isSpace c with
  | false => rfl
  | true =>
      have hc : ∀ d ∈ [c], isSpace d = true := by
        intro d hd
        rwa [List.mem_singleton.mp hd]
      exact absurd h ((plain_of_isSpace hc).2 c List.mem_cons_self)

theorem length_lstrip_le {s : Text} : (lstrip s).length ≤ s.length := by
  rw [lstrip]
  exact (List.dropWhile_suffix _).length_le

/-- A text with the keyword in front of it is longer, even without white space in front. -/
theorem length_lt_lstrip {x v s : Text} (hv : Regex.startsWith "loop".toList v = true) :
  s.length < (lstrip (x ++ (v ++ s))).length
  := by
  cases v with
  | nil => cases hv
  | cons c v =>
      rw [show "loop".toList = 'l' :: "oop".toList from rfl, startsWith_cons, Bool.and_eq_true,
        beq_iff_eq] at hv
      have hspace : isSpace c = false := not_isSpace_of_toLower hv.1
      have hstrip : (c :: v ++ s).dropWhile isSpace = c :: v ++ s := by
        rw [List.cons_append, List.dropWhile_cons, hspace]
        rfl
      rw [lstrip, List.dropWhile_append, hstrip]
      split <;> simp only [List.length_append, List.length_cons] <;> omega

theorem lstrip_ne {x v s : Text} (hv : Regex.startsWith "loop".toList v = true) :
  lstrip (x ++ (v ++ s)) ≠ lstrip s
  := by
  intro h
  have hlt : s.length < (lstrip (x ++ (v ++ s))).length := length_lt_lstrip hv
  have hle : (lstrip s).length ≤ s.length := length_lstrip_le
  rw [h] at hlt
  omega

theorem startsWith_loopWord (loop : CursorLoop a) :
  Regex.startsWith "loop".toList loop.loopWord = true
  := by
  have hlength : loop.loopWord.length = "loop".toList.length := by
    have h := congrArg List.length loop.loopWord_eq
    rwa [lowerWord, List.length_map] at h
  rw [Regex.startsWith, ← hlength, List.take_length, beq_iff_eq]
  exact loop.loopWord_eq

/-- The word `IN` ends where the query begins. -/
theorem ends_wordEdge_in (loop : CursorLoop a) {p : Regex.Spot} {s : Text}
    (hbefore : p.before = loop.inWord.getLast?) (hrest : p.rest = loop.afterIn ++ '(' :: s) :
  Regex.ends (.cat (wordEdge a) .empty) p ≠ []
  := by
  have hne : loop.inWord ≠ [] := by
    intro hnil
    have h := loop.inWord_eq
    rw [hnil] at h
    cases h
  have hword : Regex.wordAt a.isWord p.before = true := by
    rw [hbefore, List.getLast?_eq_some_getLast hne]
    apply a.isWord_of_isAlpha
    exact isAlpha_of_toLower_mem (by decide)
      (toLower_mem loop.inWord_eq _ (List.getLast_mem hne))
  have hafter : Regex.wordAt a.isWord p.rest.head? = false := by
    rw [hrest]
    cases hgap : loop.afterIn with
    | nil => exact a.not_isWord_of_ascii (by decide) (by decide)
    | cons c gap =>
        apply a.not_isWord_of_isSpace (c := c)
        apply loop.isSpace_afterIn
        rw [hgap]
        exact List.mem_cons_self
  rw [Regex.ends_cat_empty, wordEdge, Regex.ends_boundary, hword, hafter,
    if_neg Bool.false_ne_true.symm]
  exact List.cons_ne_nil _ _

theorem ends_cursorForLoopHead (loop : CursorLoop a) :
  Regex.ends (cursorForLoopHead a) (Regex.Spot.at loop.text 0) ≠ []
  := by
  have hstart : Regex.ends .textStart (Regex.Spot.at loop.text 0)
      = [Regex.Spot.at loop.text 0] := rfl
  rw [cursorForLoopHead, Regex.seq, List.foldr, Regex.ends_cat, hstart, List.flatMap_singleton]
  have h0 : (Regex.Spot.at loop.text 0).rest = [] ++ (loop.forWord ++ (loop.afterFor ++ (loop.name
      ++ (loop.afterName ++ (loop.inWord ++ (loop.afterIn
        ++ '(' :: (loop.select ++ ')' :: loop.behind))))))) := by
    change loop.text = _
    rw [text, front]
    simp only [List.append_assoc, List.nil_append]
  have h1 := Regex.Spot.rest_advance h0
  have h2 := Regex.Spot.rest_advance h1
  have h3 := Regex.Spot.rest_advance h2
  have h4 := Regex.Spot.rest_advance h3
  have h5 := Regex.Spot.rest_advance h4
  have h6 := Regex.Spot.rest_advance h5
  have hin : loop.inWord ≠ [] := by
    intro hnil
    have h := loop.inWord_eq
    rw [hnil] at h
    cases h
  apply Regex.ends_cat_ne_nil (Regex.reads_star_char (by rintro c ⟨⟩)) h0
  change Regex.ends (.cat (cursorFor a) .empty) _ ≠ []
  rw [Regex.ends_cat_empty]
  apply Regex.ends_cat_ne_nil (Regex.reads_letters (w := "for") loop.forWord_eq) h1
  apply Regex.ends_cat_ne_nil (Regex.reads_plus_char loop.afterFor_ne loop.isSpace_afterFor) h2
  apply Regex.ends_cat_ne_nil (Regex.reads_plus_char loop.name_ne loop.name_chars) h3
  apply Regex.ends_cat_ne_nil (Regex.reads_plus_char loop.afterName_ne loop.isSpace_afterName) h4
  apply Regex.ends_cat_ne_nil (Regex.reads_letters (w := "in") loop.inWord_eq) h5
  exact loop.ends_wordEdge_in (Regex.Spot.before_advance hin h5) h6

/-- The head of a loop is recognised. -/
theorem isSome_cursorForLoopHead (loop : CursorLoop a) :
  (Regex.tryAt (cursorForLoopHead a) (Regex.Spot.at loop.text 0)).isNone = false
  := by
  have hends := loop.ends_cursorForLoopHead
  rw [Regex.tryAt]
  cases hspots : Regex.ends (cursorForLoopHead a) (Regex.Spot.at loop.text 0) with
  | nil => exact absurd hspots hends
  | cons q spots => rfl

theorem strip_text (loop : CursorLoop a) :
  stripCursorForPrefixWithSources a loop.text
    = match readCursorHead a 0 none 0 {} loop.text with
      | none => (loop.text, [])
      | some (head, after) =>
          (lstrip after, ((head.select? loop.text).map (extractCursorSelectTables a)).getD [])
  := by
  rw [stripCursorForPrefixWithSources, loop.isSome_cursorForLoopHead]
  rfl

/-- When the head is stripped, what follows its keyword is left. -/
theorem Strips.exists_read (h : loop.Strips) :
  ∃ head after, readCursorHead a 0 none 0 {} loop.text = some (head, after)
    ∧ lstrip after = lstrip loop.rest
    ∧ ((head.select? loop.text).map (extractCursorSelectTables a)).getD []
      = extractCursorSelectTables a loop.select
  := by
  rw [Strips, strip_text] at h
  cases hread : readCursorHead a 0 none 0 {} loop.text with
  | none =>
      rw [hread] at h
      have htext : loop.text = lstrip loop.rest := congrArg Prod.fst h
      have hlength := congrArg List.length htext
      have hle : (lstrip loop.rest).length ≤ loop.rest.length := length_lstrip_le
      rw [text, behind] at hlength
      simp only [List.length_append, List.length_cons] at hlength
      omega
  | some found =>
      rw [hread] at h
      exact ⟨found.1, found.2, rfl, congrArg Prod.fst h, congrArg Prod.snd h⟩

/-- Reading does not stop in front of the query's parenthesis or behind it. -/
theorem not_lstrip_behind (loop : CursorLoop a) {y : Text} :
  lstrip (y ++ ')' :: loop.behind) ≠ lstrip loop.rest
  := by
  have hsplit : y ++ ')' :: loop.behind
      = (y ++ ')' :: loop.afterSelect) ++ (loop.loopWord ++ loop.rest) := by
    rw [behind, List.append_assoc, List.cons_append]
  rw [hsplit]
  exact lstrip_ne loop.startsWith_loopWord

/-- The tables of the query as it has been read. -/
theorem select?_read (loop : CursorLoop a) {head : CursorHead}
    (hstart : head.selectStart = some (loop.front.length + 1))
    (hend : head.selectEnd = some (loop.front.length + 1 + loop.select.length)) :
  ((head.select? loop.text).map (extractCursorSelectTables a)).getD []
    = extractCursorSelectTables a loop.select
  := by
  have hnone : extractCursorSelectTables a [] = [] := rfl
  rw [CursorHead.select?, hstart, hend]
  dsimp only
  cases hselect : loop.select with
  | nil =>
      rw [if_neg (by rw [List.length_nil]; omega), hnone]
      rfl
  | cons c select =>
      have htext : loop.text = (loop.front ++ ['(']) ++ (c :: select ++ ')' :: loop.behind) := by
        rw [text, hselect, List.append_assoc]
        rfl
      have hlength : (loop.front ++ ['(']).length = loop.front.length + 1 := List.length_append
      rw [if_pos (by rw [List.length_cons]; omega), htext, ← hlength, List.take_length_add_append,
        List.take_left, List.drop_left]
      rfl

/-- What has been read of a loop when its query has been read to the end. -/
def headRead (loop : CursorLoop a) (t : Text) : CursorHead :=
  (loop.headOpen.readAll (loop.front.length + 1) t).read
    (loop.front.length + 1 + loop.select.length) ')'

theorem depth_headRead {t : Text} : (loop.headRead t).depth = parens t := by
  rw [headRead, depth_read, depth_readAll]
  have hclose : parens [')'] = -1 := rfl
  have hopen : loop.headOpen.depth = 1 := rfl
  rw [hclose, hopen]
  omega

theorem length_of_outside {ends : Char → Text → Bool} {literal : Option Char} {s t : Text}
    (h : outside ends literal s = some t) :
  t.length = s.length
  := by
  induction s generalizing literal t with
  | nil =>
      cases literal with
      | none => cases h; rfl
      | some quote => cases h
  | cons c s ih =>
      obtain ⟨t', ht', rfl⟩ := outside_cons.mp h
      rw [List.length_cons, List.length_cons, ih ht']

/-- The query of a loop is read up to its parenthesis. -/
theorem readCursorHead_text (hname : ¬HasKeyword a "loop".toList loop.name) {t : Text}
    (h : outside lastQuote none loop.select = some t)
    (hno : ∀ u v, t = u ++ v → parens u = -1 → ¬KeywordAt a "loop".toList u.getLast? v) :
  ∃ pos, readCursorHead a 0 none 0 {} loop.text
    = readCursorHead a 0 (some ')') pos (loop.headRead t) loop.behind
  := by
  have hparen : Regex.wordAt a.isWord (some '(') = false :=
    a.not_isWord_of_ascii (by decide) (by decide)
  rw [text, readCursorHead_front hname]
  have hpass := @readCursorHead_pass a ')' loop.behind loop.select t none (some '(') (some '(')
    (loop.front.length + 1) loop.headOpen rfl
    (a.not_isWord_of_ascii (by decide) (by decide)) (by rintro quote ⟨⟩) (fun _ => rfl) h
    (fun u v hsplit hdepth hkeyword => by
      have hdepth : (1 : ℤ) + parens u = 0 := hdepth
      exact hno u v hsplit (by omega) ((keywordAt_lastOr hparen).mp hkeyword))
  rw [skipOf] at hpass
  rw [hpass, readCursorHead_paren (.inr rfl)]
  exact ⟨_, rfl⟩

/-- The tables of a query that has been read to the end, with its parentheses balanced. -/
theorem select?_headRead_inside {t : Text} (hparens : parens t = 0)
    (hinside : ∀ u v, t = u ++ v → 0 ≤ parens u) :
  (((loop.headRead t).select? loop.text).map (extractCursorSelectTables a)).getD []
    = extractCursorSelectTables a loop.select
  := by
  have hopen : loop.headOpen.depth = 1 := rfl
  have hkept := @readAll_inside loop.headOpen (loop.front.length + 1) t (fun u v hsplit => by
    have hle := hinside u v hsplit
    omega)
  apply loop.select?_read
  · exact hkept.1
  · have hdepth := @depth_readAll loop.headOpen (loop.front.length + 1) t
    refine if_pos ⟨?_, hkept.2⟩
    rw [hdepth, hparens]
    rfl

/-- No tables are found in a query that is closed too early. -/
theorem select?_headRead_closed {t : Text} (hparens : parens t = 0)
    (hclosed : ∃ u v, t = u ++ v ∧ parens u < 0) :
  (((loop.headRead t).select? loop.text).map (extractCursorSelectTables a)).getD [] = []
  := by
  obtain ⟨u, v, hsplit, hlt⟩ := hclosed
  have hopen : loop.headOpen.depth = 1 := rfl
  have hread := @isClosed_readAll loop.headOpen (loop.front.length + 1) t (by omega) rfl
    ⟨u, v, hsplit, by omega⟩
  have hdepth := @depth_readAll loop.headOpen (loop.front.length + 1) t
  obtain ⟨stop, hstop, -, hstart⟩ := hread
  obtain ⟨start, hsome, hless⟩ := hstart (by omega)
  have hend : (loop.headRead t).selectEnd = some stop := by
    refine (if_neg ?_).trans hstop
    rintro ⟨-, hnone⟩
    rw [hstop] at hnone
    cases hnone
  have hfirst : (loop.headRead t).selectStart = some start := hsome
  rw [CursorHead.select?, hfirst, hend]
  dsimp only
  rw [if_neg (Nat.not_lt.mpr (Nat.le_of_lt hless))]
  rfl

/-- A text that goes on behind the query is not what is left of the loop. -/
theorem Strips.not_behind (h : loop.Strips) {head : CursorHead} {y : Text} :
  readCursorHead a 0 none 0 {} loop.text ≠ some (head, y ++ ')' :: loop.behind)
  := by
  intro hstop
  obtain ⟨head', after, hread, hafter, -⟩ := h.exists_read
  rw [hstop] at hread
  cases hread
  exact loop.not_lstrip_behind hafter

/-- Nor is a text behind another keyword. -/
theorem Strips.not_rest (h : loop.Strips) {skip : ℕ} {before : Option Char} {pos : ℕ}
    {head : CursorHead} {x : Text} (hskip : x.length ≤ skip) :
  readCursorHead a 0 none 0 {} loop.text
    ≠ readCursorHead a skip before pos head (x ++ loop.rest)
  := by
  intro hsame
  obtain ⟨head', after, hread, hafter, -⟩ := h.exists_read
  rw [hsame] at hread
  obtain ⟨y, v, hsplit, hlength, hv⟩ := exists_of_readCursorHead hread
  have hx : x <+: y := by
    refine List.prefix_of_prefix_length_le (List.prefix_append x loop.rest) ?_
      (hskip.trans hlength)
    rw [hsplit]
    exact List.prefix_append y _
  obtain ⟨w, rfl⟩ := hx
  rw [List.append_assoc, List.append_cancel_left_eq] at hsplit
  rw [hsplit] at hafter
  exact lstrip_ne hv hafter.symm

/-- A loop is stripped of its head when its query is read to the end. -/
theorem strips_of_isRead (h : loop.IsRead) :
  loop.Strips
  := by
  obtain ⟨t, hout, hparens, hcase⟩ := h.select
  have hno : ∀ u v, t = u ++ v → parens u = -1 → ¬KeywordAt a "loop".toList u.getLast? v := by
    rcases hcase with hinside | ⟨-, hno⟩
    · intro u v hsplit hdepth
      have hle := hinside u v hsplit
      omega
    · exact hno
  obtain ⟨pos, hread⟩ := readCursorHead_text h.name hout hno
  have hclose : Regex.wordAt a.isWord (some ')') = false :=
    a.not_isWord_of_ascii (by decide) (by decide)
  rw [Strips, strip_text, hread,
    loop.readCursorHead_behind hclose (depth_headRead.trans hparens)]
  dsimp only
  by_cases hinside : ∀ u v, t = u ++ v → 0 ≤ parens u
  · rw [select?_headRead_inside hparens hinside]
  · have hclosed : ∃ u v, t = u ++ v ∧ parens u < 0 := by
      simpa only [not_forall, Int.not_le, exists_prop] using hinside
    rw [select?_headRead_closed hparens hclosed, (hcase.resolve_left hinside).1]

/-- The query of a loop is read to the end when the loop is stripped of its head. -/
theorem isRead_of_strips (h : loop.Strips) :
  loop.IsRead
  := by
  have hparen : Regex.wordAt a.isWord (some '(') = false :=
    a.not_isWord_of_ascii (by decide) (by decide)
  have hd : a.isWord ')' = false := a.not_isWord_of_ascii (by decide) (by decide)
  have hclose : Regex.wordAt a.isWord (some ')') = false := hd
  have hname : ¬HasKeyword a "loop".toList loop.name := by
    intro hname
    obtain ⟨head, y, hy⟩ := exists_readCursorHead_front hname
      ('(' :: (loop.select ++ ')' :: loop.behind))
    have hstop : readCursorHead a 0 none 0 {} loop.text
        = some (head, (y ++ '(' :: loop.select) ++ ')' :: loop.behind) := by
      rw [text, hy, List.append_assoc]
      rfl
    exact h.not_behind hstop
  refine ⟨hname, ?_⟩
  have htext : readCursorHead a 0 none 0 {} loop.text
      = readCursorHead a (skipOf none (loop.select ++ ')' :: loop.behind)) (some '(')
        (loop.front.length + 1) loop.headOpen (loop.select ++ ')' :: loop.behind) :=
    readCursorHead_front hname _
  cases hout : outside lastQuote none loop.select with
  | none =>
      exfalso
      rcases @readCursorHead_open a ')' loop.behind loop.select none (some '(')
        (loop.front.length + 1) loop.headOpen rfl hd (by rintro quote ⟨⟩) hout with
        ⟨head, y, hy⟩ | ⟨quote, before, pos, head, hquote, hy⟩
      · exact h.not_behind (htext.trans hy)
      · have hbehind : ')' :: loop.behind
            = (')' :: (loop.afterSelect ++ loop.loopWord)) ++ loop.rest := by
          rw [behind, List.cons_append, List.append_assoc]
        have hrest := htext.trans hy
        rw [hbehind] at hrest
        exact h.not_rest (length_le_runLength (loop.not_mem_behind hquote)) hrest
  | some t =>
      refine ⟨t, rfl, ?_⟩
      have hno : ∀ u v, t = u ++ v → parens u = -1 →
          ¬KeywordAt a "loop".toList u.getLast? v := by
        intro u v hsplit hdepth hkeyword
        have hopen : loop.headOpen.depth = 1 := rfl
        obtain ⟨head, y, hy⟩ := @readCursorHead_stop a ')' loop.behind loop.select t none (some '(')
          (some '(') (loop.front.length + 1) loop.headOpen rfl hd (by rintro quote ⟨⟩)
          (fun _ => rfl) hout
          ⟨u, v, hsplit, by omega, (keywordAt_lastOr hparen).mpr hkeyword⟩
        exact h.not_behind (htext.trans hy)
      obtain ⟨pos, hread⟩ := readCursorHead_text hname hout hno
      by_cases hparens : parens t = 0
      · refine ⟨hparens, ?_⟩
        by_cases hinside : ∀ u v, t = u ++ v → 0 ≤ parens u
        · exact .inl hinside
        · have hclosed : ∃ u v, t = u ++ v ∧ parens u < 0 := by
            simpa only [not_forall, Int.not_le, exists_prop] using hinside
          obtain ⟨head, after, hsome, -, htables⟩ := h.exists_read
          rw [hread, loop.readCursorHead_behind hclose (depth_headRead.trans hparens)] at hsome
          cases hsome
          rw [select?_headRead_closed hparens hclosed] at htables
          exact .inr ⟨htables.symm, hno⟩
      · exfalso
        have hdepth : (loop.headRead t).depth ≠ 0 := by rwa [depth_headRead]
        obtain ⟨before', pos', hrest⟩ :=
          @readCursorHead_behind_inside a loop (some ')') pos (loop.headRead t) hdepth
        exact h.not_rest (x := []) (le_refl 0) (hread.trans hrest)

/-- The head of a loop over a cursor is taken off, with the tables of its query, exactly when the
query is read to its end. -/
theorem strips_iff (loop : CursorLoop a) :
  loop.Strips ↔ loop.IsRead
  := ⟨isRead_of_strips, strips_of_isRead⟩

end CursorLoop

/-! ### A quote in a literal -/

/-- `FOR r IN (SELECT 'it''s (' FROM t) LOOP …`. -/
def quotedLoop : CursorLoop asciiAlphabet where
  forWord := "FOR".toList
  afterFor := " ".toList
  name := "r".toList
  afterName := " ".toList
  inWord := "IN".toList
  afterIn := " ".toList
  select := "SELECT 'it''s (' FROM t".toList
  afterSelect := " ".toList
  loopWord := "LOOP".toList
  rest := " INSERT INTO u SELECT 1".toList
  forWord_eq := rfl
  inWord_eq := rfl
  loopWord_eq := rfl
  afterFor_ne := by decide
  afterName_ne := by decide
  name_ne := by decide
  isSpace_afterFor := by decide
  isSpace_afterName := by decide
  isSpace_afterIn := by decide
  isSpace_afterSelect := by decide
  name_chars := by decide
  rest_head := rfl

/-- The literal `'it''s ('` is taken to end behind `it''`. -/
theorem not_strips_quotedLoop :
  IsBalanced quotedLoop.select ∧ ¬quotedLoop.Strips
  := by
  constructor
  · have hplain : ∀ c ∈ "SELECT           FROM t".toList, c ≠ '(' ∧ c ≠ ')' := by decide
    refine ⟨"SELECT           FROM t".toList, rfl, rfl, fun u v hsplit => ?_⟩
    have hzero : parens u = 0 := by
      apply CursorLoop.parens_of_plain
      intro c hc
      apply hplain
      rw [hsplit]
      exact List.mem_append_left v hc
    exact Int.le_of_eq hzero.symm
  · intro h
    obtain ⟨t, hout, -⟩ := (CursorLoop.isRead_of_strips h).select
    have hopen : outside lastQuote none quotedLoop.select = none := by decide
    rw [hopen] at hout
    cases hout

end Lineage

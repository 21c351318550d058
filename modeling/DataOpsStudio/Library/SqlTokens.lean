import DataOpsStudio.Library.Text

/-!
# Tokens of SQL

The lexer of standard SQL: white space and comments separate tokens, a character string stands in
single quotes and a quoted name in double quotes, with the quotes inside doubled, a number has
digits, a fraction and an exponent, and every other character is a symbol.  Between the commas of a
list of constants stands one constant each.
-/

namespace SqlLexer

open Text

/-- A token. -/
inductive SqlToken where
  | number (text : Text)
  | string (value : Text)
  | name (value : Text)
  | word (text : Text)
  | symbol (c : Char)
deriving DecidableEq

/-! ### The lexer -/

/-- Whether a character may stand inside a word. -/
def isWordChar (c : Char) : Bool := c.isAlphanum || c == '_'

/-- Reads up to the quote that closes a text, and gives the text, where doubled quotes stand for
one, with the number of characters that are read. -/
def quotedFrom (quote : Char) : Text → Option (Text × ℕ)
  | [] => none
  | [c] => if c = quote then some ([], 1) else none
  | c :: d :: s =>
      if c = quote then
        if d = quote then (quotedFrom quote s).map (fun (v, n) => (quote :: v, n + 2))
        else some ([], 1)
      else (quotedFrom quote (d :: s)).map (fun (v, n) => (c :: v, n + 1))

/-- How far a block comment goes on. -/
def blockEnd : Text → Option ℕ
  | [] => none
  | c :: s => if c = '*' ∧ s.head? = some '/' then some 2 else (blockEnd s).map (· + 1)

/-- The exponent in front of a text. -/
def takeExponent : Text → Text
  | e :: sign :: s =>
      if e ≠ 'e' ∧ e ≠ 'E' then []
      else if sign.isDigit then e :: sign :: s.takeWhile Char.isDigit
      else if (sign = '+' ∨ sign = '-') ∧ s.head?.any Char.isDigit then
        e :: sign :: s.takeWhile Char.isDigit
      else []
  | _ => []

/-- The fraction in front of a text. -/
def takeFraction : Text → Text
  | '.' :: s => '.' :: s.takeWhile Char.isDigit
  | _ => []

/-- The number in front of a text. -/
def takeNumber (s : Text) : Text :=
  let whole := s.takeWhile Char.isDigit
  let rest := s.dropWhile Char.isDigit
  let fraction := takeFraction rest
  whole ++ fraction ++ takeExponent (rest.drop fraction.length)

/-- The token in front of a text, unless it is white space or a comment, and its length; nothing
when no token of the language stands there. -/
def token? : Text → Option (ℕ × Option SqlToken)
  | [] => none
  | c :: s =>
      if isSpace c then some (1, none)
      else if c = '-' ∧ s.head? = some '-' then
        some (((c :: s).takeWhile (· ≠ '\n')).length, none)
      else if c = '/' ∧ s.head? = some '*' then (blockEnd (s.drop 1)).map (fun n => (n + 2, none))
      else if c = '\'' then (quotedFrom c s).map (fun (v, n) => (n + 1, some (.string v)))
      else if c = '"' then (quotedFrom c s).map (fun (v, n) => (n + 1, some (.name v)))
      else if c.isDigit || (c = '.' && s.head?.any Char.isDigit) then
        let text := takeNumber (c :: s)
        if ((c :: s).drop text.length).head?.any isWordChar then none
        else some (text.length, some (.number text))
      else if isWordChar c then
        let text := (c :: s).takeWhile isWordChar
        some (text.length, some (.word text))
      else some (1, some (.symbol c))

/-- The tokens of a text after `skip` characters. -/
def tokensFrom : ℕ → Text → Option (List SqlToken)
  | _, [] => some []
  | skip + 1, _ :: s => tokensFrom skip s
  | 0, c :: s =>
      (token? (c :: s)).bind fun (length, token) =>
        (tokensFrom (length - 1) s).map (token.toList ++ ·)

/-- The tokens of a text. -/
def tokens (s : Text) : Option (List SqlToken) := tokensFrom 0 s

/-! ### Constants -/

/-- A constant. -/
inductive SqlConstant where
  | number (text : Text)
  | string (value : Text)
  | null
deriving DecidableEq

/-- The text of a number, the value of a character string. -/
def SqlConstant.value : SqlConstant → Text
  | number text => text
  | string value => value
  | null => []

/-- The constant that some tokens are: a number, which may have a sign, a character string, or
`NULL`. -/
def constant? : List SqlToken → Option SqlConstant
  | [.number text] => some (.number text)
  | [.symbol '-', .number text] => some (.number ('-' :: text))
  | [.symbol '+', .number text] => some (.number ('+' :: text))
  | [.string value] => some (.string value)
  | [.word text] => if text.map Char.toUpper = "NULL".toList then some .null else none
  | _ => none

/-- The constants of a text, one between each two commas. -/
def constants? (s : Text) : Option (List SqlConstant) :=
  (tokens s).bind fun ts => (ts.splitOn (.symbol ',')).mapM constant?

/-! ### Texts that are read on their own -/

/-- A text has these tokens at the end of a text and in front of a comma. -/
def LexesTo (t : Text) (ts : List SqlToken) : Prop :=
  ∀ rest : Text, (rest = [] ∨ rest.head? = some ',') →
    tokens (t ++ rest) = (tokens rest).map (ts ++ ·)

theorem tokensFrom_length (u s : Text) :
  tokensFrom u.length (u ++ s) = tokens s
  := by
  induction u with
  | nil => rfl
  | cons c u ih => exact ih

/-- What is left of a text after its first token is read next. -/
theorem tokens_of_token? {u s : Text} {t : Option SqlToken} (hu : u ≠ [])
    (h : token? (u ++ s) = some (u.length, t)) :
  tokens (u ++ s) = (tokens s).map (t.toList ++ ·)
  := by
  obtain ⟨c, u, rfl⟩ := List.exists_cons_of_ne_nil hu
  rw [List.cons_append] at h ⊢
  rw [tokens, tokensFrom, h, Option.bind_some, List.length_cons]
  change (tokensFrom (u.length + 1 - 1) (u ++ s)).map _ = _
  rw [Nat.add_sub_cancel, tokensFrom_length]

theorem token?_comma (s : Text) :
  token? (',' :: s) = some (1, some (.symbol ','))
  := by
  have hspace : isSpace ',' = false := by decide
  have hdigit : ','.isDigit = false := by decide
  have hword : isWordChar ',' = false := by decide
  simp [token?, hspace, hdigit, hword]

theorem token?_blank (s : Text) :
  token? (' ' :: s) = some (1, none)
  := by
  have hspace : isSpace ' ' = true := by decide
  rw [token?, if_pos hspace]

theorem tokens_comma (s : Text) :
  tokens (',' :: ' ' :: s) = (tokens s).map (SqlToken.symbol ',' :: ·)
  := by
  have hcomma := tokens_of_token? (List.cons_ne_nil ',' []) (token?_comma (' ' :: s))
  have hblank := tokens_of_token? (List.cons_ne_nil ' ' []) (token?_blank s)
  rw [List.singleton_append] at hcomma hblank
  rw [hcomma, hblank, Option.map_map]
  rfl

/-- Texts with a comma and a blank between them are read one by one. -/
theorem tokens_join {texts : List (Text × List SqlToken)} (hne : texts ≠ [])
    (h : ∀ p ∈ texts, LexesTo p.1 p.2) :
  tokens (join ", ".toList (texts.map Prod.fst))
    = some ([SqlToken.symbol ','].intercalate (texts.map Prod.snd))
  := by
  induction texts with
  | nil => exact absurd rfl hne
  | cons p texts ih =>
      have hp := h p List.mem_cons_self
      cases texts with
      | nil =>
          have hread := hp [] (Or.inl rfl)
          rw [List.append_nil] at hread
          have hempty : tokens [] = some [] := rfl
          rw [hempty, Option.map_some, List.append_nil] at hread
          simp only [List.map_cons, List.map_nil, join, List.intercalate_singleton]
          exact hread
      | cons q texts =>
          have hrest := ih (List.cons_ne_nil _ _) (fun r hr => h r (List.mem_cons_of_mem _ hr))
          have hread := hp (", ".toList ++ join ", ".toList ((q :: texts).map Prod.fst))
            (Or.inr rfl)
          change tokens (p.1 ++ (", ".toList ++ join ", ".toList ((q :: texts).map Prod.fst))) = _
          rw [hread]
          change (tokens (',' :: ' ' :: join ", ".toList ((q :: texts).map Prod.fst))).map _ = _
          rw [tokens_comma, hrest]
          rfl

theorem mapM_eq_some_map {α β : Type} {f : α → Option β} {g : α → β} {l : List α}
    (h : ∀ a ∈ l, f a = some (g a)) :
  l.mapM f = some (l.map g)
  := by
  induction l with
  | nil => rfl
  | cons a l ih =>
      rw [List.mapM_cons, h a List.mem_cons_self, ih (fun b hb => h b (List.mem_cons_of_mem _ hb))]
      rfl

/-- Texts that are constants, with a comma and a blank between them, are read as these
constants. -/
theorem constants?_join {α : Type} {l : List α} {text : α → Text} {read : α → List SqlToken}
    {value : α → SqlConstant} (hne : l ≠ []) (hread : ∀ a ∈ l, LexesTo (text a) (read a))
    (hcomma : ∀ a ∈ l, SqlToken.symbol ',' ∉ read a)
    (hvalue : ∀ a ∈ l, constant? (read a) = some (value a)) :
  constants? (join ", ".toList (l.map text)) = some (l.map value)
  := by
  have hne' : l.map (fun a => (text a, read a)) ≠ [] := by simpa using hne
  have htokens := tokens_join hne' (by
    intro p hp
    obtain ⟨a, ha, rfl⟩ := List.mem_map.mp hp
    exact hread a ha)
  rw [List.map_map, List.map_map] at htokens
  rw [constants?]
  change (tokens (join ", ".toList (l.map (Prod.fst ∘ fun a => (text a, read a))))).bind _ = _
  rw [htokens]
  change (([SqlToken.symbol ','].intercalate (l.map read)).splitOn _).mapM constant? = _
  rw [List.splitOn_intercalate]
  · rw [List.mapM_map]
    exact mapM_eq_some_map hvalue
  · intro ts hts
    obtain ⟨a, ha, rfl⟩ := List.mem_map.mp hts
    exact hcomma a ha
  · simpa using hne

/-! ### Character strings -/

/-- A text with its quotes doubled. -/
def doubled (quote : Char) (v : Text) : Text :=
  v.flatMap fun c => if c = quote then [quote, quote] else [c]

/-- Doubling the quotes of a text is a replacement. -/
theorem replace_quote (v : Text) :
  replace "'".toList "''".toList v = doubled '\'' v
  := by
  induction v with
  | nil => rfl
  | cons c v ih =>
      by_cases hc : c = '\''
      · subst hc
        have hquote : "'".toList ≠ [] := by decide
        have happend : replace "'".toList "''".toList ("'".toList ++ v)
            = "''".toList ++ replace "'".toList "''".toList v := replace_append hquote v
        rw [ih] at happend
        simpa [doubled] using happend
      · have hprefix : ¬ "'".toList <+: c :: v := by
          rintro ⟨t, ht⟩
          exact hc (List.cons.inj ht).1.symm
        rw [replace_cons hprefix, ih]
        simp [doubled, hc]

/-- A text with its quotes doubled is read back up to the quote that closes it. -/
theorem quotedFrom_doubled (quote : Char) (v : Text) {rest : Text}
    (hrest : rest.head? ≠ some quote) :
  quotedFrom quote (doubled quote v ++ quote :: rest)
    = some (v, (doubled quote v).length + 1)
  := by
  induction v with
  | nil =>
      cases rest with
      | nil =>
          change quotedFrom quote [quote] = _
          rw [quotedFrom, if_pos rfl]
          rfl
      | cons d rest =>
          have hd : d ≠ quote := fun heq => hrest (congrArg some heq)
          change quotedFrom quote (quote :: d :: rest) = _
          rw [quotedFrom, if_pos rfl, if_neg hd]
          rfl
  | cons c v ih =>
      by_cases hc : c = quote
      · subst hc
        have hdoubled : doubled c (c :: v) = c :: c :: doubled c v := by simp [doubled]
        rw [hdoubled, List.cons_append, List.cons_append, quotedFrom, if_pos rfl, if_pos rfl, ih]
        rfl
      · have hdoubled : doubled quote (c :: v) = c :: doubled quote v := by simp [doubled, hc]
        obtain ⟨d, s, hsplit⟩ : ∃ d s, doubled quote v ++ quote :: rest = d :: s :=
          List.exists_cons_of_ne_nil (List.append_ne_nil_of_right_ne_nil _ (List.cons_ne_nil _ _))
        rw [hdoubled, List.cons_append, hsplit, quotedFrom, if_neg hc, ← hsplit, ih]
        rfl

theorem token?_quote {s v : Text} {n : ℕ} (h : quotedFrom '\'' s = some (v, n)) :
  token? ('\'' :: s) = some (n + 1, some (.string v))
  := by
  have hspace : isSpace '\'' = false := by decide
  simp [token?, hspace, h]

theorem lexesTo_quoted (v : Text) :
  LexesTo ('\'' :: doubled '\'' v ++ ['\'']) [.string v]
  := by
  intro rest hrest
  have hhead : rest.head? ≠ some '\'' := by
    obtain rfl | hrest := hrest
    · simp
    · rw [hrest]
      decide
  have hne : '\'' :: doubled '\'' v ++ ['\''] ≠ [] := by simp
  apply tokens_of_token? (t := some (.string v)) hne
  have hsplit : ('\'' :: doubled '\'' v ++ ['\'']) ++ rest
      = '\'' :: (doubled '\'' v ++ '\'' :: rest) := by simp
  have hlength : ('\'' :: doubled '\'' v ++ ['\'']).length = (doubled '\'' v).length + 1 + 1 := by
    simp
  rw [hlength, ← token?_quote (quotedFrom_doubled '\'' v hhead)]
  exact congrArg token? hsplit

/-! ### Numbers -/

section Numbers

variable {whole fraction : Text}

theorem takeWhile_digits {u s : Text} (hu : ∀ c ∈ u, c.isDigit = true)
    (hs : ∀ c ∈ s.head?, c.isDigit = false) :
  (u ++ s).takeWhile Char.isDigit = u ∧ (u ++ s).dropWhile Char.isDigit = s
  := by
  have hstop : s.takeWhile Char.isDigit = [] ∧ s.dropWhile Char.isDigit = s := by
    cases s with
    | nil => exact ⟨rfl, rfl⟩
    | cons c s =>
        have hc := hs c rfl
        constructor
        · rw [List.takeWhile_cons_of_neg (by rw [hc]; exact Bool.false_ne_true)]
        · rw [List.dropWhile_cons_of_neg (by rw [hc]; exact Bool.false_ne_true)]
  constructor
  · rw [List.takeWhile_append_of_pos hu, hstop.1, List.append_nil]
  · rw [List.dropWhile_append_of_pos hu, hstop.2]

theorem takeExponent_eq_nil {s : Text} (hs : s = [] ∨ s.head? = some ',') :
  takeExponent s = []
  := by
  obtain rfl | hs := hs
  · rfl
  · obtain ⟨s, rfl⟩ := List.head?_eq_some_iff.mp hs
    cases s with
    | nil => rfl
    | cons d s => rw [takeExponent, if_pos (by decide)]

theorem token?_digit {c : Char} {s text : Text} (hc : c.isDigit = true)
    (htext : takeNumber (c :: s) = text)
    (hend : ((c :: s).drop text.length).head?.any isWordChar = false) :
  token? (c :: s) = some (text.length, some (.number text))
  := by
  have hrange : 48 ≤ c.toNat ∧ c.toNat ≤ 57 := by
    rw [Char.isDigit, Bool.and_eq_true, decide_eq_true_eq, decide_eq_true_eq] at hc
    exact hc
  have hspace : isSpace c = false := by
    unfold isSpace
    simp only [Bool.or_eq_false_iff, Bool.and_eq_false_iff, decide_eq_false_iff_not,
      beq_eq_false_iff_ne]
    omega
  have hne : ∀ d : Char, d.isDigit = false → c ≠ d := by
    rintro d hd rfl
    rw [hc] at hd
    cases hd
  have hdash := hne '-' (by decide)
  have hslash := hne '/' (by decide)
  have hquote := hne '\'' (by decide)
  have hdouble := hne '"' (by decide)
  rw [token?, hspace]
  simp only [Bool.false_eq_true, if_false, hdash, hslash, hquote, hdouble, false_and, hc,
    Bool.true_or, if_true, htext, hend]

/-- Digits and a fraction, if any, are read as a number at the end of a text and in front of a
comma. -/
theorem lexesTo_number (hne : whole ≠ []) (hwhole : ∀ c ∈ whole, c.isDigit = true)
    (hfraction : fraction = [] ∨
      ∃ digits, fraction = '.' :: digits ∧ ∀ c ∈ digits, c.isDigit = true) :
  LexesTo (whole ++ fraction) [.number (whole ++ fraction)]
  := by
  intro rest hrest
  have hdigit : ∀ c ∈ rest.head?, c.isDigit = false := by
    intro c hc
    obtain rfl | hrest := hrest
    · cases hc
    · rw [hrest] at hc
      obtain rfl := Option.some.inj hc
      decide
  have hwordRest : rest.head?.any isWordChar = false := by
    obtain rfl | hrest := hrest
    · rfl
    · rw [hrest]
      decide
  have hstart : ∀ c ∈ (fraction ++ rest).head?, c.isDigit = false := by
    obtain rfl | ⟨digits, rfl, -⟩ := hfraction
    · exact hdigit
    · intro c hc
      obtain rfl := Option.some.inj hc
      decide
  have htakeFraction : takeFraction (fraction ++ rest) = fraction := by
    obtain rfl | ⟨digits, rfl, hdigits⟩ := hfraction
    · obtain rfl | hrest := hrest
      · rfl
      · obtain ⟨s, rfl⟩ := List.head?_eq_some_iff.mp hrest
        rfl
    · change '.' :: (digits ++ rest).takeWhile Char.isDigit = _
      rw [(takeWhile_digits hdigits hdigit).1]
  obtain ⟨htake, hdrop⟩ := takeWhile_digits hwhole hstart
  have hnumber : takeNumber (whole ++ (fraction ++ rest)) = whole ++ fraction := by
    rw [takeNumber]
    simp only [htake, hdrop, htakeFraction, List.drop_left, takeExponent_eq_nil hrest,
      List.append_nil]
  obtain ⟨c, whole, rfl⟩ := List.exists_cons_of_ne_nil hne
  have hc := hwhole c List.mem_cons_self
  have hcons : c :: whole ++ fraction ≠ [] := by simp
  apply tokens_of_token? (t := some (.number (c :: whole ++ fraction))) hcons
  have hsplit : c :: whole ++ fraction ++ rest = c :: (whole ++ (fraction ++ rest)) := by simp
  have hleft : (c :: whole ++ fraction ++ rest).drop (c :: whole ++ fraction).length = rest :=
    List.drop_left
  rw [hsplit] at hleft
  have hend : ((c :: (whole ++ (fraction ++ rest))).drop (c :: whole ++ fraction).length).head?.any
      isWordChar = false := by rw [hleft]; exact hwordRest
  rw [hsplit]
  exact token?_digit hc hnumber hend

theorem token?_dash {s : Text} (hs : s.head? ≠ some '-') :
  token? ('-' :: s) = some (1, some (.symbol '-'))
  := by
  have hspace : isSpace '-' = false := by decide
  have hdigit : '-'.isDigit = false := by decide
  have hword : isWordChar '-' = false := by decide
  simp [token?, hspace, hdigit, hword, hs]

/-- A number with a sign is read as the sign and the number. -/
theorem lexesTo_negative (hne : whole ≠ []) (hwhole : ∀ c ∈ whole, c.isDigit = true)
    (hfraction : fraction = [] ∨
      ∃ digits, fraction = '.' :: digits ∧ ∀ c ∈ digits, c.isDigit = true) :
  LexesTo ('-' :: whole ++ fraction) [.symbol '-', .number (whole ++ fraction)]
  := by
  intro rest hrest
  have hnumber := lexesTo_number hne hwhole hfraction rest hrest
  have hhead : (whole ++ fraction ++ rest).head? ≠ some '-' := by
    obtain ⟨c, whole, rfl⟩ := List.exists_cons_of_ne_nil hne
    intro heq
    obtain rfl : c = '-' := Option.some.inj heq
    have hdigit := hwhole _ List.mem_cons_self
    revert hdigit
    decide
  have hdash : tokens ('-' :: (whole ++ fraction ++ rest))
      = (tokens (whole ++ fraction ++ rest)).map (SqlToken.symbol '-' :: ·) :=
    tokens_of_token? (List.cons_ne_nil '-' []) (token?_dash hhead)
  rw [hnumber, Option.map_map] at hdash
  exact hdash

end Numbers

end SqlLexer

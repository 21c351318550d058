import DataOpsStudio.Workflow.Sugar

/-!
# Literals in conditions

A condition may compare a variable with a literal.  The sugar is rewritten inside the literal as
everywhere else, so the literal means itself exactly when it has no sugar.
-/

namespace Workflow

open Text

/-- A condition that compares a variable with a literal. -/
def literalTest (x s : Text) : Text := placeholderOf x ++ " == '".toList ++ s ++ ['\'']

/-- A text that may stand between single quotes as it is. -/
structure PlainLiteral (s : Text) : Prop where
  chars : ∀ c ∈ s, c ∉ "'\"\\\n\r".toList
  noPlaceholder : placeholders s = []

/-- How the interpreter reads a literal and compares two of them: what `repr` made of a text is
read as that text, what stands between single quotes is read as it is, and a source with the
character zero is not read at all. -/
structure ReadsLiterals (rt : WhenRuntime) (text : Text → rt.Const) : Prop where
  words : rt.ReadsWords
  parse_eq : ∀ v s : Text, (∀ c ∈ s, c ∉ "'\\\n\r\x00".toList) →
    rt.parse (Text.repr rt.isPrintable v ++ " == '".toList ++ s ++ ['\''])
      = .ok (.compare (.constant (text v)) [(.eq, .constant (text s))])
  parse_zero : ∀ e : Text, '\x00' ∈ e → ∃ message, rt.parse e = .error message
  compare_eq : ∀ v s, rt.compare .eq (text v) (text s) = .ok (decide (v = s))
  truthy_ofBool : ∀ b, rt.truthy (rt.ofBool b) = b

section LiteralTest

variable {rt : WhenRuntime} {text : Text → rt.Const} {x s : Text}

theorem sugared_equation :
  sugared rt " == ".toList = " == ".toList
  := rfl

/-- The sugar of the condition is that of the name and that of the literal. -/
theorem sugared_literalTest (hw : rt.ReadsWords) (hx : isIdentifier x = true) :
  sugared rt (literalTest x s) = literalTest (whenName x) (sugared rt s)
  := by
  have hsplit : literalTest x s
      = [] ++ placeholderOf x ++ (" == ".toList ++ '\'' :: (s ++ '\'' :: [])) := by
    simp [literalTest]
  rw [hsplit, sugared_placeholder hw hx, sugared_cut hw (by decide), sugared_cut hw (by decide),
    sugared_equation]
  change [] ++ placeholderOf (whenName x) ++ (_ ++ '\'' :: (_ ++ '\'' :: [])) = _
  simp [literalTest]

/-- The characters that a literal may have are those that sugar may be rewritten to. -/
theorem plainLiteral_sugared (hs : PlainLiteral s) :
  PlainLiteral (sugared rt s)
  where
  chars := by
    apply forall_mem_sugared _ hs.chars
    intro c hc hmem
    have hsigns : ∀ d ∈ "'\"\\\n\r".toList, ¬ (d.isAlpha = true ∨ d = ' ') := by decide
    exact hsigns c hmem hc
  noPlaceholder := placeholders_sugared hs.noPlaceholder

theorem placeholders_literal (hs : PlainLiteral s) :
  placeholders (" == '".toList ++ s ++ ['\'']) = []
  := placeholders_between (by decide) (by decide) hs.noPlaceholder

theorem substitute_literalTest (hx : isIdentifier x = true) (hs : PlainLiteral s)
    (f : Text → Except Text Text) :
  substitute f (literalTest x s)
    = (f x).map fun literal => literal ++ " == '".toList ++ s ++ ['\'']
  := by
  have hbrace : '}' ∉ x := not_mem_identifier hx (by decide) (by decide)
  have hsplit : literalTest x s = placeholderOf x ++ (" == '".toList ++ s ++ ['\'']) := by
    simp [literalTest]
  rw [hsplit, substitute_placeholder f hbrace,
    substitute_of_placeholders_eq_nil f (placeholders_literal hs)]
  cases f x with
  | error message => rfl
  | ok literal =>
      change Except.ok _ = Except.ok _
      simp

theorem literalTest_ends :
  ∃ u, literalTest x s = '$' :: u ++ ['\'']
  := ⟨'{' :: x ++ ['}'] ++ " == '".toList ++ s, by simp [literalTest, placeholderOf]⟩

theorem evaluateRendered_eq (rendered : Text) {tree : PyExpr rt.Const}
    (hstrip : strip rendered = rendered) (hparse : rt.parse rendered = .ok tree)
    (hallowed : forbiddenConstruct? tree = none) :
  evaluateRendered rt rendered = (evalNode rt tree).map rt.truthy
  := by
  rw [evaluateRendered, hstrip, hparse]
  simp only [hallowed]

theorem strip_rendered (v t : Text) :
  strip (Text.repr rt.isPrintable v ++ " == '".toList ++ t ++ ['\''])
    = Text.repr rt.isPrintable v ++ " == '".toList ++ t ++ ['\'']
  := by
  have hquote : ∀ quote : Char, quote = '\'' ∨ quote = '"' → isSpace quote = false := by
    rintro quote (rfl | rfl) <;> decide
  have hrepr : ∃ quote u, isSpace quote = false ∧ Text.repr rt.isPrintable v = quote :: u := by
    refine ⟨_, _, ?_, rfl⟩
    apply hquote
    split
    · exact Or.inr rfl
    · exact Or.inl rfl
  obtain ⟨quote, u, hspace, hrepr⟩ := hrepr
  rw [hrepr, List.cons_append, List.cons_append]
  exact strip_of_ends hspace (by decide)

/-- What a comparison with a literal without the character zero comes to. -/
theorem evaluateRendered_literal (h : ReadsLiterals rt text) (v : Text) {t : Text}
    (ht : PlainLiteral t) (hzero : '\x00' ∉ t) :
  evaluateRendered rt (Text.repr rt.isPrintable v ++ " == '".toList ++ t ++ ['\''])
    = .ok (decide (v = t))
  := by
  have hchars : ∀ c ∈ t, c ∉ "'\\\n\r\x00".toList := by
    intro c hc hmem
    have hsplit : ∀ d ∈ "'\\\n\r\x00".toList, d = '\x00' ∨ d ∈ "'\"\\\n\r".toList := by decide
    obtain rfl | hquote := hsplit c hmem
    · exact hzero hc
    · exact ht.chars c hc hquote
  rw [evaluateRendered_eq _ (strip_rendered v t) (h.parse_eq v t hchars) rfl]
  simp only [evalNode, evalComparisons, compareConstants, h.compare_eq]
  by_cases heq : v = t
  · simp only [heq, decide_true, Except.map, h.truthy_ofBool]
  · simp only [heq, decide_false, Except.map, h.truthy_ofBool]

theorem evaluateRendered_zero (h : ReadsLiterals rt text) (v : Text) {t : Text}
    (hzero : '\x00' ∈ t) :
  ∃ message, evaluateRendered rt (Text.repr rt.isPrintable v ++ " == '".toList ++ t ++ ['\''])
    = .error message
  := by
  have hmem : '\x00' ∈ Text.repr rt.isPrintable v ++ " == '".toList ++ t ++ ['\''] :=
    List.mem_append_left _ (List.mem_append_right _ hzero)
  obtain ⟨message, hparse⟩ := h.parse_zero _ hmem
  use "invalid_when_syntax: ".toList ++ message
  rw [evaluateRendered, strip_rendered, hparse]

/-- A comparison with a literal, within the limit, is evaluated with the sugar of the literal
rewritten. -/
theorem evaluateWhen_literalTest (hw : rt.ReadsWords) (hx : isIdentifier x = true)
    (hs : PlainLiteral s) (hlength : (literalTest x s).length ≤ maxWhenLength)
    (vars : Variables) (nodeOutputs : NodeOutputMap) :
  evaluateWhen rt (some (literalTest x s)) vars nodeOutputs
    = (whenLiteral rt vars nodeOutputs (whenName x)).bind fun literal =>
        evaluateRendered rt (literal ++ " == '".toList ++ sugared rt s ++ ['\''])
  := by
  have hstrip : (strip (literalTest x s)).isEmpty = false := by
    obtain ⟨u, hu⟩ := literalTest_ends (x := x) (s := s)
    rw [hu, strip_of_ends (by decide) (by decide)]
    rfl
  rw [evaluateWhen]
  simp only [hstrip, Bool.false_eq_true, if_false, Nat.not_lt.mpr hlength]
  rw [sugared_literalTest hw hx,
    substitute_literalTest (isIdentifier_whenName hx) (plainLiteral_sugared hs)]
  cases whenLiteral rt vars nodeOutputs (whenName x) <;> rfl

theorem mem_zero_sugared_iff (hw : rt.ReadsWords) :
  '\x00' ∈ sugared rt s ↔ '\x00' ∈ s
  := by
  constructor
  · intro h
    by_contra hnot
    refine forall_mem_sugared (p := fun c => c ≠ '\x00') ?_ ?_ '\x00' h rfl
    · rintro c hc rfl
      revert hc
      decide
    · rintro c hc rfl
      exact hnot hc
  · intro h
    obtain ⟨u, t, rfl⟩ := List.append_of_mem h
    rw [sugared_cut hw (by decide)]
    exact List.mem_append_right _ List.mem_cons_self

/-- A literal means itself, whatever the variable is compared with, exactly when it has no sugar
and no character zero and the name of the variable is none of the constants. -/
theorem literal_meansItself_iff (h : ReadsLiterals rt text) (hx : isIdentifier x = true)
    (hs : PlainLiteral s) (hlength : (literalTest x s).length ≤ maxWhenLength)
    (nodeOutputs : NodeOutputMap) :
  (∀ (vars : Variables) (v : Text), vars.get? x = some (.str v) →
      (evaluateWhen rt (some (literalTest x s)) vars nodeOutputs = .ok true ↔ v = s))
    ↔ SugarFree rt s ∧ '\x00' ∉ s ∧ x ∉ sugarConstants
  := by
  have hplain : PlainLiteral (sugared rt s) := plainLiteral_sugared hs
  constructor
  · intro hself
    have hconstant : x ∉ sugarConstants := by
      intro hmem
      have hbound : (Dict.empty.set x (.str s) : Variables).get? (whenName x) = none := by
        rw [Dict.get?_set_of_ne _ _ (whenName_ne hmem).symm]
        rfl
      have htrue := (hself (Dict.empty.set x (.str s)) s (Dict.get?_set_self _ _ _)).mpr rfl
      rw [evaluateWhen_literalTest h.words hx hs hlength,
        whenLiteral_identifier (isIdentifier_whenName hx), hbound] at htrue
      cases htrue
    have htrue := (hself (Dict.empty.set x (.str s)) s (Dict.get?_set_self _ _ _)).mpr rfl
    rw [evaluateWhen_literalTest h.words hx hs hlength, whenName_of_not_mem hconstant,
      whenLiteral_identifier hx, Dict.get?_set_self] at htrue
    change evaluateRendered rt _ = .ok true at htrue
    have hzero : '\x00' ∉ s := by
      intro hmem
      obtain ⟨message, herror⟩ :=
        evaluateRendered_zero h s ((mem_zero_sugared_iff h.words).mpr hmem)
      rw [herror] at htrue
      cases htrue
    rw [evaluateRendered_literal h s hplain
      (fun hmem => hzero ((mem_zero_sugared_iff h.words).mp hmem))] at htrue
    refine ⟨?_, hzero, hconstant⟩
    rw [← sugared_eq_self_iff]
    exact (of_decide_eq_true (Except.ok.inj htrue)).symm
  · rintro ⟨hfree, hzero, hconstant⟩ vars v hv
    have hself := sugared_eq_self_iff.mpr hfree
    rw [evaluateWhen_literalTest h.words hx hs hlength, whenName_of_not_mem hconstant,
      whenLiteral_identifier hx, hv, hself]
    change evaluateRendered rt _ = .ok true ↔ _
    rw [evaluateRendered_literal h v hs hzero]
    simp

end LiteralTest

/-! ### A reader of literals -/

/-- The character that an escape stands for. -/
def escapedChar (c : Char) : Char :=
  if c = 't' then '\t' else if c = 'n' then '\n' else if c = 'r' then '\r' else c

/-- Reads a text up to the quote that ends it, and gives what follows. -/
def readBody (quote : Char) : Text → Option (Text × Text)
  | [] => none
  | '\\' :: 'x' :: '0' :: '0' :: s =>
      (readBody quote s).map (fun (body, rest) => ('\x00' :: body, rest))
  | '\\' :: c :: s =>
      (readBody quote s).map (fun (body, rest) => (escapedChar c :: body, rest))
  | c :: s =>
      if c = quote then some ([], s)
      else if c = '\n' ∨ c = '\r' then none
      else (readBody quote s).map (fun (body, rest) => (c :: body, rest))

/-- Reads a literal in front of a text. -/
def readLiteral : Text → Option (Text × Text)
  | [] => none
  | c :: s => if c = '\'' ∨ c = '"' then readBody c s else none

/-- Reads a comparison of two literals. -/
def readEquation (e : Text) : Option (Text × Text) :=
  match readLiteral e with
  | some (left, ' ' :: '=' :: '=' :: ' ' :: e) =>
      match readLiteral e with
      | some (right, []) => some (left, right)
      | _ => none
  | _ => none

/-- Reads a condition that compares two literals. -/
def parseEquation (e : Text) : Except Text (PyExpr (Bool ⊕ Text)) :=
  if '\x00' ∈ e then .error "source code string cannot contain null bytes".toList
  else
    match readEquation e with
    | some (left, right) => .ok (.compare (.constant (.inr left)) [(.eq, .constant (.inr right))])
    | none => .error "invalid syntax".toList

/-- Every character but zero is printed as it is. -/
def isNonzero (c : Char) : Bool := c != '\x00'

/-- An interpreter whose conditions are comparisons of two literals. -/
def literalRuntime : WhenRuntime where
  Const := Bool ⊕ Text
  ofBool := .inl
  truthy := Sum.elim id (fun s => !s.isEmpty)
  signed := fun _ _ => none
  compare := fun op left right =>
    match op, left, right with
    | .eq, .inr v, .inr s => .ok (decide (v = s))
    | _, _, _ => .error "not supported".toList
  parse := parseEquation
  isWord := fun c => c.isAlphanum || c == '_'
  isPrintable := isNonzero

theorem readBody_cons {quote c : Char} {s : Text} (hc : c ≠ '\\') (hquote : c ≠ quote)
    (hline : ¬ (c = '\n' ∨ c = '\r')) :
  readBody quote (c :: s) = (readBody quote s).map (fun (body, rest) => (c :: body, rest))
  := by
  rw [readBody]
  · rw [if_neg hquote, if_neg hline]
  · intro s heq
    exact absurd heq hc
  · intro d s heq
    exact absurd heq hc

theorem readBody_quote {quote : Char} (hquote : quote ≠ '\\') (s : Text) :
  readBody quote (quote :: s) = some ([], s)
  := by
  rw [readBody]
  · rw [if_pos rfl]
  · intro s heq
    exact absurd heq hquote
  · intro d s heq
    exact absurd heq hquote

theorem readBody_escape {quote c : Char} (hc : c ≠ 'x') (s : Text) :
  readBody quote ('\\' :: c :: s)
    = (readBody quote s).map (fun (body, rest) => (escapedChar c :: body, rest))
  := by
  rw [readBody]
  intro r heq
  exact absurd heq hc

/-- A character as it is written inside a literal is read back. -/
theorem readBody_reprChar {quote : Char} (hquote : quote = '\'' ∨ quote = '"') (c : Char)
    (s : Text) :
  readBody quote (reprChar isNonzero quote c ++ s)
    = (readBody quote s).map (fun (body, rest) => (c :: body, rest))
  := by
  by_cases hescaped : c = quote ∨ c = '\\'
  · have hletter : c ≠ 'x' ∧ escapedChar c = c := by
      obtain rfl | rfl := hescaped
      · obtain rfl | rfl := hquote <;> decide
      · decide
    rw [reprChar, if_pos hescaped]
    change readBody quote ('\\' :: c :: s) = _
    rw [readBody_escape hletter.1, hletter.2]
  · rw [reprChar, if_neg hescaped]
    rw [not_or] at hescaped
    by_cases htab : c = '\t'
    · subst htab
      exact readBody_escape (by decide) s
    · rw [if_neg htab]
      by_cases hnewline : c = '\n'
      · subst hnewline
        exact readBody_escape (by decide) s
      · rw [if_neg hnewline]
        by_cases hreturn : c = '\r'
        · subst hreturn
          exact readBody_escape (by decide) s
        · rw [if_neg hreturn]
          by_cases hzero : c = '\x00'
          · subst hzero
            rfl
          · have hprintable : isNonzero c = true := by
              simpa [isNonzero] using hzero
            rw [if_pos hprintable]
            exact readBody_cons hescaped.2 hescaped.1 (not_or.mpr ⟨hnewline, hreturn⟩)

/-- What `repr` makes of a text is read as the text. -/
theorem readLiteral_repr (v s : Text) :
  readLiteral (Text.repr isNonzero v ++ s) = some (v, s)
  := by
  have hbody : ∀ quote : Char, quote = '\'' ∨ quote = '"' →
      readBody quote (v.flatMap (reprChar isNonzero quote) ++ quote :: s)
        = some (v, s) := by
    intro quote hquote
    induction v with
    | nil =>
        apply readBody_quote
        obtain rfl | rfl := hquote <;> decide
    | cons c v ih =>
        rw [List.flatMap_cons, List.append_assoc, readBody_reprChar hquote, ih]
        rfl
  have hquote : ∀ quote : Char, quote = '\'' ∨ quote = '"' →
      readLiteral (quote :: v.flatMap (reprChar isNonzero quote) ++ [quote] ++ s)
        = some (v, s) := by
    intro quote hquote
    rw [List.append_assoc]
    change (if quote = '\'' ∨ quote = '"' then _ else none) = _
    rw [if_pos hquote]
    exact hbody quote hquote
  rw [Text.repr]
  split
  · exact hquote '"' (Or.inr rfl)
  · exact hquote '\'' (Or.inl rfl)

theorem readLiteral_plain {s : Text} (hs : ∀ c ∈ s, c ∉ "'\\\n\r\x00".toList) :
  readLiteral ('\'' :: s ++ ['\'']) = some (s, [])
  := by
  change readBody '\'' (s ++ ['\'']) = some (s, [])
  induction s with
  | nil => rfl
  | cons c s ih =>
      have hc := hs c List.mem_cons_self
      have hne : ∀ d ∈ "'\\\n\r\x00".toList, c ≠ d := fun d hd heq => hc (heq ▸ hd)
      rw [List.cons_append, readBody_cons (hne _ (by decide)) (hne _ (by decide)),
        ih (fun d hd => hs d (List.mem_cons_of_mem _ hd))]
      · rfl
      · rintro (rfl | rfl)
        · exact hne _ (by decide) rfl
        · exact hne _ (by decide) rfl

theorem zero_not_mem_repr (v : Text) :
  '\x00' ∉ Text.repr isNonzero v
  := by
  have hchar : ∀ quote c : Char, quote ≠ '\x00' →
      '\x00' ∉ reprChar isNonzero quote c := by
    intro quote c hquote hmem
    by_cases hzero : c = '\x00'
    · subst hzero
      rw [reprChar, if_neg] at hmem
      · revert hmem
        decide
      · rintro (heq | heq)
        · exact hquote heq.symm
        · revert heq
          decide
    · have hprintable : isNonzero c = true := by
        simpa [isNonzero] using hzero
      have hne : '\x00' ≠ c := fun heq => hzero heq.symm
      rw [reprChar] at hmem
      simp only [hprintable, if_true] at hmem
      split_ifs at hmem <;> simp [hne] at hmem
  rw [Text.repr]
  have hquote : ∀ quote : Char, quote ≠ '\x00' →
      '\x00' ∉ quote :: v.flatMap (reprChar isNonzero quote) ++ [quote] := by
    intro quote hquote hmem
    rw [List.cons_append, List.mem_cons, List.mem_append, List.mem_flatMap,
      List.mem_singleton] at hmem
    obtain heq | ⟨c, -, hc⟩ | heq := hmem
    · exact hquote heq.symm
    · exact hchar quote c hquote hc
    · exact hquote heq.symm
  split
  · exact hquote _ (by decide)
  · exact hquote _ (by decide)

theorem parseEquation_eq (v : Text) {s : Text} (hs : ∀ c ∈ s, c ∉ "'\\\n\r\x00".toList) :
  parseEquation (Text.repr isNonzero v ++ " == '".toList ++ s ++ ['\''])
    = .ok (.compare (.constant (.inr v)) [(.eq, .constant (.inr s))])
  := by
  have hzero : '\x00' ∉ Text.repr isNonzero v ++ " == '".toList ++ s ++ ['\''] := by
    intro hmem
    simp only [List.mem_append, List.mem_singleton] at hmem
    obtain ((hmem | hmem) | hmem) | hmem := hmem
    · exact zero_not_mem_repr v hmem
    · revert hmem
      decide
    · exact hs _ hmem (by decide)
    · revert hmem
      decide
  have hsplit : Text.repr isNonzero v ++ " == '".toList ++ s ++ ['\'']
      = Text.repr isNonzero v ++ (' ' :: '=' :: '=' :: ' ' :: ('\'' :: s ++ ['\''])) := by
    simp
  have hread : readEquation (Text.repr isNonzero v ++ " == '".toList ++ s ++ ['\''])
      = some (v, s) := by
    rw [readEquation, hsplit, readLiteral_repr]
    simp only [readLiteral_plain hs]
  rw [parseEquation, if_neg hzero, hread]

theorem literalRuntime_readsLiterals :
  ReadsLiterals literalRuntime .inr
  where
  words _ _ := rfl
  parse_eq v _ hs := parseEquation_eq v hs
  parse_zero _ hzero := ⟨_, if_pos hzero⟩
  compare_eq _ _ := rfl
  truthy_ofBool _ := rfl

/-- The literal `main` means itself. -/
theorem literal_meansItself_main :
  (∀ (vars : Variables) (v : Text), vars.get? "branch".toList = some (.str v) →
      (evaluateWhen literalRuntime (some (literalTest "branch".toList "main".toList)) vars
        Dict.empty = .ok true ↔ v = "main".toList))
    ↔ SugarFree literalRuntime "main".toList ∧ '\x00' ∉ "main".toList
      ∧ "branch".toList ∉ sugarConstants
  := literal_meansItself_iff literalRuntime_readsLiterals (by decide)
      ⟨by decide, by decide⟩ (by decide) Dict.empty

/-- The literal `true` does not mean itself: a variable with this text is found to be different. -/
theorem not_literal_meansItself_true :
  ¬ ∀ (x s : Text), isIdentifier x = true → PlainLiteral s →
    (literalTest x s).length ≤ maxWhenLength → ∀ (vars : Variables) (v : Text),
    vars.get? x = some (.str v) →
    (evaluateWhen literalRuntime (some (literalTest x s)) vars Dict.empty = .ok true ↔ v = s)
  := by
  intro h
  have hfalse : evaluateWhen literalRuntime (some (literalTest "x".toList "true".toList))
      (Dict.empty.set "x".toList (.str "true".toList)) Dict.empty = .ok false := by
    rfl
  have hiff := h "x".toList "true".toList (by decide) ⟨by decide, by decide⟩ (by decide)
    (Dict.empty.set "x".toList (.str "true".toList)) "true".toList (Dict.get?_set_self _ _ _)
  have htrue := hiff.mpr rfl
  rw [hfalse] at htrue
  cases htrue

end Workflow

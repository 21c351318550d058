import DataOpsStudio.Lineage.Words

/-!
# Template variables

A variable of a template is written between braces, with white space around its name if one likes.
Before a text is parsed such a variable becomes a placeholder of the same length.  The positions of
the other characters stay, and so do the newlines, unless one of them stands between the braces of a
variable: it becomes a blank.
-/

namespace Lineage

open Text

section Variables

variable (a : Alphabet)

/-- The characters that a name can begin with. -/
def isNameStart (c : Char) : Bool := c.isAlpha || c == '_'

/-- The characters of a name. -/
def isNameChar (c : Char) : Bool := a.isWord c || "$#".toList.contains c

/-- A variable of a template; the first group is its name. -/
def templateVariable : Regex :=
  .seq
    [.exactly '$', .exactly '{', .star .space,
      .group 1 (.cat (.char isNameStart) (.star (.char (isNameChar a)))),
      .star .space, .exactly '}']

/-- A text with blanks at its end, up to a length. -/
def ljust (s : Text) (width : ℕ) : Text := s ++ List.replicate (width - s.length) ' '

/-- The placeholder for a match, as long as the match. -/
def placeholderFor (found : Regex.Found) : Text :=
  ljust (':' :: (found.group 1).getD []) (found.stop - found.start)

/-- A text with placeholders for its template variables. -/
def normalizeTemplateVariables (sql : Text) : Text :=
  Regex.sub (templateVariable a) placeholderFor sql

/-! ### Variables as they are written -/

/-- A template variable: the white space around its name, and the name. -/
structure TemplateVariable where
  before : Text
  first : Char
  more : Text
  after : Text
  isSpace_before : ∀ c ∈ before, isSpace c = true
  isNameStart_first : isNameStart first = true
  isNameChar_more : ∀ c ∈ more, isNameChar a c = true
  isSpace_after : ∀ c ∈ after, isSpace c = true

variable {a}

namespace TemplateVariable

/-- The name of a variable. -/
def name (v : TemplateVariable a) : Text := v.first :: v.more

/-- The text of a variable. -/
def text (v : TemplateVariable a) : Text :=
  '$' :: '{' :: (v.before ++ (v.name ++ (v.after ++ ['}'])))

/-- The placeholder for a variable. -/
def placeholder (v : TemplateVariable a) : Text := ljust (':' :: v.name) v.text.length

theorem length_text (v : TemplateVariable a) :
  v.text.length = v.before.length + v.name.length + v.after.length + 3
  := by
  simp only [text, List.length_cons, List.length_append, List.length_nil]
  omega

/-- A placeholder is a name behind a colon, with two blanks at least. -/
theorem placeholder_eq (v : TemplateVariable a) :
  v.placeholder
    = ':' :: (v.name ++ List.replicate (v.before.length + v.after.length + 2) ' ')
  := by
  rw [placeholder, ljust, length_text, List.length_cons, List.cons_append]
  have hblanks : v.before.length + v.name.length + v.after.length + 3 - (v.name.length + 1)
      = v.before.length + v.after.length + 2 := by omega
  rw [hblanks]

theorem length_placeholder (v : TemplateVariable a) :
  v.placeholder.length = v.text.length
  := by
  rw [placeholder_eq, length_text]
  simp only [List.length_cons, List.length_append, List.length_replicate]
  omega

theorem isNameChar_name (v : TemplateVariable a) :
  ∀ c ∈ v.name, isNameChar a c = true
  := by
  intro c hc
  rcases List.mem_cons.mp hc with rfl | hc
  · have hfirst := v.isNameStart_first
    rw [isNameStart, Bool.or_eq_true, beq_iff_eq] at hfirst
    rw [isNameChar, Bool.or_eq_true]
    left
    rcases hfirst with halpha | hunderscore
    · apply a.isWord_of_isAlpha halpha
    · rw [hunderscore, Alphabet.isWord, Bool.or_eq_true]
      right
      rfl
  · apply v.isNameChar_more c hc

end TemplateVariable

/-! ### Where the pattern matches -/

/-- A match of the pattern is a variable. -/
theorem templateVariable_of_tryAt {p q : Regex.Spot}
    (h : Regex.tryAt (templateVariable a) p = some q) :
  ∃ v : TemplateVariable a, Regex.HasRead p q v.text ∧ q.groups = (1, v.name) :: p.groups
  := by
  have hends := List.mem_of_head? h
  obtain ⟨p₁, h₁, hends⟩ := Regex.mem_ends_seq_cons hends
  obtain ⟨p₂, h₂, hends⟩ := Regex.mem_ends_seq_cons hends
  obtain ⟨p₃, h₃, hends⟩ := Regex.mem_ends_seq_cons hends
  obtain ⟨p₄, h₄, hends⟩ := Regex.mem_ends_seq_cons hends
  obtain ⟨p₅, h₅, hends⟩ := Regex.mem_ends_seq_cons hends
  obtain ⟨p₆, h₆, hends⟩ := Regex.mem_ends_seq_cons hends
  obtain rfl := List.mem_singleton.mp hends
  obtain ⟨c₁, hc₁, hread₁, hgroups₁⟩ := Regex.hasRead_of_mem_char h₁
  obtain ⟨c₂, hc₂, hread₂, hgroups₂⟩ := Regex.hasRead_of_mem_char h₂
  obtain ⟨before, hbefore, hread₃, hgroups₃⟩ := Regex.hasRead_of_mem_star h₃
  obtain ⟨m, hm, rfl⟩ := List.mem_map.mp h₄
  obtain ⟨m', hm', hm⟩ := List.mem_flatMap.mp hm
  obtain ⟨first, hfirst, hreadFirst, hgroupsFirst⟩ := Regex.hasRead_of_mem_char hm'
  obtain ⟨more, hmore, hreadMore, hgroupsMore⟩ := Regex.hasRead_of_mem_star hm
  obtain ⟨after, hafter, hread₅, hgroups₅⟩ := Regex.hasRead_of_mem_star h₅
  obtain ⟨c₆, hc₆, hread₆, hgroups₆⟩ := Regex.hasRead_of_mem_char h₆
  rw [beq_iff_eq] at hc₁ hc₂ hc₆
  subst hc₁ hc₂ hc₆
  have hname := hreadFirst.trans hreadMore
  have hread₄ : Regex.HasRead p₃
      { m with groups := (1, p₃.rest.take (m.passed - p₃.passed)) :: m.groups } (first :: more) :=
    ⟨hname.rest, hname.passed⟩
  refine ⟨⟨before, first, more, after, hbefore, hfirst, hmore, hafter⟩, ?_, ?_⟩
  · apply (hread₁.trans (hread₂.trans (hread₃.trans (hread₄.trans (hread₅.trans hread₆)))))
  · rw [hgroups₆, hgroups₅, hname.take, hgroupsMore, hgroupsFirst, hgroups₃, hgroups₂, hgroups₁]
    rfl

/-- The pattern matches wherever a variable is written. -/
theorem tryAt_templateVariable_ne_none (v : TemplateVariable a) {p : Regex.Spot} {s : Text}
    (hp : p.rest = v.text ++ s) :
  Regex.tryAt (templateVariable a) p ≠ none
  := by
  have hends : Regex.ends (templateVariable a) p ≠ [] := by
    have hsplit : p.rest = ['$'] ++ (['{'] ++ (v.before ++ (v.name ++ (v.after ++ (['}'] ++ s))))) := by
      rw [hp]
      simp [TemplateVariable.text]
    apply Regex.ends_cat_ne_nil (Regex.reads_exactly '$') hsplit
    have h₁ := Regex.Spot.rest_advance hsplit
    apply Regex.ends_cat_ne_nil (Regex.reads_exactly '{') h₁
    have h₂ := Regex.Spot.rest_advance h₁
    apply Regex.ends_cat_ne_nil (Regex.reads_star_char v.isSpace_before) h₂
    have h₃ := Regex.Spot.rest_advance h₂
    apply Regex.ends_cat_group_ne_nil
      (Regex.Reads.cat (Regex.reads_char v.isNameStart_first)
        (Regex.reads_star_char v.isNameChar_more)) h₃
    intro q h₄
    apply Regex.ends_cat_ne_nil (Regex.reads_star_char v.isSpace_after) h₄
    have h₅ := Regex.Spot.rest_advance h₄
    apply Regex.ends_cat_ne_nil (Regex.reads_exactly '}') h₅
    exact List.cons_ne_nil _ _
  rw [Regex.tryAt]
  intro hnone
  exact hends (List.head?_eq_none_iff.mp hnone)

/-- Whether a variable is written at the beginning of a text. -/
def OpensVariable (a : Alphabet) (s : Text) : Prop :=
  ∃ (v : TemplateVariable a) (rest : Text), s = v.text ++ rest

theorem tryAt_of_not_opensVariable {p : Regex.Spot} (h : ¬ OpensVariable a p.rest) :
  Regex.tryAt (templateVariable a) p = none
  := by
  match htry : Regex.tryAt (templateVariable a) p with
  | none => rfl
  | some q =>
      obtain ⟨v, hread, -⟩ := templateVariable_of_tryAt htry
      exact absurd ⟨v, q.rest, hread.rest⟩ h

/-- A text from some position on, the matches in it, and the text with placeholders for them. -/
inductive Templated (a : Alphabet) : ℕ → Text → List Regex.Found → Text → Prop where
  | nil (passed : ℕ) : Templated a passed [] [] []
  | keep {passed : ℕ} {c : Char} {s t : Text} {found : List Regex.Found}
      (plain : ¬ OpensVariable a (c :: s)) (tail : Templated a (passed + 1) s found t) :
      Templated a passed (c :: s) found (c :: t)
  | replace {passed : ℕ} (v : TemplateVariable a) {s t : Text} {found : List Regex.Found}
      (tail : Templated a (passed + v.text.length) s found t) :
      Templated a passed (v.text ++ s)
        (⟨passed, passed + v.text.length, [(1, v.name)]⟩ :: found) (v.placeholder ++ t)

theorem TemplateVariable.text_ne_nil (v : TemplateVariable a) :
  v.text ≠ []
  := List.cons_ne_nil _ _

theorem templated_subFrom (before : Option Char) (passed : ℕ) (s : Text) :
  Templated a passed s (Regex.matchesFrom (templateVariable a) 0 before passed s)
    (Regex.subFrom (templateVariable a) placeholderFor 0 before passed s)
  := by
  induction hlength : s.length using Nat.strong_induction_on generalizing before passed s with
  | _ n ih =>
      subst hlength
      cases s with
      | nil =>
          have hnone : Regex.tryAt (templateVariable a) ⟨before, passed, [], []⟩ = none := by
            apply tryAt_of_not_opensVariable
            rintro ⟨v, rest, h⟩
            exact v.text_ne_nil (List.append_eq_nil_iff.mp h.symm).1
          rw [Regex.matchesFrom, Regex.subFrom, hnone]
          apply Templated.nil
      | cons c s =>
          cases htry : Regex.tryAt (templateVariable a) ⟨before, passed, c :: s, []⟩ with
          | none =>
              rw [Regex.matchesFrom_of_tryAt_none htry, Regex.subFrom_of_tryAt_none htry]
              apply Templated.keep
              · rintro ⟨v, rest, h⟩
                exact tryAt_templateVariable_ne_none v (p := ⟨before, passed, c :: s, []⟩) h htry
              · apply ih s.length (Nat.lt_succ_self _) _ _ _ rfl
          | some q =>
              obtain ⟨v, hread, hgroups⟩ := templateVariable_of_tryAt htry
              have hsplit : c :: s = v.text ++ q.rest := hread.rest
              rw [hsplit] at htry ⊢
              rw [Regex.matchesFrom_of_tryAt v.text_ne_nil htry hread.passed,
                Regex.subFrom_of_tryAt v.text_ne_nil htry hread.passed, hgroups]
              have hplaceholder : placeholderFor ⟨passed, passed + v.text.length, [(1, v.name)]⟩
                  = v.placeholder := by
                rw [placeholderFor, TemplateVariable.placeholder, Nat.add_sub_cancel_left]
                rfl
              rw [hplaceholder]
              apply Templated.replace
              apply ih q.rest.length _ _ _ _ rfl
              rw [hsplit, List.length_append]
              exact Nat.lt_add_of_pos_left (List.length_pos_of_ne_nil v.text_ne_nil)

theorem templated_normalizeTemplateVariables (a : Alphabet) (sql : Text) :
  Templated a 0 sql (Regex.finditer (templateVariable a) sql 0) (normalizeTemplateVariables a sql)
  := templated_subFrom none 0 sql

/-! ### Positions -/

namespace Templated

variable {passed : ℕ} {s t : Text} {found : List Regex.Found}

theorem length_eq (h : Templated a passed s found t) :
  t.length = s.length
  := by
  induction h with
  | nil => rfl
  | keep _ _ ih => rw [List.length_cons, List.length_cons, ih]
  | replace v _ ih => rw [List.length_append, List.length_append, ih, v.length_placeholder]

/-- A character outside every match stays as it is. -/
theorem getElem?_of_outside (h : Templated a passed s found t) {i : ℕ}
    (hi : ∀ m ∈ found, ¬ (m.start ≤ passed + i ∧ passed + i < m.stop)) :
  t[i]? = s[i]?
  := by
  induction h generalizing i with
  | nil => rfl
  | keep _ _ ih =>
      cases i with
      | zero => rfl
      | succ i =>
          rw [List.getElem?_cons_succ, List.getElem?_cons_succ]
          apply ih
          intro m hm
          rw [Nat.add_assoc, Nat.add_comm 1 i]
          exact hi m hm
  | @replace passed v s t found _ ih =>
      rcases Nat.lt_or_ge i v.text.length with hlt | hge
      · exact absurd ⟨Nat.le_add_right _ _, Nat.add_lt_add_left hlt _⟩
          (hi _ List.mem_cons_self)
      · rw [List.getElem?_append_right hge,
          List.getElem?_append_right (v.length_placeholder.symm ▸ hge), v.length_placeholder]
        apply ih
        intro m hm
        have hout := hi m (List.mem_cons_of_mem _ hm)
        have hpos : passed + v.text.length + (i - v.text.length) = passed + i := by omega
        rw [hpos]
        exact hout

end Templated

/-- Where the newlines of a text are. -/
def newlines (s : Text) : List Bool := s.map (· == '\n')

theorem newlines_append_inj {u v s t : Text} (h : u.length = v.length) :
  newlines (u ++ s) = newlines (v ++ t) ↔ newlines u = newlines v ∧ newlines s = newlines t
  := by
  rw [newlines, newlines, List.map_append, List.map_append]
  constructor
  · intro heq
    apply List.append_inj heq
    rw [List.length_map, List.length_map, h]
  · rintro ⟨hu, hs⟩
    exact congrArg₂ (· ++ ·) hu hs

/-- Two texts have their newlines at the same positions. -/
theorem newlines_eq_iff {s t : Text} (h : s.length = t.length) :
  newlines s = newlines t ↔ ∀ i : ℕ, s[i]? = some '\n' ↔ t[i]? = some '\n'
  := by
  constructor
  · intro heq i
    have hi := congrArg (fun l : List Bool => l[i]?) heq
    simp only [newlines, List.getElem?_map] at hi
    cases hs : s[i]? with
    | none =>
        rw [hs, Option.map_none, eq_comm, Option.map_eq_none_iff] at hi
        rw [hi]
    | some c =>
        rw [hs, Option.map_some, eq_comm, Option.map_eq_some_iff] at hi
        obtain ⟨d, hd, hcd⟩ := hi
        rw [hd, Option.some.injEq, Option.some.injEq, ← beq_iff_eq, ← beq_iff_eq (b := '\n'), hcd]
  · intro hsame
    apply List.ext_getElem?
    intro i
    simp only [newlines, List.getElem?_map]
    have hi := hsame i
    rcases Nat.lt_or_ge i s.length with hlt | hge
    · rw [List.getElem?_eq_getElem hlt, List.getElem?_eq_getElem (h ▸ hlt)] at hi ⊢
      rw [Option.some.injEq, Option.some.injEq] at hi
      rw [Option.map_some, Option.map_some, Option.some.injEq, Bool.eq_iff_iff, beq_iff_eq,
        beq_iff_eq, hi]
    · rw [List.getElem?_eq_none hge, List.getElem?_eq_none (h ▸ hge)]

theorem isNameChar_ne {c d : Char} (h : isNameChar a c = true) (hascii : d.toNat < 128)
    (hword : (d.isAlphanum || d == '_') = false) (hsign : d ∉ "$#".toList) :
  c ≠ d
  := by
  rintro rfl
  rw [isNameChar, a.not_isWord_of_ascii hascii hword, Bool.false_or, List.contains_iff_mem] at h
  exact hsign h

theorem newlines_placeholder (v : TemplateVariable a) :
  newlines v.placeholder = List.replicate v.text.length false
  := by
  apply List.eq_replicate_iff.mpr
  constructor
  · rw [newlines, List.length_map, v.length_placeholder]
  · intro b hb
    obtain ⟨c, hc, rfl⟩ := List.mem_map.mp hb
    apply beq_false_of_ne
    rw [v.placeholder_eq] at hc
    rcases List.mem_cons.mp hc with rfl | hc
    · decide
    rcases List.mem_append.mp hc with hc | hc
    · exact isNameChar_ne (v.isNameChar_name c hc) (by decide) (by decide) (by decide)
    · rw [List.eq_of_mem_replicate hc]
      decide

/-- A placeholder keeps the newlines of its variable when the variable has none. -/
theorem newlines_placeholder_eq_iff (v : TemplateVariable a) :
  newlines v.placeholder = newlines v.text ↔ '\n' ∉ v.text
  := by
  rw [newlines_placeholder, eq_comm, List.eq_replicate_iff]
  constructor
  · rintro ⟨-, hall⟩ hmem
    have hfalse := hall _ (List.mem_map_of_mem (f := (· == '\n')) hmem)
    rw [beq_self_eq_true] at hfalse
    cases hfalse
  · intro hnot
    refine ⟨List.length_map _, ?_⟩
    intro b hb
    obtain ⟨c, hc, rfl⟩ := List.mem_map.mp hb
    apply beq_false_of_ne
    rintro rfl
    exact hnot hc

/-- The newlines stay where they are exactly when no match has one. -/
theorem Templated.newlines_eq_iff {passed : ℕ} {s t : Text} {found : List Regex.Found}
    (h : Templated a passed s found t) (before : Text) (hbefore : before.length = passed) :
  newlines t = newlines s ↔ ∀ m ∈ found, '\n' ∉ m.read (before ++ s)
  := by
  induction h generalizing before with
  | nil => simp [newlines]
  | @keep passed c s t found _ _ ih =>
      have hnext := ih (before ++ [c]) (by rw [List.length_append, hbefore]; rfl)
      rw [List.append_assoc, List.singleton_append] at hnext
      rw [← hnext, newlines, newlines, List.map_cons, List.map_cons, List.cons.injEq]
      exact and_iff_right rfl
  | @replace passed v s t found _ ih =>
      have hnext := ih (before ++ v.text) (by rw [List.length_append, hbefore])
      rw [List.append_assoc] at hnext
      have hread : Regex.Found.read ⟨passed, passed + v.text.length, [(1, v.name)]⟩
          (before ++ (v.text ++ s)) = v.text := by
        rw [Regex.Found.read, ← hbefore, List.drop_left, Nat.add_sub_cancel_left, List.take_left]
      rw [newlines_append_inj v.length_placeholder, newlines_placeholder_eq_iff, hnext,
        List.forall_mem_cons, hread]

/-! ### Texts without variables -/

/-- No variable begins anywhere in a text. -/
def Plain (a : Alphabet) (t : Text) : Prop := ∀ rest, rest <:+ t → ¬ OpensVariable a rest

/-- A text without variables stays as it is. -/
theorem Templated.eq_of_plain {passed : ℕ} {s t : Text} {found : List Regex.Found}
    (h : Templated a passed s found t) (hplain : Plain a s) :
  t = s
  := by
  induction h with
  | nil => rfl
  | @keep passed c s t found _ _ ih =>
      rw [ih (fun rest hrest => hplain rest (hrest.trans (List.suffix_cons c s)))]
  | replace v _ _ => exact absurd ⟨v, _, rfl⟩ (hplain _ List.suffix_rfl)

theorem TemplateVariable.colon_notMem_text (v : TemplateVariable a) :
  ':' ∉ v.text
  := by
  intro h
  have hspace : ∀ c : Char, isSpace c = true → ':' ≠ c := by
    rintro _ hc rfl
    revert hc
    decide
  rcases List.mem_cons.mp h with h | h
  · revert h
    decide
  rcases List.mem_cons.mp h with h | h
  · revert h
    decide
  rcases List.mem_append.mp h with h | h
  · exact hspace _ (v.isSpace_before _ h) rfl
  rcases List.mem_append.mp h with h | h
  · exact isNameChar_ne (d := ':') (v.isNameChar_name _ h) (by decide) (by decide) (by decide) rfl
  rcases List.mem_append.mp h with h | h
  · exact hspace _ (v.isSpace_after _ h) rfl
  · revert h
    decide

/-- What a text with placeholders begins with, up to a colon, is there from the beginning. -/
theorem Templated.exists_append {passed : ℕ} {s t : Text} {found : List Regex.Found}
    (h : Templated a passed s found t) {w rest : Text} (ht : t = w ++ rest) (hw : ':' ∉ w) :
  ∃ rest', s = w ++ rest'
  := by
  induction h generalizing w with
  | nil =>
      obtain ⟨rfl, -⟩ := List.append_eq_nil_iff.mp ht.symm
      exact ⟨[], rfl⟩
  | @keep passed c s t found _ _ ih =>
      cases w with
      | nil => exact ⟨_, rfl⟩
      | cons d w =>
          obtain ⟨rfl, htail⟩ := List.cons.inj ht
          obtain ⟨rest', rfl⟩ := ih htail (fun hmem => hw (List.mem_cons_of_mem _ hmem))
          exact ⟨rest', rfl⟩
  | replace v _ _ =>
      cases w with
      | nil => exact ⟨_, rfl⟩
      | cons d w =>
          rw [v.placeholder_eq] at ht
          obtain ⟨rfl, -⟩ := List.cons.inj ht
          exact absurd List.mem_cons_self hw

/-- A text in which nothing opens, before a text without variables. -/
theorem Plain.append {u t : Text} (ht : Plain a t) (hbrace : '{' ∉ u)
    (hlast : u.getLast? ≠ some '$') :
  Plain a (u ++ t)
  := by
  induction u with
  | nil => exact ht
  | cons c u ih =>
      intro rest hrest
      rcases List.suffix_cons_iff.mp hrest with rfl | hrest
      · rintro ⟨v, rest', hsplit⟩
        obtain ⟨rfl, hnext⟩ := List.cons.inj hsplit
        cases u with
        | nil => exact hlast rfl
        | cons d u =>
            obtain ⟨rfl, -⟩ := List.cons.inj hnext
            exact hbrace (List.mem_cons_of_mem _ List.mem_cons_self)
      · apply ih (fun h => hbrace (List.mem_cons_of_mem _ h)) _ rest hrest
        intro h
        apply hlast
        cases u with
        | nil => cases h
        | cons d u => rw [List.getLast?_cons_cons, h]

theorem plain_placeholder_append (v : TemplateVariable a) {t : Text} (ht : Plain a t) :
  Plain a (v.placeholder ++ t)
  := by
  rw [v.placeholder_eq]
  apply ht.append
  · intro h
    rcases List.mem_cons.mp h with h | h
    · revert h
      decide
    rcases List.mem_append.mp h with h | h
    · exact isNameChar_ne (d := '{') (v.isNameChar_name _ h) (by decide) (by decide) (by decide) rfl
    · cases List.eq_of_mem_replicate h
  · rw [← List.cons_append, List.getLast?_append_of_ne_nil, List.replicate_succ',
      List.getLast?_concat]
    · decide
    · rw [List.replicate_succ]
      exact List.cons_ne_nil _ _

/-- A text with placeholders has no variables. -/
theorem Templated.plain {passed : ℕ} {s t : Text} {found : List Regex.Found}
    (h : Templated a passed s found t) :
  Plain a t
  := by
  induction h with
  | nil =>
      intro rest hrest
      rintro ⟨v, rest', rfl⟩
      have hnil := List.suffix_nil.mp hrest
      exact v.text_ne_nil (List.append_eq_nil_iff.mp hnil).1
  | @keep passed c s t found plain tail ih =>
      intro rest hrest
      rcases List.suffix_cons_iff.mp hrest with rfl | hrest
      · rintro ⟨v, rest', hsplit⟩
        apply plain
        have hcolon := v.colon_notMem_text
        rw [TemplateVariable.text, List.cons_append] at hsplit
        obtain ⟨rfl, htail⟩ := List.cons.inj hsplit
        obtain ⟨rest'', rfl⟩ := tail.exists_append htail
          (fun h => hcolon (List.mem_cons_of_mem _ h))
        exact ⟨v, rest'', rfl⟩
      · exact ih rest hrest
  | replace v _ ih => exact plain_placeholder_append v ih

/-! ### What normalisation keeps -/

/-- A text is as long as before, has its newlines where they were and every other character outside
the matches too, and stays as it is from then on. -/
structure KeepsPositions (a : Alphabet) (sql : Text) : Prop where
  length_eq : (normalizeTemplateVariables a sql).length = sql.length
  newlines : ∀ i : ℕ, (normalizeTemplateVariables a sql)[i]? = some '\n' ↔ sql[i]? = some '\n'
  outside : ∀ i : ℕ, (∀ m ∈ Regex.finditer (templateVariable a) sql 0,
      ¬ (m.start ≤ i ∧ i < m.stop)) →
    (normalizeTemplateVariables a sql)[i]? = sql[i]?
  idempotent : normalizeTemplateVariables a (normalizeTemplateVariables a sql)
    = normalizeTemplateVariables a sql

/-- Normalisation keeps the positions in a text exactly when no variable of the text has a newline
between its braces. -/
theorem keepsPositions_iff (a : Alphabet) (sql : Text) :
  KeepsPositions a sql
    ↔ ∀ m ∈ Regex.finditer (templateVariable a) sql 0, '\n' ∉ m.read sql
  := by
  have h := templated_normalizeTemplateVariables a sql
  have hread := h.newlines_eq_iff [] rfl
  rw [List.nil_append] at hread
  rw [← hread, newlines_eq_iff h.length_eq]
  constructor
  · intro hkeeps
    exact hkeeps.newlines
  · intro hnewlines
    refine ⟨h.length_eq, hnewlines, ?_, ?_⟩
    · intro i hi
      apply h.getElem?_of_outside
      rw [Nat.zero_add]
      exact hi
    · exact (templated_normalizeTemplateVariables a _).eq_of_plain h.plain

/-- A variable over two lines loses its newline. -/
theorem not_keepsPositions_brokenVariable :
  ¬ KeepsPositions asciiAlphabet "SELECT $\x7b\nday\x7d FROM t".toList
  := by
  intro h
  have hnewline := (h.newlines 9).mpr (by decide)
  revert hnewline
  decide

end Variables

end Lineage

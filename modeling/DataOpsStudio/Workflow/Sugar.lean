import DataOpsStudio.Library.Templates
import DataOpsStudio.Workflow.Names

/-!
# The sugar of conditions

The sugar of a condition is rewritten by six rules in turn.  No rule sees past a character that is
no word character and no part of an operator, so the rewriting is cut at such characters; each
replacement weighs more than what it replaces, so a text is left alone exactly when it has no
sugar.  An identifier that stands alone is left alone unless it is one of the three constants.
-/

namespace Workflow

open Text

/-- Which ASCII characters are word characters. -/
def WhenRuntime.ReadsWords (rt : WhenRuntime) : Prop :=
  ∀ c : Char, c.toNat < 128 → rt.isWord c = (c.isAlphanum || c == '_')

/-! ### The rules -/

/-- Replaces a text wherever it stands. -/
def replaceRule (old new : Text) : Rule :=
  fun _ t => if old.isPrefixOf t then some (old.length, new) else none

/-- Replaces `!`, unless it is part of a comparison. -/
def bangRule : Rule :=
  fun before t =>
    match t with
    | '!' :: rest =>
        if (before.map (fun c => ['=', '!', '<', '>'].contains c)).getD false then none
        else if rest.head? = some '=' then none
        else some (1, " not ".toList)
    | _ => none

section Rules

variable (rt : WhenRuntime)

/-- Replaces a word where it stands alone. -/
def wordRule (word replacement : Text) : Rule :=
  fun before t =>
    if word.isPrefixOf t && !(before.map rt.isWord).getD false
        && !((t.drop word.length).head?.map rt.isWord).getD false then
      some (word.length, replacement)
    else none

/-- The rules, in the order in which they are applied. -/
def sugarRules : List Rule :=
  [replaceRule "&&".toList " and ".toList, replaceRule "||".toList " or ".toList, bangRule,
    wordRule rt "null".toList "None".toList, wordRule rt "true".toList "True".toList,
    wordRule rt "false".toList "False".toList]

theorem sugared_eq_rewriteAll (s : Text) :
  sugared rt s = rewriteAll (sugarRules rt) s
  := rfl

end Rules

/-! ### Where the rewriting is cut -/

section Cuts

variable {rt : WhenRuntime}

theorem prefix_append_cons_iff {old u s : Text} {c : Char} (hc : c ∉ old) :
  old <+: u ++ c :: s ↔ old <+: u
  := by
  constructor
  · intro h
    by_cases hlength : old.length ≤ u.length
    · exact List.prefix_of_prefix_length_le h (List.prefix_append u (c :: s)) hlength
    · have hsplit : u ++ [c] <+: u ++ c :: s := ⟨s, by rw [List.append_assoc]; rfl⟩
      have hu : u ++ [c] <+: old := by
        apply List.prefix_of_prefix_length_le hsplit h
        rw [List.length_append, List.length_singleton]
        omega
      exact absurd (hu.subset (List.mem_append_right _ List.mem_cons_self)) hc
  · intro h
    exact h.trans (List.prefix_append u _)

theorem isPrefixOf_append_cons {old : Text} (u s : Text) {c : Char} (hc : c ∉ old) :
  old.isPrefixOf (u ++ c :: s) = old.isPrefixOf u
  := by
  rw [Bool.eq_iff_iff, List.isPrefixOf_iff_prefix, List.isPrefixOf_iff_prefix,
    prefix_append_cons_iff hc]

theorem not_isPrefixOf_cons {old : Text} {c : Char} (hc : c ∉ old) (hold : old ≠ []) (s : Text) :
  old.isPrefixOf (c :: s) = false
  := by
  obtain ⟨d, old, rfl⟩ := List.exists_cons_of_ne_nil hold
  have hne : (d == c) = false := by
    rw [beq_eq_false_iff_ne]
    rintro rfl
    exact hc List.mem_cons_self
  rw [List.isPrefixOf, hne, Bool.false_and]

theorem cuts_replaceRule {old : Text} (new : Text) {c : Char} (hc : c ∉ old) (hold : old ≠ []) :
  Cuts (replaceRule old new) c
  where
  idle _ s := by
    rw [replaceRule, not_isPrefixOf_cons hc hold]
    rfl
  ends _ d u s := by rw [replaceRule, isPrefixOf_append_cons (d :: u) s hc, replaceRule]
  short _ d u length replacement h := by
    rw [replaceRule] at h
    split at h
    · rename_i hprefix
      obtain ⟨rfl, -⟩ := Prod.mk.inj (Option.some.inj h)
      exact (List.isPrefixOf_iff_prefix.mp hprefix).length_le
    · cases h
  begins _ := rfl

theorem cuts_bangRule {c : Char} (hc : c ∉ ['=', '!', '<', '>']) :
  Cuts bangRule c
  where
  idle before s := by
    unfold bangRule
    split
    · rename_i heq
      obtain ⟨rfl, -⟩ := List.cons.inj heq
      exact absurd (by decide) hc
    · rfl
  ends before d u s := by
    have hne : c ≠ '=' := fun heq => hc (heq ▸ List.mem_cons_self)
    cases u with
    | nil =>
        by_cases hd : d = '!'
        · subst hd
          simp [bangRule, hne]
        · unfold bangRule
          simp [hd]
    | cons e u =>
        by_cases hd : d = '!'
        · subst hd
          rfl
        · unfold bangRule
          simp [hd]
  short before d u length replacement h := by
    unfold bangRule at h
    split at h
    · split at h
      · cases h
      · split at h
        · cases h
        · obtain ⟨rfl, -⟩ := Prod.mk.inj (Option.some.inj h)
          exact Nat.le_add_left _ _
    · cases h
  begins s := by
    have hcontains : ['=', '!', '<', '>'].contains c = false := by
      rw [Bool.eq_false_iff]
      intro h
      exact hc (List.contains_iff_mem.mp h)
    unfold bangRule
    simp only [Option.map_some, hcontains, Option.getD_some, Option.map_none, Option.getD_none]

theorem cuts_wordRule {word : Text} (replacement : Text) {c : Char} (hc : c ∉ word)
    (hword : word ≠ []) (hisWord : rt.isWord c = false) :
  Cuts (wordRule rt word replacement) c
  where
  idle before s := by
    rw [wordRule, not_isPrefixOf_cons hc hword]
    rfl
  ends before d u s := by
    rw [wordRule, wordRule, isPrefixOf_append_cons (d :: u) s hc]
    by_cases hstarts : word.isPrefixOf (d :: u) = true
    · obtain ⟨t, ht⟩ := List.isPrefixOf_iff_prefix.mp hstarts
      rw [← ht, List.append_assoc, List.drop_left, List.drop_left]
      cases t with
      | nil => simp [hisWord]
      | cons e t => rfl
    · rw [Bool.not_eq_true] at hstarts
      simp only [hstarts, Bool.false_and]
  short before d u length replacement h := by
    rw [wordRule] at h
    split at h
    · rename_i hfires
      obtain ⟨rfl, -⟩ := Prod.mk.inj (Option.some.inj h)
      rw [Bool.and_eq_true, Bool.and_eq_true, List.isPrefixOf_iff_prefix] at hfires
      exact hfires.1.1.length_le
    · cases h
  begins s := by
    unfold wordRule
    simp only [Option.map_some, hisWord, Option.getD_some, Option.map_none, Option.getD_none]

/-- A character that no rule sees past. -/
def Barrier (c : Char) : Prop :=
  c.toNat < 128 ∧ c.isAlphanum = false ∧ c ∉ "_&|!=<>".toList

instance (c : Char) : Decidable (Barrier c) := inferInstanceAs (Decidable (_ ∧ _ ∧ _))

/-- No rule sees past a barrier. -/
theorem cuts_sugarRules (hw : rt.ReadsWords) {c : Char} (hc : Barrier c) :
  ∀ rule ∈ sugarRules rt, Cuts rule c
  := by
  obtain ⟨hascii, halnum, hsigns⟩ := hc
  have hne : ∀ d ∈ "_&|!=<>".toList, c ≠ d := fun d hd heq => hsigns (heq ▸ hd)
  have hisWord : rt.isWord c = false := by
    rw [hw c hascii, halnum, Bool.false_or, beq_eq_false_iff_ne]
    exact hne '_' (by decide)
  have hletters : ∀ word : Text, (∀ d ∈ word, d.isAlphanum = true) → c ∉ word := by
    intro word hword hmem
    have hletter := hword c hmem
    rw [halnum] at hletter
    cases hletter
  intro rule hrule
  simp only [sugarRules, List.mem_cons, List.not_mem_nil, or_false] at hrule
  obtain rfl | rfl | rfl | rfl | rfl | rfl := hrule
  · apply cuts_replaceRule _ _ (by decide)
    simpa using hne '&' (by decide)
  · apply cuts_replaceRule _ _ (by decide)
    simpa using hne '|' (by decide)
  · apply cuts_bangRule
    intro hmem
    exact hsigns ((by decide : ['=', '!', '<', '>'] ⊆ "_&|!=<>".toList) hmem)
  · exact cuts_wordRule _ (hletters _ (by decide)) (by decide) hisWord
  · exact cuts_wordRule _ (hletters _ (by decide)) (by decide) hisWord
  · exact cuts_wordRule _ (hletters _ (by decide)) (by decide) hisWord

/-- The sugar on the two sides of a barrier is rewritten apart. -/
theorem sugared_cut (hw : rt.ReadsWords) {c : Char} (hc : Barrier c) (u s : Text) :
  sugared rt (u ++ c :: s) = sugared rt u ++ c :: sugared rt s
  := rewriteAll_cut (cuts_sugarRules hw hc) u s

end Cuts

/-! ### Texts without sugar -/

/-- A text in which nothing is rewritten: it has neither of the operators, every exclamation mark
in it is part of a comparison, and none of the three constants stands alone in it. -/
structure SugarFree (rt : WhenRuntime) (s : Text) : Prop where
  conjunction : ¬ "&&".toList <:+: s
  disjunction : ¬ "||".toList <:+: s
  negation : ∀ u t, s = u ++ '!' :: t →
    (∃ c ∈ u.getLast?, c ∈ ['=', '!', '<', '>']) ∨ t.head? = some '='
  constants : ∀ word ∈ ["null", "true", "false"].map String.toList, ∀ u t, s = u ++ word ++ t →
    (∃ c ∈ u.getLast?, rt.isWord c = true) ∨ ∃ c ∈ t.head?, rt.isWord c = true

section SugarFree

variable {rt : WhenRuntime} {s : Text}

theorem not_fires_replaceRule_iff {old : Text} (new : Text) (hold : old ≠ []) :
  ¬ Fires (replaceRule old new) none s ↔ ¬ old <:+: s
  := by
  apply not_congr
  constructor
  · rintro ⟨u, t, rfl, -, hfires⟩
    rw [replaceRule] at hfires
    split at hfires
    · rename_i hprefix
      exact (List.isPrefixOf_iff_prefix.mp hprefix).isInfix.trans (List.suffix_append u t).isInfix
    · exact absurd rfl hfires
  · rintro ⟨u, t, rfl⟩
    refine ⟨u, old ++ t, List.append_assoc u old t, ?_, ?_⟩
    · exact fun h => hold (List.append_eq_nil_iff.mp h).1
    · rw [replaceRule, if_pos (List.isPrefixOf_iff_prefix.mpr (List.prefix_append old t))]
      exact Option.some_ne_none _

theorem not_fires_bangRule_iff :
  ¬ Fires bangRule none s ↔ ∀ u t, s = u ++ '!' :: t →
    (∃ c ∈ u.getLast?, c ∈ ['=', '!', '<', '>']) ∨ t.head? = some '='
  := by
  constructor
  · intro h u t hsplit
    by_contra hnot
    rw [not_or] at hnot
    apply h
    refine ⟨u, '!' :: t, hsplit, List.cons_ne_nil _ _, ?_⟩
    have hbefore :
        (u.getLast?.map (fun c => ['=', '!', '<', '>'].contains c)).getD false = false := by
      cases hlast : u.getLast? with
      | none => rfl
      | some c =>
          rw [Option.map_some, Option.getD_some, Bool.eq_false_iff]
          intro hc
          exact hnot.1 ⟨c, hlast, List.contains_iff_mem.mp hc⟩
    rw [Option.or_none, bangRule]
    simp only [hbefore, Bool.false_eq_true, if_false, hnot.2]
    exact Option.some_ne_none _
  · rintro h ⟨u, t, hsplit, -, hfires⟩
    rw [Option.or_none] at hfires
    unfold bangRule at hfires
    split at hfires
    · rename_i rest
      split at hfires
      · exact hfires rfl
      · rename_i hbefore
        split at hfires
        · exact hfires rfl
        · rename_i hafter
          obtain ⟨c, hlast, hc⟩ | heq := h u rest hsplit
          · apply hbefore
            rw [Option.mem_def.mp hlast, Option.map_some, Option.getD_some]
            exact List.contains_iff_mem.mpr hc
          · exact hafter heq
    · exact hfires rfl

theorem not_isWord_getD_iff {c? : Option Char} :
  (c?.map rt.isWord).getD false = false ↔ ¬ ∃ c ∈ c?, rt.isWord c = true
  := by
  cases c? with
  | none => simp
  | some c => simp

theorem not_fires_wordRule_iff {word : Text} (replacement : Text) (hword : word ≠ []) :
  ¬ Fires (wordRule rt word replacement) none s ↔ ∀ u t, s = u ++ word ++ t →
    (∃ c ∈ u.getLast?, rt.isWord c = true) ∨ ∃ c ∈ t.head?, rt.isWord c = true
  := by
  constructor
  · intro h u t hsplit
    by_contra hnot
    rw [not_or] at hnot
    apply h
    refine ⟨u, word ++ t, by rw [hsplit, List.append_assoc], ?_, ?_⟩
    · exact fun h => hword (List.append_eq_nil_iff.mp h).1
    · have hprefix := List.isPrefixOf_iff_prefix.mpr (List.prefix_append word t)
      rw [wordRule, List.drop_left, hprefix, Option.or_none, not_isWord_getD_iff.mpr hnot.1,
        not_isWord_getD_iff.mpr hnot.2]
      exact Option.some_ne_none _
  · rintro h ⟨u, t, hsplit, -, hfires⟩
    rw [Option.or_none, wordRule] at hfires
    split at hfires
    · rename_i hfire
      rw [Bool.and_eq_true, Bool.and_eq_true, Bool.not_eq_true', Bool.not_eq_true',
        List.isPrefixOf_iff_prefix, not_isWord_getD_iff, not_isWord_getD_iff] at hfire
      obtain ⟨⟨⟨t, rfl⟩, hbefore⟩, hafter⟩ := hfire
      rw [List.drop_left] at hafter
      exact (h u t (by rw [hsplit, List.append_assoc])).elim hbefore hafter
    · exact hfires rfl

theorem sugarFree_iff :
  SugarFree rt s ↔ ∀ rule ∈ sugarRules rt, ¬ Fires rule none s
  := by
  constructor
  · intro h rule hrule
    simp only [sugarRules, List.mem_cons, List.not_mem_nil, or_false] at hrule
    obtain rfl | rfl | rfl | rfl | rfl | rfl := hrule
    · exact (not_fires_replaceRule_iff _ (by decide)).mpr h.conjunction
    · exact (not_fires_replaceRule_iff _ (by decide)).mpr h.disjunction
    · exact not_fires_bangRule_iff.mpr h.negation
    · exact (not_fires_wordRule_iff _ (by decide)).mpr (h.constants _ (by decide))
    · exact (not_fires_wordRule_iff _ (by decide)).mpr (h.constants _ (by decide))
    · exact (not_fires_wordRule_iff _ (by decide)).mpr (h.constants _ (by decide))
  · intro h
    simp only [sugarRules, List.forall_mem_cons] at h
    obtain ⟨hand, hor, hbang, hnull, htrue, hfalse, -⟩ := h
    refine ⟨(not_fires_replaceRule_iff _ (by decide)).mp hand,
      (not_fires_replaceRule_iff _ (by decide)).mp hor, not_fires_bangRule_iff.mp hbang, ?_⟩
    intro word hmem
    simp only [List.map_cons, List.map_nil, List.mem_cons, List.not_mem_nil, or_false] at hmem
    obtain rfl | rfl | rfl := hmem
    · exact (not_fires_wordRule_iff _ (by decide)).mp hnull
    · exact (not_fires_wordRule_iff _ (by decide)).mp htrue
    · exact (not_fires_wordRule_iff _ (by decide)).mp hfalse

/-- The weight of a character: a capital letter that begins a constant counts twice. -/
def sugarWeight (c : Char) : ℕ := if c ∈ ['N', 'T', 'F'] then 2 else 1

theorem gains_sugarRules :
  ∀ rule ∈ sugarRules rt, Gains sugarWeight rule
  := by
  have hreplace : ∀ {old new : Text}, 0 < old.length →
      weight sugarWeight old < weight sugarWeight new → ∀ {t : Text}, old.isPrefixOf t = true →
      0 < old.length ∧ weight sugarWeight (t.take old.length) < weight sugarWeight new := by
    intro old new hpos hlt t hprefix
    rw [← List.prefix_iff_eq_take.mp (List.isPrefixOf_iff_prefix.mp hprefix)]
    exact ⟨hpos, hlt⟩
  have hreplaceRule : ∀ {old new : Text}, 0 < old.length →
      weight sugarWeight old < weight sugarWeight new →
      Gains sugarWeight (replaceRule old new) := by
    intro old new hpos hlt before c s length replacement h
    rw [replaceRule] at h
    split at h
    · rename_i hprefix
      obtain ⟨rfl, rfl⟩ := Prod.mk.inj (Option.some.inj h)
      exact hreplace hpos hlt hprefix
    · cases h
  have hwordRule : ∀ {word replacement : Text}, 0 < word.length →
      weight sugarWeight word < weight sugarWeight replacement →
      Gains sugarWeight (wordRule rt word replacement) := by
    intro word new hpos hlt before c s length replacement h
    rw [wordRule] at h
    split at h
    · rename_i hfires
      obtain ⟨rfl, rfl⟩ := Prod.mk.inj (Option.some.inj h)
      rw [Bool.and_eq_true, Bool.and_eq_true] at hfires
      exact hreplace hpos hlt hfires.1.1
    · cases h
  intro rule hrule
  simp only [sugarRules, List.mem_cons, List.not_mem_nil, or_false] at hrule
  obtain rfl | rfl | rfl | rfl | rfl | rfl := hrule
  · exact hreplaceRule (by decide) (by decide)
  · exact hreplaceRule (by decide) (by decide)
  · intro before c s length replacement h
    unfold bangRule at h
    split at h
    · rename_i rest heq
      split at h
      · cases h
      · split at h
        · cases h
        · obtain ⟨rfl, rfl⟩ := Prod.mk.inj (Option.some.inj h)
          rw [heq]
          change 0 < 1 ∧ weight sugarWeight ['!'] < _
          decide
    · cases h
  · exact hwordRule (by decide) (by decide)
  · exact hwordRule (by decide) (by decide)
  · exact hwordRule (by decide) (by decide)

/-- A text is left alone exactly when it has no sugar. -/
theorem sugared_eq_self_iff :
  sugared rt s = s ↔ SugarFree rt s
  := by rw [sugared_eq_rewriteAll, rewriteAll_eq_self_iff gains_sugarRules, sugarFree_iff]

end SugarFree

/-! ### What is put in -/

section Replacements

variable {rt : WhenRuntime}

/-- The texts that are put in for sugar. -/
def sugarReplacements : List Text :=
  [" and ", " or ", " not ", "None", "True", "False"].map String.toList

theorem mem_sugarReplacements {rule : Rule} (hrule : rule ∈ sugarRules rt) {before : Option Char}
    {s replacement : Text} {length : ℕ} (h : rule before s = some (length, replacement)) :
  replacement ∈ sugarReplacements
  := by
  simp only [sugarRules, List.mem_cons, List.not_mem_nil, or_false] at hrule
  obtain rfl | rfl | rfl | rfl | rfl | rfl := hrule
  · rw [replaceRule] at h
    split at h
    · obtain ⟨-, rfl⟩ := Prod.mk.inj (Option.some.inj h)
      decide
    · cases h
  · rw [replaceRule] at h
    split at h
    · obtain ⟨-, rfl⟩ := Prod.mk.inj (Option.some.inj h)
      decide
    · cases h
  · unfold bangRule at h
    split at h
    · split at h
      · cases h
      · split at h
        · cases h
        · obtain ⟨-, rfl⟩ := Prod.mk.inj (Option.some.inj h)
          decide
    · cases h
  all_goals
    rw [wordRule] at h
    split at h
    · obtain ⟨-, rfl⟩ := Prod.mk.inj (Option.some.inj h)
      decide
    · cases h

/-- Rewriting keeps a property that every letter and the blank have. -/
theorem forall_mem_sugared {p : Char → Prop} (hp : ∀ c, c.isAlpha = true ∨ c = ' ' → p c)
    {s : Text} (hs : ∀ c ∈ s, p c) :
  ∀ c ∈ sugared rt s, p c
  := by
  rw [sugared_eq_rewriteAll]
  refine forall_mem_rewriteAll ?_ hs
  intro rule hrule before t length replacement h c hc
  have hletters : ∀ r ∈ sugarReplacements, ∀ c ∈ r, c.isAlpha = true ∨ c = ' ' := by decide
  exact hp c (hletters replacement (mem_sugarReplacements hrule h) c hc)

/-- Rewriting makes no placeholder. -/
theorem placeholders_sugared {s : Text} (h : placeholders s = []) :
  placeholders (sugared rt s) = []
  := by
  rw [sugared_eq_rewriteAll]
  refine placeholders_rewriteAll ?_ h
  intro rule hrule before t length replacement hfires
  have hplain : ∀ r ∈ sugarReplacements, r ≠ [] ∧ ∀ c ∈ r, c ≠ '$' ∧ c ≠ '{' ∧ c ≠ '}' := by
    decide
  exact hplain replacement (mem_sugarReplacements hrule hfires)

end Replacements

/-! ### Names -/

/-- The constants that are written differently in conditions and in the language. -/
def sugarConstants : List Text := ["null", "true", "false"].map String.toList

/-- The name that a placeholder of a condition is looked up by. -/
def whenName (name : Text) : Text :=
  if name = "null".toList then "None".toList
  else if name = "true".toList then "True".toList
  else if name = "false".toList then "False".toList
  else name

theorem whenName_of_not_mem {name : Text} (h : name ∉ sugarConstants) :
  whenName name = name
  := by
  simp only [sugarConstants, List.map_cons, List.map_nil, List.mem_cons, List.not_mem_nil,
    or_false, not_or] at h
  rw [whenName, if_neg h.1, if_neg h.2.1, if_neg h.2.2]

theorem whenName_ne {name : Text} (h : name ∈ sugarConstants) :
  whenName name ≠ name
  := by
  revert name
  decide

theorem isIdentifier_whenName {x : Text} (hx : isIdentifier x = true) :
  isIdentifier (whenName x) = true
  := by
  rw [whenName]
  split
  · rfl
  · split
    · rfl
    · split
      · rfl
      · exact hx

section Names

variable {rt : WhenRuntime} {x : Text}

theorem isWord_of_mem_identifier (hw : rt.ReadsWords) (hx : isIdentifier x = true) {c : Char}
    (hc : c ∈ x) :
  rt.isWord c = true
  := by
  obtain halnum | rfl := (forall_mem_identifier hx).2 c hc
  · have hascii : c.toNat < 128 := Nat.lt_of_le_of_lt (toNat_of_isAlphanum halnum).2 (by decide)
    rw [hw c hascii, halnum, Bool.true_or]
  · rw [hw '_' (by decide)]
    decide

theorem sugarFree_identifier (hw : rt.ReadsWords) (hx : isIdentifier x = true)
    (hconstant : x ∉ sugarConstants) :
  SugarFree rt x
  := by
  refine ⟨?_, ?_, ?_, ?_⟩
  · intro h
    exact not_mem_identifier hx (c := '&') (by decide) (by decide) (h.subset (by decide))
  · intro h
    exact not_mem_identifier hx (c := '|') (by decide) (by decide) (h.subset (by decide))
  · rintro u t rfl
    exact absurd (List.mem_append_right _ List.mem_cons_self)
      (not_mem_identifier hx (by decide) (by decide))
  · intro word hword u t hsplit
    by_cases hu : u = []
    · by_cases ht : t = []
      · rw [hu, ht, List.nil_append, List.append_nil] at hsplit
        exact absurd (hsplit ▸ hword) hconstant
      · right
        obtain ⟨c, t, rfl⟩ := List.exists_cons_of_ne_nil ht
        refine ⟨c, rfl, isWord_of_mem_identifier hw hx ?_⟩
        rw [hsplit]
        exact List.mem_append_right _ List.mem_cons_self
    · left
      refine ⟨u.getLast hu, List.getLast?_eq_some_getLast hu, isWord_of_mem_identifier hw hx ?_⟩
      rw [hsplit, List.append_assoc]
      exact List.mem_append_left _ (List.getLast_mem hu)

theorem sugared_identifier (hw : rt.ReadsWords) (hx : isIdentifier x = true) :
  sugared rt x = whenName x
  := by
  by_cases hconstant : x ∈ sugarConstants
  · simp only [sugarConstants, List.map_cons, List.map_nil, List.mem_cons, List.not_mem_nil,
      or_false] at hconstant
    obtain rfl | rfl | rfl := hconstant
    · rfl
    · rfl
    · rfl
  · rw [whenName_of_not_mem hconstant]
    exact sugared_eq_self_iff.mpr (sugarFree_identifier hw hx hconstant)

/-- A placeholder keeps its place when sugar is rewritten, and its name unless it is a
constant. -/
theorem sugared_placeholder (hw : rt.ReadsWords) (hx : isIdentifier x = true) (u s : Text) :
  sugared rt (u ++ placeholderOf x ++ s)
    = sugared rt u ++ placeholderOf (whenName x) ++ sugared rt s
  := by
  have hsplit : u ++ placeholderOf x ++ s = u ++ '$' :: ([] ++ '{' :: (x ++ '}' :: s)) := by
    simp [placeholderOf]
  rw [hsplit, sugared_cut hw (by decide), sugared_cut hw (by decide), sugared_cut hw (by decide),
    sugared_identifier hw hx]
  change _ ++ '$' :: ([] ++ _) = _
  simp [placeholderOf]

end Names

end Workflow

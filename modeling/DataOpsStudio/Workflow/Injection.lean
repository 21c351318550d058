import DataOpsStudio.Library.Seams
import DataOpsStudio.Library.Templates
import DataOpsStudio.Workflow.Names

/-!
# What interpolation puts into a text

Every character of a rendered text comes from a place of the template or from the value of a
variable.  The values that the validator accepts have no quote, no semicolon, no slash and no
star, and no two dashes in a row, so what is rendered has such a token beyond those of the template
only where two pieces meet that did not stand side by side.
-/

namespace Workflow

open Text

section Origins

variable (vars : Variables)

/-- The value of a variable that is a text. -/
def scalarText (expression : Text) : Text :=
  match vars.get? (strip expression) with
  | some (.str v) => v
  | _ => []

/-- What a piece is rendered to. -/
def shownPiece : Piece → Text
  | .literal c => [c]
  | .placeholder expression => scalarText vars expression

/-- What a numbered piece is rendered to, each character with its place in the template, if it
comes from there. -/
def origin : ℕ × Piece → List (Char × Option ℕ)
  | (i, .literal c) => [(c, some i)]
  | (_, .placeholder expression) => (scalarText vars expression).map (fun c => (c, none))

/-- What a template is rendered to, each character with its place in the template, if it comes
from there. -/
def origins (template : Text) : List (Char × Option ℕ) :=
  (numbered 0 (pieces template)).flatMap (origin vars)

/-- Every occurrence of a token in what a template is rendered to is one in the template. -/
def OnlyFromTemplate (token template : Text) : Prop :=
  ∀ a b c, origins vars template = a ++ b ++ c → b.map Prod.fst = token →
    ∃ i, b.map Prod.snd = (List.range' i token.length).map some ∧ token <+: template.drop i

/-- The tokens that begin a comment, quote a text or end a statement. -/
def riskyTokens : List Text := ["--", "/*", "'", "\"", "`", ";"].map String.toList

/-- Interpolation puts none of the tokens into the text. -/
def InjectsNothing (template : Text) : Prop :=
  ∀ token ∈ riskyTokens, OnlyFromTemplate vars token template

/-- Two characters meet that do not stand side by side in the template: they are the last of one
piece and the first of a later one, with only empty values between them, and not two neighbouring
characters of the template. -/
def MeetAtSeam (template : Text) (c d : Char) : Prop :=
  ∃ p q between, AtSeam (shownPiece vars) (pieces template) c d p q between ∧
    ¬ (between = [] ∧ (∃ c, p = .literal c) ∧ ∃ d, q = .literal d)

end Origins

/-! ### What is rendered -/

section Rendered

variable {vars : Variables} {nodeOutputs : NodeOutputMap} {template rendered : Text}

theorem placeholderText_strip (expression : Text) :
  placeholderText vars nodeOutputs (strip expression)
    = placeholderText vars nodeOutputs expression
  := by rw [placeholderText, placeholderText, strip_strip]

theorem map_fst_origin (p : ℕ × Piece) :
  (origin vars p).map Prod.fst = shownPiece vars p.2
  := by
  obtain ⟨i, p⟩ := p
  cases p with
  | literal c => rfl
  | placeholder expression =>
      rw [origin, List.map_map]
      exact List.map_id _

theorem map_fst_origins (template : Text) :
  (origins vars template).map Prod.fst = (pieces template).flatMap (shownPiece vars)
  := by
  rw [origins, List.map_flatMap]
  calc
    (numbered 0 (pieces template)).flatMap (fun p => (origin vars p).map Prod.fst)
      = (numbered 0 (pieces template)).flatMap (fun p => shownPiece vars p.2) := by
        congr
        funext p
        exact map_fst_origin p
    _ = ((numbered 0 (pieces template)).map Prod.snd).flatMap (shownPiece vars) := by
        rw [List.flatMap_map]
    _ = (pieces template).flatMap (shownPiece vars) := by rw [map_snd_numbered]

/-- A template with plain placeholders is rendered to its pieces, one after the other. -/
theorem map_fst_origins_of_interpolateStr
    (hplain : ∀ e ∈ placeholders template, isIdentifier (strip e) = true)
    (h : interpolateStr template vars nodeOutputs = .ok (.str rendered)) :
  (origins vars template).map Prod.fst = rendered
  := by
  have hexact : (exactPlaceholder? template).filter
      (fun e => (parseNodeOutputReference e).isSome) = none := by
    rw [Option.filter_eq_none_iff]
    intro e he
    rw [exactPlaceholder?] at he
    split at he
    · rename_i expression hpieces
      obtain rfl := Option.some.inj he
      have hidentifier := hplain expression (by
        rw [placeholders, hpieces]
        exact List.mem_singleton_self expression)
      rw [parseNodeOutputReference_identifier hidentifier]
      exact Bool.false_ne_true
    · cases he
  rw [interpolateStr, hexact] at h
  obtain ⟨text, htext, heq⟩ := Outcome.map_eq_ok.mp h
  obtain rfl := PyObject.str.inj heq
  obtain ⟨texts, htexts, rfl⟩ := Outcome.map_eq_ok.mp htext
  rw [map_fst_origins, List.flatMap_def]
  congr 1
  obtain ⟨hall, rfl⟩ := (Outcome.mapM_eq_ok_map []).mp htexts
  apply List.map_congr_left
  intro p hp
  cases p with
  | literal c => rfl
  | placeholder e =>
      have he : e ∈ placeholders template := List.mem_filterMap.mpr ⟨_, hp, rfl⟩
      obtain ⟨v, hv⟩ := hall _ hp
      change placeholderText vars nodeOutputs e = .ok v at hv
      change scalarText vars e = (placeholderText vars nodeOutputs e).toOption.getD []
      rw [hv]
      rw [← placeholderText_strip, placeholderText_identifier (hplain e he)] at hv
      split at hv
      · cases hv
      · rw [scalarText]
        split at hv
        · cases hv
        · cases hv
        · rename_i hget
          rw [hget, Except.ok.inj hv]
          rfl

/-- The characters that stand for a placeholder are those of an accepted value. -/
theorem scalarText_accepted {raw : Dict Text PyObject}
    (hvars : validateWorkflowVariables raw = .ok vars) (e : Text) :
  (∀ c ∈ scalarText vars e, isVariableValueChar c = true) ∧ ¬ "--".toList <:+: scalarText vars e
  := by
  rw [scalarText]
  split
  · rename_i v hget
    exact (validateWorkflowVariables_get? hvars hget).2 v List.mem_cons_self
  · constructor
    · intro c hc
      cases hc
    · decide

end Rendered

/-! ### Single characters -/

section Characters

variable {vars : Variables} {raw : Dict Text PyObject} {template : Text}

/-- A character that no value has comes from the template. -/
theorem place_of_mem_origins (hvars : validateWorkflowVariables raw = .ok vars) {c : Char}
    (hc : isVariableValueChar c = false) {place : Option ℕ}
    (h : (c, place) ∈ origins vars template) :
  ∃ i, place = some i ∧ template[i]? = some c
  := by
  obtain ⟨⟨i, p⟩, hp, hmem⟩ := List.mem_flatMap.mp h
  cases p with
  | literal d =>
      obtain ⟨rfl, rfl⟩ := Prod.mk.inj (List.mem_singleton.mp hmem)
      exact ⟨i, rfl, getElem?_of_mem_numbered_pieces hp⟩
  | placeholder e =>
      obtain ⟨d, hd, heq⟩ := List.mem_map.mp hmem
      obtain ⟨rfl, -⟩ := Prod.mk.inj heq
      have haccepted := (scalarText_accepted hvars e).1 d hd
      rw [hc] at haccepted
      cases haccepted

theorem singleton_prefix_drop {i : ℕ} {c : Char} (h : template[i]? = some c) :
  [c] <+: template.drop i
  := by
  obtain ⟨hlt, rfl⟩ := List.getElem?_eq_some_iff.mp h
  rw [List.drop_eq_getElem_cons hlt]
  exact ⟨_, rfl⟩

theorem onlyFromTemplate_singleton (hvars : validateWorkflowVariables raw = .ok vars) {c : Char}
    (hc : isVariableValueChar c = false) :
  OnlyFromTemplate vars [c] template
  := by
  intro a b t hsplit htoken
  obtain ⟨⟨d, place⟩, rfl, hd⟩ := List.map_eq_singleton_iff.mp htoken
  obtain rfl : d = c := hd
  have hmem : (d, place) ∈ origins vars template := by
    rw [hsplit]
    exact List.mem_append_left _ (List.mem_append_right _ List.mem_cons_self)
  obtain ⟨i, rfl, hget⟩ := place_of_mem_origins hvars hc hmem
  exact ⟨i, rfl, singleton_prefix_drop hget⟩

end Characters

/-! ### Pairs of characters -/

section Pairs

variable {vars : Variables} {template : Text} {c d : Char}

/-- A character comes from the place of a literal piece, or from a value. -/
theorem place_of_mem_origin {i : ℕ} {p : Piece} {place : Option ℕ}
    (h : (c, place) ∈ origin vars (i, p)) :
  (p = .literal c ∧ place = some i) ∨ ((∃ e, p = .placeholder e) ∧ place = none)
  := by
  cases p with
  | literal d =>
      obtain ⟨rfl, rfl⟩ := Prod.mk.inj (List.mem_singleton.mp h)
      exact Or.inl ⟨rfl, rfl⟩
  | placeholder e =>
      obtain ⟨d, -, heq⟩ := List.mem_map.mp h
      obtain ⟨-, rfl⟩ := Prod.mk.inj heq
      exact Or.inr ⟨⟨e, rfl⟩, rfl⟩

/-- The last character of a piece stands in what the piece is rendered to. -/
theorem exists_getLast?_origin (i : ℕ) {p : Piece} (h : (shownPiece vars p).getLast? = some c) :
  ∃ place, (origin vars (i, p)).getLast? = some (c, place)
  := by
  rw [← map_fst_origin (i, p), List.getLast?_map] at h
  obtain ⟨⟨c', place⟩, hlast, rfl⟩ := Option.map_eq_some_iff.mp h
  exact ⟨place, hlast⟩

theorem exists_head?_origin (i : ℕ) {p : Piece} (h : (shownPiece vars p).head? = some c) :
  ∃ place, (origin vars (i, p)).head? = some (c, place)
  := by
  rw [← map_fst_origin (i, p), List.head?_map] at h
  obtain ⟨⟨c', place⟩, hhead, rfl⟩ := Option.map_eq_some_iff.mp h
  exact ⟨place, hhead⟩

/-- Characters that meet at a seam are an occurrence that is not in the template. -/
theorem not_onlyFromTemplate_of_meet (h : MeetAtSeam vars template c d) :
  ¬ OnlyFromTemplate vars [c, d] template
  := by
  obtain ⟨p, q, between, ⟨before, after, hsplit, hempty, hp, hq⟩, hseam⟩ := h
  have hnumbered := map_snd_numbered 0 (pieces template)
  rw [hsplit] at hnumbered
  obtain ⟨nbefore, nrest, heq, rfl, hrest⟩ := List.map_eq_append_iff.mp hnumbered
  obtain ⟨⟨i, p'⟩, ntail, rfl, rfl, htail⟩ := List.map_eq_cons_iff.mp hrest
  obtain ⟨nbetween, nend, rfl, rfl, hend⟩ := List.map_eq_append_iff.mp htail
  obtain ⟨⟨j, q'⟩, nafter, rfl, rfl, rfl⟩ := List.map_eq_cons_iff.mp hend
  obtain ⟨place, hp⟩ := exists_getLast?_origin i hp
  obtain ⟨place', hq⟩ := exists_head?_origin j hq
  have hseam' : AtSeam (origin vars) (numbered 0 (pieces template)) (c, place) (d, place') (i, p')
      (j, q') nbetween := by
    refine ⟨nbefore, nafter, by rw [hsplit, heq], ?_, hp, hq⟩
    intro r hr
    have hshown : (origin vars r).map Prod.fst = shownPiece vars r.2 := map_fst_origin r
    rw [hempty r.2 (List.mem_map_of_mem hr)] at hshown
    exact List.map_eq_nil_iff.mp hshown
  obtain ⟨u, v, hflat⟩ := hseam'.flatMap_eq
  intro honly
  obtain ⟨k, hplaces, -⟩ := honly u [(c, place), (d, place')] v (by
    rw [origins, hflat, List.append_assoc]
    rfl) rfl
  obtain ⟨hfirst, hplaces'⟩ := List.cons.inj hplaces
  obtain rfl : place = some k := hfirst
  obtain rfl : place' = some (k + 1) := (List.cons.inj hplaces').1
  obtain ⟨rfl, hi⟩ | ⟨-, hnone⟩ := place_of_mem_origin (List.mem_of_getLast? hp)
  swap
  · cases hnone
  obtain ⟨rfl, hj⟩ | ⟨-, hnone⟩ := place_of_mem_origin (List.mem_of_head? hq)
  swap
  · cases hnone
  obtain rfl := Option.some.inj hi
  obtain rfl := Option.some.inj hj
  have hafter := eq_numbered_of_append (hsplit ▸ heq)
  cases nbetween with
  | nil => exact hseam ⟨rfl, ⟨c, rfl⟩, ⟨d, rfl⟩⟩
  | cons r nbetween =>
      obtain ⟨m, r⟩ := r
      cases r with
      | literal e =>
          have hne := hempty (.literal e) List.mem_cons_self
          cases hne
      | placeholder e =>
          rw [List.cons_append, List.map_cons, numbered] at hafter
          obtain ⟨-, hafter⟩ := List.cons.inj hafter
          have hmem : (k + 1, Piece.literal d) ∈ nbetween ++ (k + 1, .literal d) :: nafter :=
            List.mem_append_right _ List.mem_cons_self
          rw [hafter] at hmem
          have hle := le_of_mem_numbered hmem
          simp only [Piece.width] at hle
          omega

/-- A pair of characters that no value has is only in the template, unless it meets at a seam. -/
theorem onlyFromTemplate_of_not_meet (hinside : ∀ e, ¬ [c, d] <:+: scalarText vars e)
    (h : ¬ MeetAtSeam vars template c d) :
  OnlyFromTemplate vars [c, d] template
  := by
  intro a b t hflat htoken
  obtain ⟨⟨c', place⟩, b, rfl, rfl, hsecond⟩ := List.map_eq_cons_iff.mp htoken
  obtain ⟨⟨d', place'⟩, rfl, rfl⟩ := List.map_eq_singleton_iff.mp hsecond
  rw [List.append_assoc] at hflat
  obtain ⟨⟨i, p⟩, hp, hinfix⟩ |
      ⟨⟨i, p⟩, ⟨j, q⟩, between, before, after, heq, hempty, hlast, hhead⟩ :=
    exists_of_flatMap_eq_append (x := (c', place)) (y := (d', place')) hflat
  · exfalso
    cases p with
    | literal e =>
        have hlength := hinfix.length_le
        simp [origin] at hlength
    | placeholder e =>
        have hmap := hinfix.map Prod.fst
        rw [map_fst_origin] at hmap
        exact hinside e hmap
  · have hpieces : pieces template
        = before.map Prod.snd ++ p :: (between.map Prod.snd ++ q :: after.map Prod.snd) := by
      rw [← map_snd_numbered 0 (pieces template), heq]
      simp
    have hshown : AtSeam (shownPiece vars) (pieces template) c' d' p q (between.map Prod.snd) := by
      refine ⟨_, _, hpieces, ?_, ?_, ?_⟩
      · intro r hr
        obtain ⟨nr, hnr, rfl⟩ := List.mem_map.mp hr
        rw [← map_fst_origin, hempty nr hnr]
        rfl
      · rw [← map_fst_origin (i, p), List.getLast?_map, hlast]
        rfl
      · rw [← map_fst_origin (j, q), List.head?_map, hhead]
        rfl
    have hneighbours : between.map Prod.snd = [] ∧ (∃ c, p = .literal c) ∧ ∃ d, q = .literal d := by
      by_contra hnot
      exact h ⟨p, q, between.map Prod.snd, hshown, hnot⟩
    obtain ⟨hnil, ⟨c'', rfl⟩, d'', rfl⟩ := hneighbours
    obtain rfl := List.map_eq_nil_iff.mp hnil
    have hc : (c', place) = (c'', some i) :=
      List.mem_singleton.mp (List.mem_of_getLast? hlast)
    have hd : (d', place') = (d'', some j) := List.mem_singleton.mp (List.mem_of_head? hhead)
    obtain ⟨rfl, rfl⟩ := Prod.mk.inj hc
    obtain ⟨rfl, rfl⟩ := Prod.mk.inj hd
    have hafter := eq_numbered_of_append heq
    obtain ⟨hj, -⟩ := Prod.mk.inj (List.cons.inj hafter).1
    obtain rfl : j = i + 1 := hj
    have hfirst : template[i]? = some c' := getElem?_of_mem_numbered_pieces (heq ▸ by simp)
    have hsecond : template[i + 1]? = some d' := getElem?_of_mem_numbered_pieces (heq ▸ by simp)
    refine ⟨i, rfl, ?_⟩
    obtain ⟨hi, rfl⟩ := List.getElem?_eq_some_iff.mp hfirst
    rw [List.drop_eq_getElem_cons hi]
    exact List.cons_prefix_cons.mpr ⟨rfl, singleton_prefix_drop hsecond⟩

end Pairs

/-! ### Where nothing is injected -/

/-- A rendered template has the tokens of the template only, exactly when no two dashes and no
slash and star meet at a seam. -/
theorem injectsNothing_iff {raw : Dict Text PyObject} {vars : Variables}
    {nodeOutputs : NodeOutputMap} {template rendered : Text}
    (hvars : validateWorkflowVariables raw = .ok vars)
    (hplain : ∀ e ∈ placeholders template, isIdentifier (strip e) = true)
    (h : interpolateStr template vars nodeOutputs = .ok (.str rendered)) :
  (origins vars template).map Prod.fst = rendered ∧
    (InjectsNothing vars template
      ↔ ¬ MeetAtSeam vars template '-' '-' ∧ ¬ MeetAtSeam vars template '/' '*')
  := by
  have hdashes : ∀ e, ¬ ['-', '-'] <:+: scalarText vars e := fun e =>
    (scalarText_accepted hvars e).2
  have hslash : ∀ e, ¬ ['/', '*'] <:+: scalarText vars e := by
    intro e hmeet
    have haccepted := (scalarText_accepted hvars e).1 '/' (hmeet.subset List.mem_cons_self)
    revert haccepted
    decide
  refine ⟨map_fst_origins_of_interpolateStr hplain h, ?_, ?_⟩
  · intro hnothing
    constructor
    · intro hmeet
      exact not_onlyFromTemplate_of_meet hmeet (hnothing "--".toList (by decide))
    · intro hmeet
      exact not_onlyFromTemplate_of_meet hmeet (hnothing "/*".toList (by decide))
  · rintro ⟨hdash, hcomment⟩ token htoken
    simp only [riskyTokens, List.map_cons, List.map_nil, List.mem_cons, List.not_mem_nil,
      or_false] at htoken
    obtain rfl | rfl | rfl | rfl | rfl | rfl := htoken
    · exact onlyFromTemplate_of_not_meet hdashes hdash
    · exact onlyFromTemplate_of_not_meet hslash hcomment
    · exact onlyFromTemplate_singleton hvars (by decide)
    · exact onlyFromTemplate_singleton hvars (by decide)
    · exact onlyFromTemplate_singleton hvars (by decide)
    · exact onlyFromTemplate_singleton hvars (by decide)

/-- A template that compares with a variable after a sign. -/
def equalsTemplate : Text := "id = ".toList ++ placeholderOf "x".toList

/-- A template that negates a variable. -/
def minusTemplate : Text := "a -".toList ++ placeholderOf "x".toList

/-- Seven is put after the sign, and nothing else. -/
theorem injectsNothing_iff_equals :
  (origins (Dict.empty.set "x".toList (.str "7".toList)) equalsTemplate).map Prod.fst
      = "id = 7".toList ∧
    (InjectsNothing (Dict.empty.set "x".toList (.str "7".toList)) equalsTemplate
      ↔ ¬ MeetAtSeam (Dict.empty.set "x".toList (.str "7".toList)) equalsTemplate '-' '-' ∧
        ¬ MeetAtSeam (Dict.empty.set "x".toList (.str "7".toList)) equalsTemplate '/' '*')
  := by
  have hvars : validateWorkflowVariables (Dict.empty.set "x".toList (.str "7".toList))
      = .ok (Dict.empty.set "x".toList (.str "7".toList)) := by rfl
  have hrendered : interpolateStr equalsTemplate (Dict.empty.set "x".toList (.str "7".toList))
      Dict.empty = .ok (.str "id = 7".toList) := by rfl
  exact injectsNothing_iff hvars (by decide) hrendered

/-- A negative number after a dash begins a comment. -/
theorem not_injectsNothing_minus :
  ¬ ∀ (raw : Dict Text PyObject) (vars : Variables) (nodeOutputs : NodeOutputMap)
    (template rendered : Text), validateWorkflowVariables raw = .ok vars →
    (∀ e ∈ placeholders template, isIdentifier (strip e) = true) →
    interpolateStr template vars nodeOutputs = .ok (.str rendered) → InjectsNothing vars template
  := by
  intro h
  have hnothing := h (Dict.empty.set "x".toList (.str "-1".toList))
    (Dict.empty.set "x".toList (.str "-1".toList)) Dict.empty minusTemplate "a --1".toList
    (by rfl) (by decide) (by rfl)
  obtain ⟨i, hplaces, -⟩ := hnothing "--".toList (by decide) [('a', some 0), (' ', some 1)]
    [('-', some 2), ('-', none)] [('1', none)] (by rfl) rfl
  obtain ⟨-, hplaces⟩ := List.cons.inj hplaces
  cases hplaces

end Workflow

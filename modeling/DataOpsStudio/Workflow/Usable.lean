import DataOpsStudio.Workflow.Literals

/-!
# Accepted variables that can be used

A variable that the validator accepts is to stand for its value wherever a placeholder holds its
name: inside the texts of a payload, however deep, and inside conditions.  It does so exactly when
its name neither begins like a reference to an output nor is a constant of conditions.
-/

namespace Workflow

open Text

/-! ### Payloads that refer to one variable -/

mutual

/-- Every placeholder in the texts of an object is `${x}`. -/
def OnlyPlaceholder (x : Text) : PyObject → Prop
  | .str s => ∀ e ∈ placeholders s, e = x
  | .list elements => OnlyPlaceholderIn x elements
  | .dict items => OnlyPlaceholderOf x items
  | _ => True

/-- Every placeholder in the texts of the elements of a list is `${x}`. -/
def OnlyPlaceholderIn (x : Text) : List PyObject → Prop
  | [] => True
  | element :: rest => OnlyPlaceholder x element ∧ OnlyPlaceholderIn x rest

/-- Every placeholder in the texts of the values of a dictionary is `${x}`. -/
def OnlyPlaceholderOf (x : Text) : List (Text × PyObject) → Prop
  | [] => True
  | (_, value) :: rest => OnlyPlaceholder x value ∧ OnlyPlaceholderOf x rest

end

mutual

/-- An object with every `${x}` in its texts replaced. -/
def fill (x v : Text) : PyObject → PyObject
  | .str s => .str (replace (placeholderOf x) v s)
  | .list elements => .list (fillElements x v elements)
  | .dict items => .dict (fillItems x v items)
  | value => value

/-- The elements of a list with every `${x}` in their texts replaced. -/
def fillElements (x v : Text) : List PyObject → List PyObject
  | [] => []
  | element :: rest => fill x v element :: fillElements x v rest

/-- The items of a dictionary with every `${x}` in the texts of their values replaced. -/
def fillItems (x v : Text) : List (Text × PyObject) → List (Text × PyObject)
  | [] => []
  | (key, value) :: rest => (key, fill x v value) :: fillItems x v rest

end

theorem fillItems_eq_map (x v : Text) (items : List (Text × PyObject)) :
  fillItems x v items = items.map (fun p => (p.1, fill x v p.2))
  := by
  induction items with
  | nil => rfl
  | cons p rest ih => rw [fillItems, ih, List.map_cons]

/-- Substituting for one placeholder is replacing its text. -/
theorem substitute_eq_replace {x v : Text} (f : Text → Except Text Text) (hf : f x = .ok v)
    (s : Text) (h : ∀ e ∈ placeholders s, e = x) :
  substitute f s = .ok (replace (placeholderOf x) v s)
  := by
  by_cases hopen : ∃ t, s = '$' :: '{' :: t ∧ '}' ∈ t
  · obtain ⟨t, hsplit, hclosed⟩ := hopen
    obtain ⟨e, r, rfl, he⟩ := List.eq_append_cons_of_mem hclosed
    have hplaceholder : s = placeholderOf e ++ r := by simp [hsplit, placeholderOf]
    have hpieces := pieces_placeholder he r
    rw [← hplaceholder] at hpieces
    have hmem : ∀ e' ∈ e :: placeholders r, e' = x := by
      intro e' he'
      apply h e'
      rw [placeholders, hpieces]
      exact he'
    obtain rfl := hmem e List.mem_cons_self
    have hrest := substitute_eq_replace f hf r (fun e' he' => hmem e' (List.mem_cons_of_mem _ he'))
    rw [hplaceholder, substitute_placeholder f he, hf, hrest,
      replace_append (by simp [placeholderOf])]
    rfl
  · cases s with
    | nil => rfl
    | cons c s =>
        have hclosed : ∀ t, c :: s = '$' :: '{' :: t → '}' ∉ t := fun t ht hmem =>
          hopen ⟨t, ht, hmem⟩
        have hpieces := pieces_literal hclosed
        have hrest := substitute_eq_replace f hf s (by
          intro e he
          apply h e
          rw [placeholders, hpieces]
          exact he)
        have hprefix : ¬ placeholderOf x <+: c :: s := by
          rintro ⟨r, hr⟩
          apply hopen
          refine ⟨x ++ ['}'] ++ r, ?_, by simp⟩
          rw [← hr]
          simp [placeholderOf]
        rw [substitute_of_pieces f (u := [c]) hpieces, hrest, replace_cons hprefix]
        rfl
termination_by s.length

section Payload

variable {vars : Variables} {nodeOutputs : NodeOutputMap} {x v : Text}

theorem interpolateStr_eq_fill (hx : isIdentifier x = true)
    (hplaceholder : placeholderText vars nodeOutputs x = .ok v) (s : Text)
    (h : ∀ e ∈ placeholders s, e = x) :
  interpolateStr s vars nodeOutputs = .ok (.str (replace (placeholderOf x) v s))
  := by
  have hexact : (exactPlaceholder? s).filter (fun e => (parseNodeOutputReference e).isSome)
      = none := by
    rw [Option.filter_eq_none_iff]
    intro e he
    rw [exactPlaceholder?] at he
    split at he
    · rename_i expression hpieces
      obtain rfl := Option.some.inj he
      have hexpression : expression = x := by
        apply h
        rw [placeholders, hpieces]
        exact List.mem_singleton_self expression
      rw [hexpression, strip_identifier hx, parseNodeOutputReference_identifier hx]
      exact Bool.false_ne_true
    · cases he
  rw [interpolateStr, hexact]
  simp only [substitute_eq_replace _ hplaceholder s h]
  rfl

mutual

theorem interpolateValue_eq_fill (hx : isIdentifier x = true)
    (hplaceholder : placeholderText vars nodeOutputs x = .ok v) (value : PyObject)
    (h : OnlyPlaceholder x value) :
  interpolateValue vars nodeOutputs value = .ok (fill x v value)
  := by
  match value with
  | .str s =>
      rw [OnlyPlaceholder] at h
      rw [interpolateValue, fill]
      exact interpolateStr_eq_fill hx hplaceholder s h
  | .list elements =>
      rw [OnlyPlaceholder] at h
      rw [interpolateValue, fill, interpolateElements_eq_fill hx hplaceholder elements h]
      rfl
  | .dict items =>
      rw [OnlyPlaceholder] at h
      rw [interpolateValue, fill, interpolateItems_eq_fill hx hplaceholder items h]
      rfl
  | .none => rfl
  | .bool b => rfl
  | .int n => rfl
  | .float text finite => rfl

theorem interpolateElements_eq_fill (hx : isIdentifier x = true)
    (hplaceholder : placeholderText vars nodeOutputs x = .ok v) (elements : List PyObject)
    (h : OnlyPlaceholderIn x elements) :
  interpolateElements vars nodeOutputs elements = .ok (fillElements x v elements)
  := by
  match elements with
  | [] => rfl
  | element :: rest =>
      rw [OnlyPlaceholderIn] at h
      rw [interpolateElements, interpolateValue_eq_fill hx hplaceholder element h.1,
        interpolateElements_eq_fill hx hplaceholder rest h.2]
      rfl

theorem interpolateItems_eq_fill (hx : isIdentifier x = true)
    (hplaceholder : placeholderText vars nodeOutputs x = .ok v) (items : List (Text × PyObject))
    (h : OnlyPlaceholderOf x items) :
  interpolateItems vars nodeOutputs items = .ok (fillItems x v items)
  := by
  match items with
  | [] => rfl
  | (key, value) :: rest =>
      rw [OnlyPlaceholderOf] at h
      rw [interpolateItems, interpolateValue_eq_fill hx hplaceholder value h.1,
        interpolateItems_eq_fill hx hplaceholder rest h.2]
      rfl

end

theorem interpolatePayload_eq_fill (hx : isIdentifier x = true)
    (hplaceholder : placeholderText vars nodeOutputs x = .ok v) {payload : Dict Text PyObject}
    (h : OnlyPlaceholder x (.dict payload.items)) :
  interpolatePayload payload vars nodeOutputs = .ok (payload.mapValues (fill x v))
  := by
  rw [OnlyPlaceholder] at h
  have hitems : fillItems x v payload.items = (payload.mapValues (fill x v)).items :=
    fillItems_eq_map x v payload.items
  rw [interpolatePayload, interpolateItems_eq_fill hx hplaceholder payload.items h, hitems]
  change Except.ok (Dict.ofList _) = _
  rw [Dict.ofList_items]

end Payload

/-! ### Conditions that refer to one variable -/

/-- Texts with a hole after each of them, and a last text. -/
def assemble (hole : Text) (texts : List Text) (last : Text) : Text :=
  texts.foldr (fun t rest => t ++ hole ++ rest) last

/-- Which characters are printed as they are. -/
def WhenRuntime.PrintsAscii (rt : WhenRuntime) : Prop :=
  ∀ c : Char, 32 ≤ c.toNat → c.toNat < 127 → rt.isPrintable c = true

section Conditions

variable {rt : WhenRuntime} {x v : Text}

/-- The literal of an accepted text is the text between single quotes. -/
theorem repr_of_accepted (hp : rt.PrintsAscii) (hv : ∀ c ∈ v, isVariableValueChar c = true) :
  Text.repr rt.isPrintable v = '\'' :: v ++ ['\'']
  := by
  have hchar : ∀ c ∈ v, reprChar rt.isPrintable '\'' c = [c] := by
    intro c hc
    obtain ⟨hlow, hhigh⟩ := toNat_of_isVariableValueChar (hv c hc)
    have hne : ∀ d : Char, isVariableValueChar d = false → c ≠ d := by
      intro d hd heq
      rw [heq] at hc
      rw [hv d hc] at hd
      cases hd
    rw [reprChar, if_neg, if_neg (hne _ (by decide)), if_neg (hne _ (by decide)),
      if_neg (hne _ (by decide)), if_pos (hp c (by omega) (by omega))]
    rintro (heq | heq)
    · exact hne _ (by decide) heq
    · exact hne _ (by decide) heq
  have hquote : '\'' ∉ v := by
    intro hmem
    have haccepted := hv _ hmem
    revert haccepted
    decide
  have hbody : v.flatMap (reprChar rt.isPrintable '\'') = v := by
    rw [List.flatMap_congr hchar, List.flatMap_singleton']
  rw [Text.repr]
  simp only [hquote, false_and, if_false, hbody]

theorem not_opens_sugared (hw : rt.ReadsWords) {t : Text} (h : ¬ ['$', '{'] <:+: t) :
  ¬ ['$', '{'] <:+: sugared rt t
  := by
  have hclosed : placeholders (sugared rt (t ++ ['}'])) = [] :=
    placeholders_sugared (not_opens_iff.mp h)
  rw [sugared_cut hw (by decide)] at hclosed
  exact not_opens_iff.mpr hclosed

/-- Sugar is rewritten between the holes of a condition, and the name in the holes. -/
theorem sugared_assemble (hw : rt.ReadsWords) (hx : isIdentifier x = true) (texts : List Text)
    (last : Text) :
  sugared rt (assemble (placeholderOf x) texts last)
    = assemble (placeholderOf (whenName x)) (texts.map (sugared rt)) (sugared rt last)
  := by
  induction texts with
  | nil => rfl
  | cons t texts ih =>
      change sugared rt (t ++ placeholderOf x ++ assemble (placeholderOf x) texts last) = _
      rw [sugared_placeholder hw hx, ih]
      rfl

theorem substitute_assemble (f : Text → Except Text Text) (hbrace : '}' ∉ x)
    {texts : List Text} {last : Text} (htexts : ∀ t ∈ texts, ¬ ['$', '{'] <:+: t)
    (hlast : placeholders last = []) {literal : Text} (hf : f x = .ok literal) :
  substitute f (assemble (placeholderOf x) texts last) = .ok (assemble literal texts last)
  := by
  induction texts with
  | nil => exact substitute_of_placeholders_eq_nil f hlast
  | cons t texts ih =>
      have hrest := ih (fun r hr => htexts r (List.mem_cons_of_mem _ hr))
      have hpieces := pieces_append (htexts t List.mem_cons_self)
        (t := placeholderOf x ++ assemble (placeholderOf x) texts last) (by simp [placeholderOf])
      change substitute f (t ++ placeholderOf x ++ assemble (placeholderOf x) texts last) = _
      rw [List.append_assoc, substitute_of_pieces f hpieces, substitute_placeholder f hbrace, hf,
        hrest]
      change Except.ok (t ++ (literal ++ _))
        = Except.ok (t ++ literal ++ assemble literal texts last)
      rw [List.append_assoc]

end Conditions

/-! ### Variables that can be used -/

/-- A variable stands for its value: a payload in which every placeholder holds its name is
rendered with the value in their places and nothing else changed, and so is a condition, in which
the sugar between the placeholders is rewritten and the value stands as a literal. -/
structure Usable (rt : WhenRuntime) (vars : Variables) (x v : Text) : Prop where
  payload : ∀ (payload : Dict Text PyObject) (nodeOutputs : NodeOutputMap),
    OnlyPlaceholder x (.dict payload.items) →
    interpolatePayload payload vars nodeOutputs = .ok (payload.mapValues (fill x v))
  condition : ∀ (texts : List Text) (last : Text) (nodeOutputs : NodeOutputMap),
    (∀ t ∈ texts, ¬ ['$', '{'] <:+: t) → placeholders last = [] →
    substitute (whenLiteral rt vars nodeOutputs)
        (sugared rt (assemble (placeholderOf x) texts last))
      = .ok (assemble (Text.repr rt.isPrintable v) (texts.map (sugared rt)) (sugared rt last))

section Usable

variable {rt : WhenRuntime} {raw : Dict Text PyObject} {vars : Variables} {x v : Text}

/-- A payload with one text, which is one placeholder. -/
def placeholderPayload (x : Text) : Dict Text PyObject :=
  Dict.empty.set "sql".toList (.str (placeholderOf x))

theorem placeholders_placeholderOf (hbrace : '}' ∉ x) :
  placeholders (placeholderOf x) = [x]
  := by
  have hpieces := pieces_placeholder hbrace []
  rw [List.append_nil] at hpieces
  rw [placeholders, hpieces]
  rfl

theorem interpolatePayload_of_nodes (hx : isIdentifier x = true) (hnodes : "nodes".toList <+: x)
    (nodeOutputs : NodeOutputMap) :
  ∃ message, interpolatePayload (placeholderPayload x) vars nodeOutputs = .error message
  := by
  have hbrace : '}' ∉ x := not_mem_identifier hx (by decide) (by decide)
  have hplaceholder : placeholderText vars nodeOutputs x
      = .error ("unsupported_param_reference: ".toList ++ x) := by
    rw [placeholderText_identifier hx, if_pos (List.isPrefixOf_iff_prefix.mpr hnodes)]
  have hpieces := pieces_placeholder hbrace []
  rw [List.append_nil] at hpieces
  have hexact : (exactPlaceholder? (placeholderOf x)).filter
      (fun e => (parseNodeOutputReference e).isSome) = none := by
    rw [exactPlaceholder?, hpieces]
    change Option.filter _ (some (strip x)) = none
    rw [strip_identifier hx, Option.filter_some, parseNodeOutputReference_identifier hx]
    rfl
  have hsubstitute := substitute_placeholder (placeholderText vars nodeOutputs) hbrace []
  rw [List.append_nil, hplaceholder] at hsubstitute
  use "unsupported_param_reference: ".toList ++ x
  change ((interpolateItems vars nodeOutputs [("sql".toList, .str (placeholderOf x))]).map _) = _
  rw [interpolateItems, interpolateValue, interpolateStr, hexact]
  simp only [hsubstitute]
  rfl

/-- Conditions are evaluated with the value in the place of the placeholder, when the map holds
the value also under the name that the sugar makes of it. -/
theorem condition_of_bound (hw : rt.ReadsWords) (hx : isIdentifier x = true)
    (hbound : vars.get? (whenName x) = some (.str v)) (texts : List Text) (last : Text)
    (nodeOutputs : NodeOutputMap) (htexts : ∀ t ∈ texts, ¬ ['$', '{'] <:+: t)
    (hlast : placeholders last = []) :
  substitute (whenLiteral rt vars nodeOutputs)
      (sugared rt (assemble (placeholderOf x) texts last))
    = .ok (assemble (Text.repr rt.isPrintable v) (texts.map (sugared rt)) (sugared rt last))
  := by
  have hname := isIdentifier_whenName hx
  rw [sugared_assemble hw hx]
  apply substitute_assemble
  · exact not_mem_identifier hname (by decide) (by decide)
  · intro t ht
    obtain ⟨r, hr, rfl⟩ := List.mem_map.mp ht
    exact not_opens_sugared hw (htexts r hr)
  · exact placeholders_sugared hlast
  · rw [whenLiteral_identifier hname, hbound]

/-- An accepted variable can be used exactly when its name does not begin with `nodes` and, where
it is a constant of conditions, the map holds the same value under the constant of the language;
a condition within the limit is then evaluated with the literal of the value. -/
theorem usable_iff (hw : rt.ReadsWords) (hp : rt.PrintsAscii)
    (hvars : validateWorkflowVariables raw = .ok vars) (hx : vars.get? x = some (.str v)) :
  (Usable rt vars x v ↔ ¬ "nodes".toList <+: x ∧ vars.get? (whenName x) = some (.str v)) ∧
    (Usable rt vars x v → ∀ (t : Text) (texts : List Text) (last : Text) (outputs : NodeOutputMap),
      (∀ r ∈ t :: texts, ¬ ['$', '{'] <:+: r) → placeholders last = [] →
      (assemble (placeholderOf x) (t :: texts) last).length ≤ maxWhenLength →
      evaluateWhen rt (some (assemble (placeholderOf x) (t :: texts) last)) vars outputs
        = evaluateRendered rt (assemble (Text.repr rt.isPrintable v)
            ((t :: texts).map (sugared rt)) (sugared rt last)))
  := by
  obtain ⟨hidentifier, haccepted⟩ := validateWorkflowVariables_get? hvars hx
  have hsafe := (haccepted v List.mem_cons_self).1
  refine ⟨⟨?_, ?_⟩, ?_⟩
  · intro h
    have hnodes : ¬ "nodes".toList <+: x := by
      intro hnodes
      have hbrace : '}' ∉ x := not_mem_identifier hidentifier (by decide) (by decide)
      have hpayload := h.payload (placeholderPayload x) Dict.empty (by
        change (∀ e ∈ placeholders (placeholderOf x), e = x) ∧ True
        rw [placeholders_placeholderOf hbrace]
        simp)
      have hraises : ∃ message, interpolatePayload (placeholderPayload x) vars Dict.empty
          = .error message := interpolatePayload_of_nodes hidentifier hnodes Dict.empty
      obtain ⟨message, herror⟩ := hraises
      rw [herror] at hpayload
      cases hpayload
    refine ⟨hnodes, ?_⟩
    have hname := isIdentifier_whenName hidentifier
    have hcondition := h.condition [[]] [] Dict.empty (by simp) rfl
    rw [sugared_assemble hw hidentifier] at hcondition
    have hsubstitute := substitute_placeholder (whenLiteral rt vars Dict.empty)
      (not_mem_identifier hname (c := '}') (by decide) (by decide)) []
    rw [List.append_nil] at hsubstitute
    have hhole : assemble (placeholderOf (whenName x)) ([[]].map (sugared rt)) (sugared rt [])
        = placeholderOf (whenName x) := by
      change [] ++ placeholderOf (whenName x) ++ [] = _
      rw [List.append_nil, List.nil_append]
    rw [hhole, hsubstitute, whenLiteral_identifier hname] at hcondition
    cases hbound : vars.get? (whenName x) with
    | none =>
        rw [hbound] at hcondition
        cases hcondition
    | some value =>
        rw [hbound] at hcondition
        cases value with
        | list elements => cases hcondition
        | str w =>
            have hw := ((validateWorkflowVariables_get? hvars hbound).2 w List.mem_cons_self).1
            have hliteral : Text.repr rt.isPrintable w ++ []
                = [] ++ Text.repr rt.isPrintable v ++ [] :=
              Except.ok.inj hcondition
            rw [List.append_nil, List.append_nil, List.nil_append, repr_of_accepted hp hw,
              repr_of_accepted hp hsafe] at hliteral
            obtain ⟨hcons, -⟩ := List.append_inj' hliteral rfl
            rw [(List.cons.inj hcons).2]
  · rintro ⟨hnodes, hbound⟩
    refine ⟨?_, ?_⟩
    · intro payload nodeOutputs hpayload
      apply interpolatePayload_eq_fill hidentifier _ hpayload
      rw [placeholderText_identifier hidentifier, if_neg, hx]
      rw [List.isPrefixOf_iff_prefix]
      exact hnodes
    · intro texts last nodeOutputs htexts hlast
      exact condition_of_bound hw hidentifier hbound texts last nodeOutputs htexts hlast
  · intro h t texts last outputs htexts hlast hlength
    have hdollar : '$' ∈ assemble (placeholderOf x) (t :: texts) last :=
      List.mem_append_left _ (List.mem_append_right _ List.mem_cons_self)
    have hstrip : (strip (assemble (placeholderOf x) (t :: texts) last)).isEmpty = false := by
      rw [List.isEmpty_eq_false_iff]
      exact List.ne_nil_of_mem (mem_strip hdollar (by decide))
    rw [evaluateWhen]
    simp only [hstrip, Bool.false_eq_true, if_false, Nat.not_lt.mpr hlength]
    rw [h.condition (t :: texts) last outputs htexts hlast]
    rfl

end Usable

/-! ### A name that can be used and one that cannot -/

/-- One variable with a text. -/
def oneVariable (x v : Text) : Dict Text PyObject := Dict.empty.set x (.str v)

theorem literalRuntime_printsAscii :
  literalRuntime.PrintsAscii
  := by
  intro c hlow _
  change (c != '\x00') = true
  rw [bne_iff_ne]
  rintro rfl
  revert hlow
  decide

/-- The variable `region` can be used. -/
theorem usable_region :
  Usable literalRuntime (Dict.empty.set "region".toList (.str "emea".toList)) "region".toList
    "emea".toList
  := by
  have hvars : validateWorkflowVariables (oneVariable "region".toList "emea".toList)
      = .ok (Dict.empty.set "region".toList (.str "emea".toList)) := by rfl
  have hregion : Dict.get? (Dict.empty.set "region".toList (VariableValue.str "emea".toList))
      "region".toList = some (.str "emea".toList) := by decide
  have hiff := usable_iff (fun _ _ => rfl) literalRuntime_printsAscii hvars hregion
  exact hiff.1.mpr ⟨by decide, by decide⟩

/-- The variable `nodes_count` is accepted but cannot be used in a payload. -/
theorem not_usable_nodesCount :
  ¬ ∀ (raw : Dict Text PyObject) (vars : Variables) (x v : Text),
    validateWorkflowVariables raw = .ok vars → vars.get? x = some (.str v) →
    Usable literalRuntime vars x v
  := by
  intro h
  have husable := h (oneVariable "nodes_count".toList "5".toList)
    (Dict.empty.set "nodes_count".toList (.str "5".toList)) "nodes_count".toList "5".toList
    (by rfl) (by decide)
  have hpayload := husable.payload (placeholderPayload "nodes_count".toList) Dict.empty (by
    change (∀ e ∈ placeholders (placeholderOf "nodes_count".toList), e = "nodes_count".toList)
      ∧ True
    decide)
  have hraises : ∃ message, interpolatePayload (placeholderPayload "nodes_count".toList)
      (Dict.empty.set "nodes_count".toList (.str "5".toList)) Dict.empty = .error message :=
    interpolatePayload_of_nodes (by decide) (by decide) Dict.empty
  obtain ⟨message, herror⟩ := hraises
  rw [herror] at hpayload
  cases hpayload

end Workflow

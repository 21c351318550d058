import DataOpsStudio.Workflow.Spec
import Mathlib.Data.List.TakeDrop

/-!
# Names of variables

A name of a variable is an identifier.  It has no white space, no dot and no bar, so it is never
read as a reference to an output nor as a filter, and a placeholder that holds it stands for the
value of the variable, in conditions and in payloads.  The values that the validator accepts are
texts of letters, digits and a few signs, without two dashes in a row.
-/

namespace Workflow

open Text

/-- The characters of an identifier. -/
theorem forall_mem_identifier {x : Text} (hx : isIdentifier x = true) :
  x ≠ [] ∧ ∀ c ∈ x, c.isAlphanum = true ∨ c = '_'
  := by
  cases x with
  | nil => cases hx
  | cons c s =>
      rw [isIdentifier, Bool.and_eq_true, Bool.or_eq_true, beq_iff_eq, List.all_eq_true] at hx
      refine ⟨List.cons_ne_nil c s, ?_⟩
      intro d hd
      obtain rfl | hd := List.mem_cons.mp hd
      · obtain hletter | hline := hx.1
        · left
          rw [Char.isAlphanum, hletter, Bool.true_or]
        · exact Or.inr hline
      · simpa using hx.2 d hd

/-- The code points of letters and digits. -/
theorem toNat_of_isAlphanum {c : Char} (h : c.isAlphanum = true) :
  48 ≤ c.toNat ∧ c.toNat ≤ 122
  := by
  rw [isAlphanum_iff] at h
  omega

theorem isSpace_of_isAlphanum {c : Char} (h : c.isAlphanum = true ∨ c = '_') :
  isSpace c = false
  := by
  have hrange : 48 ≤ c.toNat ∧ c.toNat ≤ 122 := by
    obtain h | rfl := h
    · exact toNat_of_isAlphanum h
    · decide
  unfold isSpace
  simp only [Bool.or_eq_false_iff, Bool.and_eq_false_iff, decide_eq_false_iff_not,
    beq_eq_false_iff_ne]
  omega

/-- A text that neither begins nor ends with white space has nothing to strip. -/
theorem strip_of_ends {c d : Char} {s : Text} (hc : isSpace c = false) (hd : isSpace d = false) :
  strip (c :: s ++ [d]) = c :: s ++ [d]
  := by
  apply strip_eq_self_iff.mpr
  constructor
  · intro e he
    obtain rfl := Option.some.inj he
    apply hc
  · intro e he
    rw [List.getLast?_append_of_ne_nil _ (List.cons_ne_nil _ _)] at he
    obtain rfl := Option.some.inj he
    apply hd

theorem mem_dropWhile_isSpace {c : Char} {s : Text} (hmem : c ∈ s) (hc : isSpace c = false) :
  c ∈ s.dropWhile isSpace
  := by
  induction s with
  | nil => cases hmem
  | cons d s ih =>
      by_cases hd : isSpace d = true
      · rw [List.dropWhile_cons_of_pos hd]
        obtain rfl | hmem := List.mem_cons.mp hmem
        · rw [hc] at hd
          cases hd
        · exact ih hmem
      · rw [List.dropWhile_cons_of_neg hd]
        exact hmem

/-- Only white space is stripped. -/
theorem mem_strip {c : Char} {s : Text} (hmem : c ∈ s) (hc : isSpace c = false) :
  c ∈ strip s
  := by
  apply List.mem_reverse.mpr
  apply mem_dropWhile_isSpace _ hc
  apply List.mem_reverse.mpr
  exact mem_dropWhile_isSpace hmem hc

section Identifier

variable {x : Text} (hx : isIdentifier x = true)

include hx

theorem not_mem_identifier {c : Char} (hc : c.isAlphanum = false) (hline : c ≠ '_') :
  c ∉ x
  := by
  intro hmem
  obtain h | h := (forall_mem_identifier hx).2 c hmem
  · rw [hc] at h
    cases h
  · exact hline h

theorem strip_identifier :
  strip x = x
  := by
  have hsolid : ∀ c ∈ x, isSpace c = false := fun c hc =>
    isSpace_of_isAlphanum ((forall_mem_identifier hx).2 c hc)
  have hkeep : ∀ s : Text, (∀ c ∈ s, isSpace c = false) → s.dropWhile isSpace = s := by
    intro s hs
    cases s with
    | nil => rfl
    | cons c s =>
        rw [List.dropWhile_cons_of_neg]
        rw [hs c List.mem_cons_self]
        exact Bool.false_ne_true
  rw [strip, stripBy, hkeep x hsolid, hkeep, List.reverse_reverse]
  intro c hc
  exact hsolid c (List.mem_reverse.mp hc)

theorem not_isPrefixOf_nodesMark :
  nodesMark.isPrefixOf x = false
  := by
  rw [Bool.eq_false_iff]
  intro h
  have hdot : '.' ∈ x := (List.isPrefixOf_iff_prefix.mp h).subset (by decide)
  exact not_mem_identifier hx (by decide) (by decide) hdot

theorem parseNodeOutputReference_identifier :
  parseNodeOutputReference x = none
  := by
  rw [parseNodeOutputReference]
  simp only [strip_identifier hx, not_isPrefixOf_nodesMark hx]
  rfl

/-- A placeholder of a condition that holds a name is looked up among the variables. -/
theorem whenLiteral_identifier (rt : WhenRuntime) (vars : Variables)
    (nodeOutputs : NodeOutputMap) :
  whenLiteral rt vars nodeOutputs x
    = match vars.get? x with
      | none => .error ("unknown_when_variable: 未知变量 ".toList ++ Text.repr rt.isPrintable x)
      | some (.list _) =>
          .error ("list_variable_in_when: when 不支持 list 变量 ".toList
            ++ Text.repr rt.isPrintable x)
      | some (.str value) => .ok (Text.repr rt.isPrintable value)
  := by
  rw [whenLiteral]
  simp only [strip_identifier hx, parseNodeOutputReference_identifier hx,
    not_isPrefixOf_nodesMark hx]
  rfl

theorem rpartition_identifier :
  rpartition '|' x = none
  := by
  have hbar : '|' ∉ x := not_mem_identifier hx (by decide) (by decide)
  have hspan : x.reverse.span (· ≠ '|') = (x.reverse, []) := by
    rw [List.span_eq_takeWhile_dropWhile]
    have hall : ∀ c ∈ x.reverse, decide (c ≠ '|') = true := by
      intro c hc
      rw [decide_eq_true_eq]
      rintro rfl
      exact hbar (List.mem_reverse.mp hc)
    rw [List.takeWhile_eq_self_iff.mpr hall, List.dropWhile_eq_nil_iff.mpr hall]
  rw [rpartition, hspan]

/-- A placeholder of a payload that holds a name is looked up among the variables, unless the
name begins like a reference to an output. -/
theorem placeholderText_identifier (vars : Variables) (nodeOutputs : NodeOutputMap) :
  placeholderText vars nodeOutputs x
    = if "nodes".toList.isPrefixOf x then .error ("unsupported_param_reference: ".toList ++ x)
      else
        match vars.get? x with
        | none => .error ("unresolved_param_variable: ".toList ++ x)
        | some (.list _) => .error ("list_variable_requires_filter: ".toList ++ x)
        | some (.str value) => .ok value
  := by
  have hdot : x.contains '.' = false := by
    rw [Bool.eq_false_iff]
    intro h
    exact not_mem_identifier hx (by decide) (by decide) (List.contains_iff_mem.mp h)
  rw [placeholderText]
  simp only [strip_identifier hx, parseNodeOutputReference_identifier hx,
    rpartition_identifier hx, plainText, not_isPrefixOf_nodesMark hx, resolveVariable, hdot,
    Option.isSome_none, Bool.false_eq_true, if_false, Bool.false_or]
  split
  · rfl
  · cases vars.get? x with
    | none => rfl
    | some value => cases value <;> rfl

end Identifier

/-! ### What the validator accepts -/

theorem toNat_of_isVariableValueChar {c : Char} (h : isVariableValueChar c = true) :
  45 ≤ c.toNat ∧ c.toNat ≤ 122
  := by
  rw [isVariableValueChar, Bool.or_eq_true, List.contains_iff_mem] at h
  obtain halnum | hsign := h
  · have hrange := toNat_of_isAlphanum halnum
    omega
  · revert c
    decide

theorem validateScalarValue_eq_ok {name value : Text}
    (h : validateScalarValue name value = .ok ()) :
  (∀ c ∈ value, isVariableValueChar c = true) ∧ ¬ "--".toList <:+: value
  := by
  obtain ⟨_, -, h⟩ := Outcome.bind_eq_ok.mp h
  rw [require_eq_ok, Bool.and_eq_true, List.all_eq_true, Bool.not_eq_true',
    ← Bool.not_eq_true, occursIn_iff] at h
  exact h

/-- A variable is accepted with an identifier for its name, and texts of safe characters. -/
theorem validateVariable_eq_ok {name : Text} {raw : PyObject} {value : VariableValue}
    (h : validateVariable name raw = .ok value) :
  isIdentifier name = true ∧ ∀ element ∈ value.elements,
    (∀ c ∈ element, isVariableValueChar c = true) ∧ ¬ "--".toList <:+: element
  := by
  obtain ⟨_, hname, h⟩ := Outcome.bind_eq_ok.mp h
  obtain ⟨_, -, h⟩ := Outcome.bind_eq_ok.mp h
  refine ⟨require_eq_ok.mp hname, ?_⟩
  cases raw with
  | str s =>
      obtain ⟨_, hscalar, h⟩ := Outcome.bind_eq_ok.mp h
      obtain rfl := Outcome.pure_eq_ok.mp h
      intro element helement
      obtain rfl := List.mem_singleton.mp helement
      exact validateScalarValue_eq_ok hscalar
  | list elements =>
      obtain ⟨_, -, h⟩ := Outcome.bind_eq_ok.mp h
      obtain ⟨texts, htexts, h⟩ := Outcome.bind_eq_ok.mp h
      obtain rfl := Outcome.pure_eq_ok.mp h
      intro element helement
      obtain ⟨object, -, hobject⟩ := Outcome.exists_of_mem_mapM htexts helement
      cases object with
      | str s =>
          obtain ⟨_, hscalar, hobject⟩ := Outcome.bind_eq_ok.mp hobject
          obtain rfl := Outcome.pure_eq_ok.mp hobject
          exact validateScalarValue_eq_ok hscalar
      | none => cases hobject
      | bool b => cases hobject
      | int n => cases hobject
      | float text finite => cases hobject
      | list elements => cases hobject
      | dict items => cases hobject
  | none => cases h
  | bool b => cases h
  | int n => cases h
  | float text finite => cases h
  | dict items => cases h

theorem validateWorkflowVariables_get? {raw : Dict Text PyObject} {vars : Variables} {x : Text}
    {value : VariableValue} (h : validateWorkflowVariables raw = .ok vars)
    (hx : vars.get? x = some value) :
  isIdentifier x = true ∧ ∀ element ∈ value.elements,
    (∀ c ∈ element, isVariableValueChar c = true) ∧ ¬ "--".toList <:+: element
  := by
  obtain ⟨_, -, h⟩ := Outcome.bind_eq_ok.mp h
  obtain ⟨validated, hvalidated, h⟩ := Outcome.bind_eq_ok.mp h
  obtain rfl := Outcome.pure_eq_ok.mp h
  obtain ⟨item, -, hitem⟩ := Outcome.exists_of_mem_mapM hvalidated (Dict.mem_of_get?_ofList hx)
  obtain ⟨value', hvalue, hitem⟩ := Outcome.bind_eq_ok.mp hitem
  obtain ⟨rfl, rfl⟩ := Prod.mk.inj (Outcome.pure_eq_ok.mp hitem)
  exact validateVariable_eq_ok hvalue

end Workflow

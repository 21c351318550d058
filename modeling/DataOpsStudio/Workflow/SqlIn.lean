import DataOpsStudio.Library.SqlTokens
import DataOpsStudio.Workflow.Names

/-!
# Constants of a list variable

The filter `sql_in` renders a list variable as constants: an element that looks like a number stands
as it is, any other in single quotes with the quotes doubled.  Read as SQL, the text is one
constant for each element, whose value is the element.
-/

namespace Workflow

open Text SqlLexer

/-- The constant an element is to be rendered as. -/
def elementConstant (element : Text) : SqlConstant :=
  if isNumeric element then .number element else .string element

theorem value_elementConstant (element : Text) :
  (elementConstant element).value = element
  := by
  rw [elementConstant]
  split <;> rfl

/-- The tokens of a number. -/
def numberTokens : Text → List SqlToken
  | '-' :: unsigned => [.symbol '-', .number unsigned]
  | element => [.number element]

/-- The tokens of an element. -/
def elementTokens (element : Text) : List SqlToken :=
  if isNumeric element then numberTokens element else [.string element]

/-- A digit of some script among the characters of a value is an ASCII digit. -/
theorem isDigit_of_isDecimalDigit {c : Char} (h : isDecimalDigit c = true)
    (hc : isVariableValueChar c = true) :
  c.isDigit = true
  := by
  have hhigh := (toNat_of_isVariableValueChar hc).2
  rw [isDecimalDigit, digit?, Option.isSome_map, List.find?_isSome] at h
  obtain ⟨z, hz, hrange⟩ := h
  rw [Bool.and_eq_true, decide_eq_true_eq, decide_eq_true_eq] at hrange
  obtain rfl | hother := List.mem_cons.mp hz
  · have hlow : 48 ≤ c.toNat := hrange.1
    have hbound : c.toNat < 58 := hrange.2
    rw [Char.isDigit, Bool.and_eq_true, decide_eq_true_eq, decide_eq_true_eq]
    exact ⟨hlow, Nat.le_of_lt_succ hbound⟩
  · have hfar : ∀ z ∈ otherDigitZeros, 122 < z := by decide
    have hz := hfar z hother
    omega

section Numeric

variable {element : Text}

/-- The parts of a number without a sign. -/
structure NumberParts (unsigned whole fraction : Text) : Prop where
  split : unsigned = whole ++ fraction
  nonempty : whole ≠ []
  digits : ∀ c ∈ whole, c.isDigit = true
  fraction_digits : fraction = [] ∨
    ∃ digits, fraction = '.' :: digits ∧ ∀ c ∈ digits, c.isDigit = true

theorem exists_numberParts {unsigned : Text}
    (hsafe : ∀ c ∈ unsigned, isVariableValueChar c = true)
    (h : (match unsigned.span isDecimalDigit with
      | (whole, []) => !whole.isEmpty
      | (whole, '.' :: fraction) =>
          !whole.isEmpty && !fraction.isEmpty && fraction.all isDecimalDigit
      | _ => false) = true) :
  ∃ whole fraction, NumberParts unsigned whole fraction
  := by
  rw [List.span_eq_takeWhile_dropWhile] at h
  have hsplit := List.takeWhile_append_dropWhile (p := isDecimalDigit) (l := unsigned)
  have hwhole : ∀ c ∈ unsigned.takeWhile isDecimalDigit, c.isDigit = true := fun c hc =>
    isDigit_of_isDecimalDigit (List.mem_takeWhile_imp hc)
      (hsafe c (List.takeWhile_subset _ hc))
  split at h
  · rename_i whole heq
    obtain ⟨rfl, hrest⟩ := Prod.mk.inj heq
    refine ⟨_, [], by rw [← hrest]; exact hsplit.symm, ?_, hwhole, Or.inl rfl⟩
    simpa using h
  · rename_i whole fraction heq
    obtain ⟨rfl, hrest⟩ := Prod.mk.inj heq
    rw [Bool.and_eq_true, Bool.and_eq_true, List.all_eq_true] at h
    refine ⟨_, '.' :: fraction, by rw [← hrest]; exact hsplit.symm, ?_, hwhole,
      Or.inr ⟨fraction, rfl, ?_⟩⟩
    · simpa using h.1.1
    · intro c hc
      apply isDigit_of_isDecimalDigit (h.2 c hc)
      apply hsafe
      rw [← hsplit, hrest]
      exact List.mem_append_right _ (List.mem_cons_of_mem _ hc)
  · cases h

/-- A number is read as its sign, if it has one, and its digits. -/
theorem lexesTo_numberTokens (hsafe : ∀ c ∈ element, isVariableValueChar c = true)
    (hnumeric : isNumeric element = true) :
  LexesTo element (numberTokens element)
  := by
  by_cases hsign : ∃ unsigned, element = '-' :: unsigned
  · obtain ⟨unsigned, rfl⟩ := hsign
    obtain ⟨whole, fraction, hsplit, hne, hdigits, hfraction⟩ :=
      exists_numberParts (fun c hc => hsafe c (List.mem_cons_of_mem _ hc)) hnumeric
    subst hsplit
    exact lexesTo_negative hne hdigits hfraction
  · have hunsigned : numberTokens element = [.number element] := by
      unfold numberTokens
      split
      · rename_i unsigned
        exact absurd ⟨unsigned, rfl⟩ hsign
      · rfl
    have hparts : ∃ whole fraction, NumberParts element whole fraction := by
      apply exists_numberParts hsafe
      unfold isNumeric at hnumeric
      split at hnumeric
      · rename_i unsigned
        exact absurd ⟨unsigned, rfl⟩ hsign
      · exact hnumeric
    obtain ⟨whole, fraction, hsplit, hne, hdigits, hfraction⟩ := hparts
    rw [hunsigned, hsplit]
    exact lexesTo_number hne hdigits hfraction

/-- An accepted element is read as its tokens. -/
theorem lexesTo_formatSqlElement (hsafe : ∀ c ∈ element, isVariableValueChar c = true) :
  LexesTo (formatSqlElement element) (elementTokens element)
  := by
  rw [formatSqlElement, elementTokens]
  split
  · rename_i hnumeric
    exact lexesTo_numberTokens hsafe hnumeric
  · rw [replace_quote]
    exact lexesTo_quoted element

theorem constant?_elementTokens (element : Text) :
  constant? (elementTokens element) = some (elementConstant element)
  := by
  rw [elementTokens, elementConstant]
  split
  · unfold numberTokens
    split <;> rfl
  · rfl

theorem comma_not_mem_elementTokens (element : Text) :
  SqlToken.symbol ',' ∉ elementTokens element
  := by
  rw [elementTokens]
  split
  · unfold numberTokens
    split <;> simp
  · simp

end Numeric

/-- The filter `sql_in` renders the elements of an accepted list as one constant each, the number
or the character string whose value is the element, and an empty list as `NULL`. -/
theorem formatSqlIn_constants {raw : Dict Text PyObject} {vars : Variables} {x : Text}
    {elements : List Text} (hvars : validateWorkflowVariables raw = .ok vars)
    (hx : vars.get? x = some (.list elements)) :
  constants? (formatSqlIn (.list elements))
      = some (if elements = [] then [.null] else elements.map elementConstant) ∧
    (elements.map elementConstant).map SqlConstant.value = elements ∧
    (elements = [] → formatSqlIn (.list elements) = "NULL".toList)
  := by
  have hsafe := (validateWorkflowVariables_get? hvars hx).2
  refine ⟨?_, ?_, ?_⟩
  · by_cases hne : elements = []
    · subst hne
      rfl
    · have hempty : (VariableValue.list elements).elements.isEmpty = false :=
        List.isEmpty_eq_false_iff.mpr hne
      rw [formatSqlIn, hempty, if_neg hne]
      exact constants?_join hne (fun e he => lexesTo_formatSqlElement (hsafe e he).1)
        (fun e _ => comma_not_mem_elementTokens e) (fun e _ => constant?_elementTokens e)
  · rw [List.map_map]
    calc
      elements.map (SqlConstant.value ∘ elementConstant) = elements.map id := by
        apply List.map_congr_left
        intro e _
        exact value_elementConstant e
      _ = elements := List.map_id elements
  · rintro rfl
    rfl

/-- A number with a sign, a text and a number with a fraction. -/
def mixedElements : List Text := ["-5", "a.b", "1.50"].map String.toList

theorem formatSqlIn_constants_mixed :
  constants? (formatSqlIn (.list mixedElements))
      = some (if mixedElements = [] then [.null] else mixedElements.map elementConstant) ∧
    (mixedElements.map elementConstant).map SqlConstant.value = mixedElements ∧
    (mixedElements = [] → formatSqlIn (.list mixedElements) = "NULL".toList)
  := by
  have hvars : validateWorkflowVariables
      (Dict.empty.set "ids".toList (.list (mixedElements.map .str)))
        = .ok (Dict.empty.set "ids".toList (.list mixedElements)) := by rfl
  have hids : Dict.get? (Dict.empty.set "ids".toList (VariableValue.list mixedElements))
      "ids".toList = some (.list mixedElements) := by decide
  exact formatSqlIn_constants hvars hids

end Workflow

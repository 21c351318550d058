import DataOpsStudio.Compare.DecimalText
import DataOpsStudio.Compare.Rounding

/-!
# The order of numeric keys

Keys are sorted by the doubles nearest to their numbers, and by their texts where these are the
same.  So two numbers with one double may come the wrong way round, and so may integers that are out
of the range of doubles.  Without two such keys the order is that of the numbers.
-/

namespace Compare

open Text

/-! ### Comparisons -/

/-- Things are compared by something that is computed of them. -/
def comparing {α β : Type} (f : α → β) (cmp : β → β → Ordering) (a b : α) : Ordering :=
  cmp (f a) (f b)

instance {α β : Type} (f : α → β) (cmp : β → β → Ordering) [Std.TransCmp cmp] :
    Std.TransCmp (comparing f cmp) where
  eq_swap := @fun a b => @Std.OrientedCmp.eq_swap β cmp _ (f a) (f b)
  isLE_trans := @fun a b c => @Std.TransCmp.isLE_trans β cmp _ (f a) (f b) (f c)

instance : Std.TransCmp compareRat where
  eq_swap := by
    intro p q
    rw [compareRat, compareRat]
    rcases lt_trichotomy p q with h | rfl | h
    · rw [if_pos h, if_neg (lt_asymm h), if_neg h.ne']
      rfl
    · rw [if_neg (lt_irrefl p), if_pos rfl]
      rfl
    · rw [if_neg (lt_asymm h), if_neg h.ne', if_pos h]
      rfl
  isLE_trans := by
    intro p q r
    have hle : ∀ s t : ℚ, (compareRat s t).isLE = true ↔ s ≤ t := by
      intro s t
      rw [compareRat]
      rcases lt_trichotomy s t with h | rfl | h
      · rw [if_pos h]
        exact iff_of_true rfl h.le
      · rw [if_neg (lt_irrefl s), if_pos rfl]
        exact iff_of_true rfl le_rfl
      · rw [if_neg (lt_asymm h), if_neg h.ne']
        exact iff_of_false Bool.false_ne_true (not_le.mpr h)
    rw [hle, hle, hle]
    exact le_trans

theorem compareRat_eq_eq {p q : ℚ} :
  compareRat p q = .eq ↔ p = q
  := by
  rw [compareRat]
  rcases lt_trichotomy p q with h | rfl | h
  · rw [if_pos h]
    exact iff_of_false (by decide) h.ne
  · rw [if_neg (lt_irrefl p), if_pos rfl]
    exact iff_of_true rfl rfl
  · rw [if_neg (lt_asymm h), if_neg h.ne']
    exact iff_of_false (by decide) h.ne'

theorem compareRat_eq_lt {p q : ℚ} :
  compareRat p q = .lt ↔ p < q
  := by
  rw [compareRat]
  split
  · rename_i h
    exact iff_of_true rfl h
  · rename_i h
    split
    · exact iff_of_false (by decide) h
    · exact iff_of_false (by decide) h

theorem compareText_eq_compareLex (s t : Text) :
  compareText s t = List.compareLex (comparing Char.toNat compare) s t
  := by
  induction s generalizing t with
  | nil =>
      cases t with
      | nil => rfl
      | cons d t => rfl
  | cons c s ih =>
      cases t with
      | nil => rfl
      | cons d t =>
          rw [compareText, ih, List.compareLex_cons_cons]
          rfl

theorem compareSortKeys_eq_compareLex (a b : List SortComponent) :
  compareSortKeys a b = List.compareLex SortComponent.compare a b
  := by
  induction a generalizing b with
  | nil =>
      cases b with
      | nil => rfl
      | cons w b => rfl
  | cons v a ih =>
      cases b with
      | nil => rfl
      | cons w b => rw [compareSortKeys, ih, List.compareLex_cons_cons]

theorem SortComponent.compare_eq_compareLex :
  SortComponent.compare = compareLex (comparing tier Ord.compare)
    (compareLex (comparing range Ord.compare)
      (compareLex (comparing number compareRat)
        (comparing text (List.compareLex (comparing Char.toNat Ord.compare)))))
  := by
  funext a b
  rw [SortComponent.compare, compareText_eq_compareLex]
  rfl

instance : Std.TransCmp SortComponent.compare := by
  rw [SortComponent.compare_eq_compareLex]
  infer_instance

instance : Std.LawfulEqCmp (comparing Char.toNat compare) where
  compare_self := Std.ReflCmp.compare_self
  eq_of_compare h := Char.toNat_inj.mp (Nat.compare_eq_eq.mp h)

/-- Components that compare equal are the same. -/
theorem SortComponent.eq_of_compare {a b : SortComponent} (h : a.compare b = .eq) :
  a = b
  := by
  rw [SortComponent.compare, Ordering.then_eq_eq, Ordering.then_eq_eq, Ordering.then_eq_eq,
    compareText_eq_compareLex] at h
  obtain ⟨htier, hrange, hnumber, htext⟩ := h
  obtain ⟨tier, range, number, text⟩ := a
  obtain rfl := Nat.compare_eq_eq.mp htier
  obtain rfl := Std.LawfulEqCmp.eq_of_compare hrange
  obtain rfl := compareRat_eq_eq.mp hnumber
  obtain rfl := Std.LawfulEqCmp.eq_of_compare htext
  rfl

/-! ### Numbers in keys -/

/-- A value is missing, an integer or a decimal number. -/
inductive IsNumeric : PyValue → Prop where
  | none : IsNumeric .none
  | int (n : ℤ) : IsNumeric (.int n)
  | decimal (d : Decimal) : IsNumeric (.decimal d)

/-- Numbers by value, after a missing one. -/
def compareNumber : Option ℚ → Option ℚ → Ordering
  | none, none => .eq
  | none, some _ => .lt
  | some _, none => .gt
  | some p, some q => compareRat p q

instance : Std.TransCmp compareNumber where
  eq_swap := by
    rintro (_ | p) (_ | q)
    · rfl
    · rfl
    · rfl
    · exact @Std.OrientedCmp.eq_swap ℚ compareRat _ p q
  isLE_trans := by
    rintro (_ | p) (_ | q) (_ | r) h h'
    · rfl
    · rfl
    · rfl
    · rfl
    · cases h
    · cases h
    · cases h'
    · exact @Std.TransCmp.isLE_trans ℚ compareRat _ p q r h h'

instance : Std.LawfulEqCmp compareNumber where
  compare_self := Std.ReflCmp.compare_self
  eq_of_compare := by
    rintro (_ | p) (_ | q) h
    · rfl
    · cases h
    · cases h
    · rw [compareRat_eq_eq.mp h]

/-- The numbers of a key, column by column. -/
def numbers (pk : List PyValue) : List (Option ℚ) := pk.map PyValue.numeric?

/-- Keys by their numbers, the first column first. -/
def compareNumbers (a b : List PyValue) : Ordering :=
  List.compareLex compareNumber (numbers a) (numbers b)

/-- The double nearest to a number, or an infinity. -/
def saturated (q : ℚ) : ℤ × ℚ :=
  if overflowsDouble (roundDouble q) then (if 0 < q then 1 else -1, 0) else (0, roundDouble q)

/-- The double that a number is converted to; an integer out of the range of doubles is not
converted. -/
def toDouble? : PyValue → Option (ℤ × ℚ)
  | .int n => if overflowsDouble (roundDouble n) then none else some (saturated n)
  | .decimal d => some (saturated d.value)
  | _ => none

/-- Whether values are converted and written the same. -/
def ComesAlong (v w : PyValue) : Prop := toDouble? v = toDouble? w ∧ v.text = w.text

/-- Whether a value that is not the greater one comes behind another all the same: they are
converted to one double, or both are not converted, and their texts come the other way round, or
only the second one is converted. -/
def Misplaced (v w : PyValue) : Prop :=
  v ≠ .none ∧ w ≠ .none ∧
    match toDouble? v, toDouble? w with
    | some p, some q => p = q ∧ compareText v.text w.text = .gt
    | some _, none => False
    | none, some _ => True
    | none, none => compareText v.text w.text = .gt

/-- Whether a key is misplaced: at the first column that is not converted and written the same. -/
def KeyMisplaced : List PyValue → List PyValue → Prop
  | v :: a, w :: b => ¬ComesAlong v w ∧ Misplaced v w ∨ ComesAlong v w ∧ KeyMisplaced a b
  | _, _ => False

/-- Whether a value comes before another when keys are sorted: a missing value before numbers, then
the doubles by value, and numbers that are not converted behind them.  Where the doubles are the
same, or there are none, the texts decide. -/
def ComesFirst (v w : PyValue) : Prop :=
  if v = .none then w ≠ .none
  else if w = .none then False
  else
    match toDouble? v, toDouble? w with
    | some p, some q =>
        p.1 < q.1 ∨ p.1 = q.1 ∧ (p.2 < q.2 ∨ p.2 = q.2 ∧ compareText v.text w.text = .lt)
    | some _, none => True
    | none, some _ => False
    | none, none => compareText v.text w.text = .lt

/-- Whether a key comes before another: at the first column where they differ. -/
def KeyComesFirst : List PyValue → List PyValue → Prop
  | [], b => b ≠ []
  | _ :: _, [] => False
  | v :: a, w :: b => ComesFirst v w ∨ ComesAlong v w ∧ KeyComesFirst a b

/-! ### Sort keys of numbers -/

/-- The text of a number is read back as the number. -/
theorem numeric?_eq_of_text {v w : PyValue} (hv : IsNumeric v) (hw : IsNumeric w)
    (h : v.text = w.text) :
  v.numeric? = w.numeric?
  := by
  have hread : ∀ {u : PyValue}, IsNumeric u →
      ((parseDecimal? u.text).bind (fun parsed =>
        match parsed with
        | .finite d => some d.value
        | _ => none)) = u.numeric? := by
    intro u hu
    cases hu with
    | none => rfl
    | int n =>
        rw [PyValue.text, parseDecimal?_intText, PyValue.numeric?, Option.bind_some]
        simp only [Decimal.value, zpow_zero, mul_one, Option.some.injEq]
        rcases lt_or_ge n 0 with hneg | hpos
        · rw [decide_eq_true hneg, if_pos rfl]
          rw [Nat.cast_natAbs, abs_of_neg hneg]
          simp
        · rw [decide_eq_false (not_lt.mpr hpos), if_neg Bool.false_ne_true]
          rw [Nat.cast_natAbs, abs_of_nonneg hpos]
          simp
    | decimal d => rw [PyValue.text, parseDecimal?_text, PyValue.numeric?, Option.bind_some]
  rw [← hread hv, ← hread hw, h]

theorem sortComponent_of_isNumeric {v : PyValue} (h : IsNumeric v) (hne : v ≠ .none) :
  sortComponent v =
    match toDouble? v with
    | some p => ⟨1, p.1, p.2, v.text⟩
    | none => ⟨2, 0, 0, v.text⟩
  := by
  cases h with
  | none => exact absurd rfl hne
  | int n =>
      rw [sortComponent, toDouble?]
      split
      · rfl
      · rename_i h
        rw [saturated, if_neg h]
  | decimal d =>
      rw [sortComponent, saturating, toDouble?, saturated]
      split
      · rfl
      · rfl

theorem compare_sortComponent_eq_lt {v w : PyValue} (hv : IsNumeric v) (hw : IsNumeric w) :
  (sortComponent v).compare (sortComponent w) = .lt ↔ ComesFirst v w
  := by
  rw [ComesFirst]
  by_cases hvnone : v = .none
  · subst hvnone
    rw [if_pos rfl]
    by_cases hwnone : w = .none
    · subst hwnone
      exact iff_of_false (by decide) (fun h => h rfl)
    · rw [sortComponent_of_isNumeric hw hwnone]
      refine iff_of_true ?_ hwnone
      cases toDouble? w with
      | none => rfl
      | some q => rfl
  · rw [if_neg hvnone, sortComponent_of_isNumeric hv hvnone]
    by_cases hwnone : w = .none
    · subst hwnone
      rw [if_pos rfl]
      refine iff_of_false ?_ id
      cases toDouble? v with
      | none =>
          intro h
          cases h
      | some p =>
          intro h
          cases h
    · rw [if_neg hwnone, sortComponent_of_isNumeric hw hwnone]
      cases toDouble? v with
      | none =>
          cases toDouble? w with
          | none => simp [SortComponent.compare, compareRat]
          | some q =>
              refine iff_of_false ?_ id
              intro h
              cases h
      | some p =>
          cases toDouble? w with
          | none => exact iff_of_true rfl trivial
          | some q =>
              simp only [SortComponent.compare, Std.ReflCmp.compare_self, Ordering.eq_then,
                Ordering.then_eq_lt, compareRat_eq_lt, compareRat_eq_eq, Int.compare_eq_lt,
                Int.compare_eq_eq]

theorem compare_sortComponent_eq_eq {v w : PyValue} (hv : IsNumeric v) (hw : IsNumeric w) :
  (sortComponent v).compare (sortComponent w) = .eq ↔ ComesAlong v w
  := by
  constructor
  · intro h
    have heq := SortComponent.eq_of_compare h
    by_cases hvnone : v = .none
    · subst hvnone
      by_cases hwnone : w = .none
      · rw [hwnone]
        exact ⟨rfl, rfl⟩
      · rw [sortComponent_of_isNumeric hw hwnone] at heq
        cases hdouble : toDouble? w with
        | none =>
            rw [hdouble] at heq
            cases heq
        | some q =>
            rw [hdouble] at heq
            cases heq
    · rw [sortComponent_of_isNumeric hv hvnone] at heq
      by_cases hwnone : w = .none
      · subst hwnone
        cases hdouble : toDouble? v with
        | none =>
            rw [hdouble] at heq
            cases heq
        | some p =>
            rw [hdouble] at heq
            cases heq
      · rw [sortComponent_of_isNumeric hw hwnone] at heq
        rw [ComesAlong]
        cases hp : toDouble? v with
        | none =>
            cases hq : toDouble? w with
            | none =>
                rw [hp, hq] at heq
                exact ⟨rfl, (SortComponent.mk.inj heq).2.2.2⟩
            | some q =>
                rw [hp, hq] at heq
                cases (SortComponent.mk.inj heq).1
        | some p =>
            cases hq : toDouble? w with
            | none =>
                rw [hp, hq] at heq
                cases (SortComponent.mk.inj heq).1
            | some q =>
                rw [hp, hq] at heq
                obtain ⟨-, hrange, hnumber, htext⟩ := SortComponent.mk.inj heq
                exact ⟨congrArg some (Prod.ext hrange hnumber), htext⟩
  · rintro ⟨hdouble, htext⟩
    have hsame : sortComponent v = sortComponent w := by
      have hnumbers := numeric?_eq_of_text hv hw htext
      by_cases hvnone : v = .none
      · subst hvnone
        cases hw with
        | none => rfl
        | int n => cases hnumbers
        | decimal d => cases hnumbers
      · have hwnone : w ≠ .none := by
          rintro rfl
          cases hv with
          | none => exact hvnone rfl
          | int n => cases hnumbers
          | decimal d => cases hnumbers
        rw [sortComponent_of_isNumeric hv hvnone, sortComponent_of_isNumeric hw hwnone, hdouble,
          htext]
    rw [hsame]
    exact Std.ReflCmp.compare_self

theorem compareSortKeys_eq_lt {a b : List PyValue} (ha : ∀ v ∈ a, IsNumeric v)
    (hb : ∀ v ∈ b, IsNumeric v) :
  compareSortKeys (comparePkSortKey a) (comparePkSortKey b) = .lt ↔ KeyComesFirst a b
  := by
  induction a generalizing b with
  | nil =>
      cases b with
      | nil => exact iff_of_false (by decide) (fun h => h rfl)
      | cons w b => exact iff_of_true rfl (List.cons_ne_nil w b)
  | cons v a ih =>
      cases b with
      | nil =>
          refine iff_of_false ?_ id
          intro h
          cases h
      | cons w b =>
          have hv := ha v List.mem_cons_self
          have hw := hb w List.mem_cons_self
          rw [KeyComesFirst, ← compare_sortComponent_eq_lt hv hw,
            ← compare_sortComponent_eq_eq hv hw,
            ← ih (fun u hu => ha u (List.mem_cons_of_mem v hu))
              (fun u hu => hb u (List.mem_cons_of_mem w hu)), ← Ordering.then_eq_lt]
          rfl

/-- Keys of which the sort keys compare equal have the same numbers. -/
theorem numbers_eq_of_compareSortKeys {a b : List PyValue} (ha : ∀ v ∈ a, IsNumeric v)
    (hb : ∀ v ∈ b, IsNumeric v)
    (h : compareSortKeys (comparePkSortKey a) (comparePkSortKey b) = .eq) :
  numbers a = numbers b
  := by
  induction a generalizing b with
  | nil =>
      cases b with
      | nil => rfl
      | cons w b => cases h
  | cons v a ih =>
      cases b with
      | nil => cases h
      | cons w b =>
          obtain ⟨hfirst, hrest⟩ := Ordering.then_eq_eq.mp h
          have hv := ha v List.mem_cons_self
          have hw := hb w List.mem_cons_self
          have hnumber := numeric?_eq_of_text hv hw ((compare_sortComponent_eq_eq hv hw).mp hfirst).2
          have htail := ih (fun u hu => ha u (List.mem_cons_of_mem v hu))
            (fun u hu => hb u (List.mem_cons_of_mem w hu)) hrest
          rw [numbers, numbers, List.map_cons, List.map_cons, hnumber]
          exact congrArg _ htail

/-! ### Misplaced keys -/

theorem compareText_self (s : Text) :
  compareText s s = .eq
  := by
  rw [compareText_eq_compareLex]
  exact @Std.ReflCmp.compare_self _ (List.compareLex (comparing Char.toNat compare)) _ s

theorem compareText_eq_eq {s t : Text} :
  compareText s t = .eq ↔ s = t
  := by
  constructor
  · rw [compareText_eq_compareLex]
    exact @Std.LawfulEqCmp.eq_of_compare _ (List.compareLex (comparing Char.toNat compare)) _ s t
  · rintro rfl
    exact compareText_self s

/-- A greater number is converted to a greater double, or to the same one. -/
theorem saturated_mono {p q : ℚ} (h : p ≤ q) :
  (saturated p).1 < (saturated q).1
    ∨ (saturated p).1 = (saturated q).1 ∧ (saturated p).2 ≤ (saturated q).2
  := by
  have hround := roundDouble_mono h
  have hnonneg : ∀ {r : ℚ}, 0 < r → 0 ≤ roundDouble r := fun hr => roundDouble_nonneg hr.le
  have hnonpos : ∀ {r : ℚ}, ¬0 < r → roundDouble r ≤ 0 := by
    intro r hr
    rw [← neg_neg r, roundDouble_neg]
    exact neg_nonpos.mpr (roundDouble_nonneg (neg_nonneg.mpr (not_lt.mp hr)))
  rw [saturated, saturated]
  by_cases hp : overflowsDouble (roundDouble p) = true
  · rw [if_pos hp]
    by_cases hq : overflowsDouble (roundDouble q) = true
    · rw [if_pos hq]
      by_cases hpos : 0 < p
      · rw [if_pos hpos, if_pos (lt_of_lt_of_le hpos h)]
        exact .inr ⟨rfl, le_rfl⟩
      · rw [if_neg hpos]
        split
        · exact .inl (by decide)
        · exact .inr ⟨rfl, le_rfl⟩
    · rw [if_neg hq]
      rw [overflowsDouble, decide_eq_true_iff] at hp hq
      by_cases hpos : 0 < p
      · rw [abs_of_nonneg (hnonneg hpos)] at hp
        rw [abs_of_nonneg (hnonneg (lt_of_lt_of_le hpos h))] at hq
        exact absurd (le_trans hp hround) hq
      · rw [if_neg hpos]
        exact .inl neg_one_lt_zero
  · rw [if_neg hp]
    by_cases hq : overflowsDouble (roundDouble q) = true
    · rw [if_pos hq]
      by_cases hpos : 0 < q
      · rw [if_pos hpos]
        exact .inl zero_lt_one
      · rw [overflowsDouble, decide_eq_true_iff] at hp hq
        rw [abs_of_nonpos (hnonpos hpos)] at hq
        rw [abs_of_nonpos (le_trans hround (hnonpos hpos))] at hp
        exact absurd (le_trans hq (neg_le_neg hround)) hp
    · rw [if_neg hq]
      exact .inr ⟨rfl, hround⟩

theorem toDouble?_eq {v : PyValue} {p : ℤ × ℚ} {q : ℚ} (h : toDouble? v = some p)
    (hnumber : v.numeric? = some q) :
  p = saturated q
  := by
  cases v with
  | int n =>
      rw [toDouble?] at h
      split at h
      · cases h
      · obtain rfl := Option.some.inj hnumber
        exact (Option.some.inj h).symm
  | decimal d =>
      obtain rfl := Option.some.inj hnumber
      exact (Option.some.inj h).symm
  | _ => cases h

theorem exists_numeric?_of_ne_none {v : PyValue} (h : IsNumeric v) (hne : v ≠ .none) :
  ∃ q, v.numeric? = some q
  := by
  cases h with
  | none => exact absurd rfl hne
  | int n => exact ⟨n, rfl⟩
  | decimal d => exact ⟨d.value, rfl⟩

/-- A value that is not greater comes first unless it is misplaced. -/
theorem comesFirst_iff_not_misplaced {v w : PyValue} (hv : IsNumeric v) (hw : IsNumeric w)
    (hle : compareNumber v.numeric? w.numeric? ≠ .gt) (hne : ¬ComesAlong v w) :
  ComesFirst v w ↔ ¬Misplaced v w
  := by
  rw [ComesFirst, Misplaced]
  by_cases hvnone : v = .none
  · rw [if_pos hvnone]
    apply iff_of_true
    · rintro rfl
      exact hne (by rw [hvnone]; exact ⟨rfl, rfl⟩)
    · exact fun h => h.1 hvnone
  · rw [if_neg hvnone]
    obtain ⟨p, hp⟩ := exists_numeric?_of_ne_none hv hvnone
    by_cases hwnone : w = .none
    · rw [hp, hwnone] at hle
      exact absurd rfl hle
    · rw [if_neg hwnone]
      obtain ⟨q, hq⟩ := exists_numeric?_of_ne_none hw hwnone
      have hpq : p ≤ q := by
        rw [hp, hq, compareNumber, compareRat] at hle
        by_contra hlt
        rw [if_neg (not_lt.mpr (not_le.mp hlt).le), if_neg (not_le.mp hlt).ne'] at hle
        exact hle rfl
      rw [ComesAlong] at hne
      have htexts : toDouble? v = toDouble? w →
          (compareText v.text w.text = .lt ↔ ¬compareText v.text w.text = .gt) := by
        intro hdouble
        cases hcompare : compareText v.text w.text with
        | lt => exact iff_of_true rfl (by decide)
        | eq => exact absurd ⟨hdouble, compareText_eq_eq.mp hcompare⟩ hne
        | gt => exact iff_of_false (by decide) (fun h => h rfl)
      cases hdouble : toDouble? v with
      | none =>
          cases hdouble' : toDouble? w with
          | none =>
              rw [hdouble, hdouble'] at htexts
              simp [hvnone, hwnone, htexts]
          | some y => simp [hvnone, hwnone]
      | some x =>
          cases hdouble' : toDouble? w with
          | none => simp
          | some y =>
              rw [hdouble, hdouble', Option.some.injEq] at htexts
              have hmono := saturated_mono hpq
              rw [← toDouble?_eq hdouble hp, ← toDouble?_eq hdouble' hq] at hmono
              simp only [ne_eq, hvnone, hwnone, not_false_eq_true, true_and, not_and]
              by_cases hxy : x = y
              · simp [hxy, htexts hxy]
              · simp only [hxy, false_implies, iff_true]
                rcases hmono with hlt | ⟨heq, hle'⟩
                · exact .inl hlt
                · refine .inr ⟨heq, .inl (lt_of_le_of_ne hle' ?_)⟩
                  exact fun h => hxy (Prod.ext heq h)

theorem not_comesFirst_of_comesAlong {v w : PyValue} (hv : IsNumeric v) (hw : IsNumeric w)
    (h : ComesAlong v w) :
  ¬ComesFirst v w
  := by
  rw [← compare_sortComponent_eq_lt hv hw, (compare_sortComponent_eq_eq hv hw).mpr h]
  decide

/-- A key with smaller numbers comes first unless it is misplaced. -/
theorem keyComesFirst_iff_not_misplaced {a b : List PyValue} (ha : ∀ v ∈ a, IsNumeric v)
    (hb : ∀ v ∈ b, IsNumeric v) (hlt : compareNumbers a b = .lt) :
  KeyComesFirst a b ↔ ¬KeyMisplaced a b
  := by
  induction a generalizing b with
  | nil =>
      cases b with
      | nil => cases hlt
      | cons w b => exact iff_of_true (List.cons_ne_nil w b) id
  | cons v a ih =>
      cases b with
      | nil => cases hlt
      | cons w b =>
          have hv := ha v List.mem_cons_self
          have hw := hb w List.mem_cons_self
          rw [KeyComesFirst, KeyMisplaced]
          have hlex : (compareNumber v.numeric? w.numeric?).then (compareNumbers a b) = .lt := by
            rw [← hlt, compareNumbers, compareNumbers, numbers, numbers, numbers, numbers,
              List.map_cons, List.map_cons, List.compareLex_cons_cons]
          by_cases halong : ComesAlong v w
          · rw [numeric?_eq_of_text hv hw halong.2,
              @Std.ReflCmp.compare_self _ compareNumber _ w.numeric?, Ordering.eq_then] at hlex
            simp only [halong, not_true_eq_false, false_and, false_or, true_and,
              not_comesFirst_of_comesAlong hv hw halong]
            exact ih (fun u hu => ha u (List.mem_cons_of_mem v hu))
              (fun u hu => hb u (List.mem_cons_of_mem w hu)) hlex
          · have hle : compareNumber v.numeric? w.numeric? ≠ .gt := by
              intro hgt
              rw [hgt] at hlex
              cases hlex
            simp only [halong, not_false_eq_true, true_and, false_and, or_false]
            exact comesFirst_iff_not_misplaced hv hw hle halong

/-! ### Sorted keys -/

/-- The keys of a set: no two of them have the same numbers. -/
structure IsKeySet (keys : List (List PyValue)) : Prop where
  numeric : ∀ pk ∈ keys, ∀ v ∈ pk, IsNumeric v
  distinct : keys.Pairwise (fun a b => numbers a ≠ numbers b)

theorem sortedCompareKeys_pairwise (keys : List (List PyValue)) :
  (sortedCompareKeys keys).Pairwise (fun a b =>
    (compareSortKeys (comparePkSortKey a) (comparePkSortKey b)).isLE = true)
  := by
  have hle : ∀ o : Ordering, (o != .gt) = o.isLE := by
    intro o
    cases o with
    | lt => rfl
    | eq => rfl
    | gt => rfl
  have hsorted := @List.pairwise_mergeSort _
    (fun a b => compareSortKeys (comparePkSortKey a) (comparePkSortKey b) != .gt)
    (by
      intro a b c
      rw [hle, hle, hle, compareSortKeys_eq_compareLex, compareSortKeys_eq_compareLex,
        compareSortKeys_eq_compareLex]
      exact Std.TransCmp.isLE_trans)
    (by
      intro a b
      rw [hle, hle, compareSortKeys_eq_compareLex, compareSortKeys_eq_compareLex,
        @Std.OrientedCmp.eq_swap _ (List.compareLex SortComponent.compare) _
          (comparePkSortKey b) (comparePkSortKey a)]
      cases List.compareLex SortComponent.compare (comparePkSortKey a) (comparePkSortKey b) with
      | lt => rfl
      | eq => rfl
      | gt => rfl) keys
  apply hsorted.imp
  intro a b h
  rw [← hle]
  exact h

theorem compareNumbers_swap (a b : List PyValue) :
  compareNumbers a b = (compareNumbers b a).swap
  := @Std.OrientedCmp.eq_swap _ (List.compareLex compareNumber) _ (numbers a) (numbers b)

theorem compareNumbers_eq_eq {a b : List PyValue} :
  compareNumbers a b = .eq ↔ numbers a = numbers b
  := by
  constructor
  · exact @Std.LawfulEqCmp.eq_of_compare _ (List.compareLex compareNumber) _ (numbers a) (numbers b)
  · intro h
    rw [compareNumbers, h]
    exact @Std.ReflCmp.compare_self _ (List.compareLex compareNumber) _ (numbers b)

theorem compareSortKeys_swap (a b : List SortComponent) :
  compareSortKeys a b = (compareSortKeys b a).swap
  := by
  rw [compareSortKeys_eq_compareLex, compareSortKeys_eq_compareLex]
  exact @Std.OrientedCmp.eq_swap _ (List.compareLex SortComponent.compare) _ a b

/-- When keys are sorted by their numbers, every two of them come in this order. -/
theorem keyComesFirst_of_sorted {keys : List (List PyValue)} (h : IsKeySet keys)
    (hsorted : (sortedCompareKeys keys).Pairwise (fun a b => compareNumbers a b = .lt))
    {a b : List PyValue} (ha : a ∈ keys) (hb : b ∈ keys) (hlt : compareNumbers a b = .lt) :
  KeyComesFirst a b
  := by
  -- one of the two keys stands before the other
  let Precedes : List PyValue → List PyValue → Prop := fun a b =>
    compareNumbers a b = .lt
      ∧ (compareSortKeys (comparePkSortKey a) (comparePkSortKey b)).isLE = true
  have hboth : (sortedCompareKeys keys).Pairwise (fun a b => Precedes a b ∨ Precedes b a) :=
    (hsorted.and (sortedCompareKeys_pairwise keys)).imp .inl
  have : Std.Symm (fun a b => Precedes a b ∨ Precedes b a) := ⟨fun _ _ hor => hor.symm⟩
  have hne : a ≠ b := by
    rintro rfl
    rw [compareNumbers_eq_eq.mpr rfl] at hlt
    cases hlt
  have hperm := sortedCompareKeys_perm keys
  rcases hboth.forall (hperm.mem_iff.mpr ha) (hperm.mem_iff.mpr hb) hne with ⟨-, hle⟩ | ⟨hgt, -⟩
  · rw [← compareSortKeys_eq_lt (h.numeric a ha) (h.numeric b hb)]
    cases hcompare : compareSortKeys (comparePkSortKey a) (comparePkSortKey b) with
    | lt => rfl
    | eq =>
        have heq := numbers_eq_of_compareSortKeys (h.numeric a ha) (h.numeric b hb) hcompare
        rw [compareNumbers_eq_eq.mpr heq] at hlt
        cases hlt
    | gt =>
        rw [hcompare] at hle
        cases hle
  · rw [compareNumbers_swap, hlt] at hgt
    cases hgt

/-- When every two keys come in the order of their numbers, they are sorted by these. -/
theorem sorted_of_keyComesFirst {keys : List (List PyValue)} (h : IsKeySet keys)
    (hall : ∀ a ∈ keys, ∀ b ∈ keys, compareNumbers a b = .lt → KeyComesFirst a b) :
  (sortedCompareKeys keys).Pairwise (fun a b => compareNumbers a b = .lt)
  := by
  have hperm := sortedCompareKeys_perm keys
  have hdistinct : (sortedCompareKeys keys).Pairwise (fun a b => numbers a ≠ numbers b) :=
    hperm.symm.pairwise h.distinct (fun hne => hne.symm)
  apply (hdistinct.and (sortedCompareKeys_pairwise keys)).imp_of_mem
  rintro a b ha hb ⟨hne, hle⟩
  cases hcompare : compareNumbers a b with
  | lt => rfl
  | eq => exact absurd (compareNumbers_eq_eq.mp hcompare) hne
  | gt =>
      rw [compareNumbers_swap, Ordering.swap_eq_gt] at hcompare
      have hfirst := hall b (hperm.mem_iff.mp hb) a (hperm.mem_iff.mp ha) hcompare
      rw [← compareSortKeys_eq_lt (h.numeric b (hperm.mem_iff.mp hb))
        (h.numeric a (hperm.mem_iff.mp ha))] at hfirst
      rw [compareSortKeys_swap, hfirst] at hle
      cases hle

theorem isKeySet_two : IsKeySet [[.int 2], [.int 1]]
  := by
  constructor
  · intro pk hpk v hv
    rcases List.mem_pair.mp hpk with rfl | rfl
    · rw [List.mem_singleton.mp hv]
      exact .int 2
    · rw [List.mem_singleton.mp hv]
      exact .int 1
  · simp [numbers, PyValue.numeric?]

end Compare

import DataOpsStudio.Sql.PlainView

/-!
# Placeholders that are put back

The placeholders of a query are put back one after the other, each wherever its name occurs.  The
names end as they begin, with two underscores, so that a text behind one of them can turn its end
into the beginning of another, earlier one, and the name is lost when that one is put back.  Without
such a text the query is restored.
-/

namespace Sql

open Text

/-! ### Names -/

/-- Inside of the beginning of a name no other name begins. -/
theorem not_underscores_at {v r rest : Text} {d : Char} (h : bindSentinelPrefix = v ++ r)
    (hv : v ≠ []) (hr : r ≠ []) (hd : d.isDigit = true) :
  ¬ ['_', '_'] <+: r ++ d :: rest
  := by
  have hdrop : r = bindSentinelPrefix.drop v.length := by rw [h, List.drop_left]
  have hlength : v.length + r.length = 20 := by
    rw [← List.length_append, ← h]
    rfl
  have hvpos := List.length_pos_of_ne_nil hv
  have hrpos := List.length_pos_of_ne_nil hr
  intro hbegin
  by_cases hlast : r.length = 1
  · have hv19 : v.length = 19 := by omega
    have hr : r = ['_'] := by
      rw [hdrop, hv19]
      rfl
    rw [hr] at hbegin
    have hd' : '_' = d := (List.cons_prefix_cons.mp (List.cons_prefix_cons.mp hbegin).2).1
    rw [← hd'] at hd
    cases hd
  · have hinside : ∀ m ∈ List.range 19, 0 < m →
        ¬ ['_', '_'] <+: bindSentinelPrefix.drop m := by decide
    apply hinside v.length (List.mem_range.mpr (by omega)) hvpos
    rw [← hdrop]
    exact List.prefix_of_prefix_length_le hbegin (List.prefix_append r _) (by simp; omega)

theorem natText_eq_cons (n : ℕ) :
  ∃ d ds, natText n = d :: ds ∧ d.isDigit = true
  := by
  obtain ⟨d, ds, h⟩ := List.exists_cons_of_ne_nil (Compare.natText_ne_nil n)
  refine ⟨d, ds, h, Compare.isDigit_of_mem_natText (n := n) ?_⟩
  rw [h]
  exact List.mem_cons_self

theorem sentinel_eq (k : ℕ) :
  sentinel k = bindSentinelPrefix ++ (natText k ++ ['_', '_'])
  := List.append_assoc _ _ _

theorem sentinel_ne_nil (k : ℕ) :
  sentinel k ≠ []
  := by
  rw [sentinel_eq]
  exact List.cons_ne_nil _ _

theorem underscores_prefix_sentinel (k : ℕ) :
  ['_', '_'] <+: sentinel k
  := by
  rw [sentinel_eq]
  exact ⟨_, rfl⟩

/-- No name begins in a text without the beginning of names, whatever name follows. -/
theorem not_sentinel_at {t rest : Text} {k : ℕ} (ht : t ≠ [])
    (hplain : ¬ bindSentinelPrefix <:+: t) (hrest : rest = [] ∨ ['_', '_'] <+: rest) :
  ¬ sentinel k <+: t ++ rest
  := by
  intro h
  rw [sentinel_eq] at h
  have hbegin : bindSentinelPrefix <+: t ++ rest := (List.prefix_append _ _).trans h
  by_cases hlength : bindSentinelPrefix.length ≤ t.length
  · exact hplain
      (List.prefix_of_prefix_length_le hbegin (List.prefix_append t rest) hlength).isInfix
  · obtain ⟨r, hr⟩ := List.prefix_of_prefix_length_le (List.prefix_append t rest) hbegin (by omega)
    obtain ⟨d, ds, hdigits, hd⟩ := natText_eq_cons k
    have hrne : r ≠ [] := by
      rintro rfl
      rw [List.append_nil] at hr
      rw [hr] at hlength
      exact hlength (le_refl _)
    rw [← hr, List.append_assoc, List.prefix_append_right_inj, hdigits] at h
    rcases hrest with rfl | hrest
    · rw [List.prefix_nil] at h
      exact hrne (List.append_eq_nil_iff.mp h).1
    · have hpos := List.length_pos_of_ne_nil hrne
      apply not_underscores_at hr.symm ht hrne hd
      exact List.prefix_of_prefix_length_le hrest h (by simp; omega)

/-- A name that begins in the beginning and the number of another begins where that does, and goes
on with its own number. -/
theorem sentinel_prefix_inv {v t rest : Text} {i k : ℕ}
    (hvt : v ++ t = bindSentinelPrefix ++ natText i) (ht : t ≠ []) (h : sentinel k <+: t ++ rest) :
  natText k ++ ['_', '_'] <+: natText i ++ rest
  := by
  obtain ⟨d, ds, hdigits, hd⟩ := natText_eq_cons i
  have hunderscores : ['_', '_'] <+: t ++ rest := (underscores_prefix_sentinel k).trans h
  have hnotDigit : ∀ (e : Char) (es : Text), e.isDigit = true → ¬ ['_', '_'] <+: e :: es := by
    rintro e es he hbegin
    have he' : '_' = e := (List.cons_prefix_cons.mp hbegin).1
    rw [← he'] at he
    cases he
  rcases List.append_eq_append_iff.mp hvt with ⟨r, hr, rfl⟩ | ⟨r, rfl, hr⟩
  · by_cases hv : v = []
    · subst hv
      rw [List.nil_append] at hr
      rw [← hr, sentinel_eq, List.append_assoc, List.prefix_append_right_inj] at h
      exact h
    · by_cases hrne : r = []
      · rw [hrne, hdigits] at hunderscores
        exact (hnotDigit _ _ hd hunderscores).elim
      · rw [hdigits, List.append_assoc] at hunderscores
        exact (not_underscores_at hr hv hrne hd hunderscores).elim
  · obtain ⟨e, es, rfl⟩ := List.exists_cons_of_ne_nil ht
    have he : e.isDigit = true := by
      apply Compare.isDigit_of_mem_natText (n := i)
      rw [hr]
      exact List.mem_append_right _ List.mem_cons_self
    exact (hnotDigit _ _ he hunderscores).elim

/-! ### Names that are begun by others -/

/-- The text of some pieces with two underscores for every placeholder. -/
def underscored : List ShieldPiece → Text
  | [] => []
  | .verbatim text :: pieces => text ++ underscored pieces
  | .binding _ :: pieces => "__".toList ++ underscored pieces

/-- The end of a name in front of some pieces begins the name with a number. -/
def Begins (k : ℕ) (pieces : List ShieldPiece) : Prop :=
  sentinel k <+: "__".toList ++ underscored pieces
    ∨ sentinel k <+: "_".toList ++ underscored pieces

/-- Some placeholder is followed by a text that makes its name begin the one with a number. -/
def BegunIn (k : ℕ) : List ShieldPiece → Prop
  | [] => False
  | .verbatim _ :: pieces => BegunIn k pieces
  | .binding _ :: pieces => Begins k pieces ∨ BegunIn k pieces

/-- The name of some placeholder is begun by the name of a later one. -/
def BegunLater (i : ℕ) : List ShieldPiece → Prop
  | [] => False
  | .verbatim _ :: pieces => BegunLater i pieces
  | .binding _ :: pieces => BegunIn i pieces ∨ BegunLater (i + 1) pieces

instance (k : ℕ) (pieces : List ShieldPiece) : Decidable (Begins k pieces) :=
  inferInstanceAs (Decidable (_ ∨ _))

instance decidableBegunIn (k : ℕ) : (pieces : List ShieldPiece) → Decidable (BegunIn k pieces)
  | [] => inferInstanceAs (Decidable False)
  | .verbatim _ :: pieces => decidableBegunIn k pieces
  | .binding _ :: pieces =>
      have := decidableBegunIn k pieces
      inferInstanceAs (Decidable (Begins k pieces ∨ BegunIn k pieces))

instance decidableBegunLater (i : ℕ) : (pieces : List ShieldPiece) → Decidable (BegunLater i pieces)
  | [] => inferInstanceAs (Decidable False)
  | .verbatim _ :: pieces => decidableBegunLater i pieces
  | .binding _ :: pieces =>
      have := decidableBegunLater (i + 1) pieces
      inferInstanceAs (Decidable (BegunIn i pieces ∨ BegunLater (i + 1) pieces))

/-- The end of a name in front of a text begins the name with a number. -/
def BeginsText (k : ℕ) (text : Text) : Prop :=
  sentinel k <+: "__".toList ++ text ∨ sentinel k <+: "_".toList ++ text

/-- Some placeholder of the pieces is followed by such a text, with names for the placeholders and
the text `rest` behind the pieces. -/
def BegunInText (k i : ℕ) (rest : Text) : List ShieldPiece → Prop
  | [] => False
  | .verbatim _ :: pieces => BegunInText k i rest pieces
  | .binding _ :: pieces =>
      BeginsText k (shieldedText (i + 1) pieces ++ rest) ∨ BegunInText k (i + 1) rest pieces

/-- A text has two underscores next to each other at its end only. -/
def Lonely (w : Text) : Prop := ∀ u v, w = u ++ '_' :: '_' :: v → v = []

theorem Lonely.tail {c : Char} {w : Text} (h : Lonely (c :: w)) :
  Lonely w
  := by
  rintro u v rfl
  exact h (c :: u) v rfl

/-- Such a text does not tell a name from two underscores. -/
theorem Lonely.prefix_iff {w : Text} (h : Lonely w) (s t : Text) :
  w <+: '_' :: '_' :: s ↔ w <+: '_' :: '_' :: t
  := by
  cases w with
  | nil => simp
  | cons c w =>
      rw [List.cons_prefix_cons, List.cons_prefix_cons]
      apply and_congr_right
      rintro rfl
      cases w with
      | nil => simp
      | cons d w =>
          rw [List.cons_prefix_cons, List.cons_prefix_cons]
          apply and_congr_right
          rintro rfl
          rw [h [] w rfl]
          simp

theorem Lonely.prefix_shieldedText_iff {w : Text} (h : Lonely w) (i : ℕ)
    (pieces : List ShieldPiece) :
  w <+: shieldedText i pieces ↔ w <+: underscored pieces
  := by
  have hverbatim : ∀ (t s s' : Text), (∀ w, Lonely w → (w <+: s ↔ w <+: s')) →
      ∀ w, Lonely w → (w <+: t ++ s ↔ w <+: t ++ s') := by
    intro t s s' hrest
    induction t with
    | nil => exact hrest
    | cons c t ih =>
        intro w hw
        cases w with
        | nil => simp
        | cons d w =>
            rw [List.cons_append, List.cons_append, List.cons_prefix_cons, List.cons_prefix_cons]
            exact and_congr_right fun _ => ih w hw.tail
  induction pieces generalizing w i with
  | nil => exact Iff.rfl
  | cons piece pieces ih =>
      cases piece with
      | verbatim text => exact hverbatim text _ _ (fun w hw => ih hw i) w h
      | binding text => exact h.prefix_iff _ _

theorem lonely_cons {c : Char} {w : Text} (hc : c ≠ '_') (h : Lonely w) :
  Lonely (c :: w)
  := by
  intro u v heq
  cases u with
  | nil => exact (hc (List.cons.inj heq).1).elim
  | cons d u => exact h u v (List.cons.inj heq).2

theorem lonely_digits {w : Text} (hw : ∀ c ∈ w, c.isDigit = true) :
  Lonely (w ++ ['_', '_'])
  := by
  induction w with
  | nil =>
      intro u v heq
      have hlength := congrArg List.length heq
      simp only [List.nil_append, List.length_append, List.length_cons, List.length_nil] at hlength
      exact List.length_eq_zero_iff.mp (by omega)
  | cons c w ih =>
      apply lonely_cons _ (ih fun d hd => hw d (List.mem_cons_of_mem _ hd))
      rintro rfl
      cases hw '_' List.mem_cons_self

theorem lonely_underscore {c : Char} {w : Text} (hc : c ≠ '_') (h : Lonely (c :: w)) :
  Lonely ('_' :: c :: w)
  := by
  intro u v heq
  cases u with
  | nil => exact (hc (List.cons.inj (List.cons.inj heq).2).1).elim
  | cons d u => exact h u v (List.cons.inj heq).2

/-- Behind its first character a name has two underscores at its end only. -/
theorem lonely_sentinel_tail (k : ℕ) :
  Lonely (sentinel k).tail
  := by
  obtain ⟨d, ds, hdigits, hd⟩ := natText_eq_cons k
  have hne : d ≠ '_' := by
    rintro rfl
    cases hd
  have hnumber : Lonely ('_' :: (natText k ++ ['_', '_'])) := by
    have hlonely := lonely_digits fun c hc => Compare.isDigit_of_mem_natText (n := k) hc
    rw [hdigits] at hlonely ⊢
    exact lonely_underscore hne hlonely
  have htail : (sentinel k).tail
      = "_dataops_safe_bind".toList ++ '_' :: (natText k ++ ['_', '_']) := by
    rw [sentinel_eq]
    rfl
  have hbind := lonely_cons (c := 'b') (by decide) <| lonely_cons (c := 'i') (by decide) <|
    lonely_cons (c := 'n') (by decide) <| lonely_cons (c := 'd') (by decide) hnumber
  have hsafe := lonely_cons (c := 's') (by decide) <| lonely_cons (c := 'a') (by decide) <|
    lonely_cons (c := 'f') (by decide) <| lonely_cons (c := 'e') (by decide) <|
    lonely_underscore (by decide) hbind
  have hdataops := lonely_cons (c := 'd') (by decide) <| lonely_cons (c := 'a') (by decide) <|
    lonely_cons (c := 't') (by decide) <| lonely_cons (c := 'a') (by decide) <|
    lonely_cons (c := 'o') (by decide) <| lonely_cons (c := 'p') (by decide) <|
    lonely_cons (c := 's') (by decide) <| lonely_underscore (by decide) hsafe
  rw [htail]
  exact lonely_underscore (by decide) hdataops

theorem beginsText_shieldedText_iff (k i : ℕ) (pieces : List ShieldPiece) :
  BeginsText k (shieldedText i pieces) ↔ Begins k pieces
  := by
  obtain ⟨w, hw⟩ : ∃ w, sentinel k = '_' :: '_' :: w := by
    rw [sentinel_eq]
    exact ⟨_, rfl⟩
  have hlonely := lonely_sentinel_tail k
  rw [hw, List.tail_cons] at hlonely
  have htwo : ∀ t, sentinel k <+: "__".toList ++ t ↔ w <+: t := by
    intro t
    rw [hw]
    exact List.prefix_append_right_inj ['_', '_']
  have hone : ∀ t, sentinel k <+: "_".toList ++ t ↔ '_' :: w <+: t := by
    intro t
    rw [hw]
    exact List.prefix_append_right_inj ['_']
  rw [BeginsText, Begins, htwo, htwo, hone, hone, hlonely.tail.prefix_shieldedText_iff,
    hlonely.prefix_shieldedText_iff]

theorem begunInText_iff (k i : ℕ) (pieces : List ShieldPiece) :
  BegunInText k i [] pieces ↔ BegunIn k pieces
  := by
  induction pieces generalizing i with
  | nil => exact Iff.rfl
  | cons piece pieces ih =>
      cases piece with
      | verbatim text => exact ih i
      | binding text =>
          rw [BegunInText, BegunIn, List.append_nil, beginsText_shieldedText_iff, ih]

/-! ### One name -/

/-- What is behind a text without the beginning of names. -/
def NameOrEnd (rest : Text) : Prop := rest = [] ∨ ['_', '_'] <+: rest

/-- No name begins in what is copied. -/
theorem not_sentinel_at_shieldedText {k i : ℕ} {t rest : Text} {pieces : List ShieldPiece}
    (ht : t ≠ []) (hplain : ¬ bindSentinelPrefix <:+: t ++ originalText pieces)
    (hrest : NameOrEnd rest) :
  ¬ sentinel k <+: t ++ (shieldedText i pieces ++ rest)
  := by
  induction pieces generalizing t i with
  | nil =>
      apply not_sentinel_at ht _ hrest
      intro h
      exact hplain (h.trans (List.prefix_append _ _).isInfix)
  | cons piece pieces ih =>
      cases piece with
      | verbatim text =>
          rw [shieldedText, List.append_assoc, ← List.append_assoc t]
          apply ih (List.append_ne_nil_of_left_ne_nil ht text)
          rwa [List.append_assoc]
      | binding text =>
          rw [shieldedText, List.append_assoc]
          apply not_sentinel_at ht
          · intro h
            exact hplain (h.trans (List.prefix_append _ _).isInfix)
          · right
            exact (underscores_prefix_sentinel i).trans (List.prefix_append _ _)

/-- What is left of a name whose end has been taken for the beginning of another, with the
placeholder that stands there instead. -/
def damagedName (m : ℕ) (underscore binding : Text) : Text :=
  bindSentinelPrefix ++ natText m ++ underscore ++ binding

/-- Putting back a placeholder leaves the beginning and the number of another name as they are. -/
theorem replace_name {k i : ℕ} {binding rest : Text}
    (hrest : ¬ natText k ++ ['_', '_'] <+: natText i ++ rest) :
  replace (sentinel k) binding (bindSentinelPrefix ++ natText i ++ rest)
    = bindSentinelPrefix ++ natText i ++ replace (sentinel k) binding rest
  := by
  apply replace_append_of_forall
  intro v t hvt ht h
  exact hrest (sentinel_prefix_inv hvt.symm ht h)

theorem eq_of_number_at {k i : ℕ} {d : Char} {rest : Text} (hd : d.isDigit = false)
    (h : natText k ++ ['_', '_'] <+: natText i ++ d :: rest) :
  k = i ∧ ['_', '_'] <+: d :: rest
  := by
  obtain ⟨tail, htail⟩ := h
  rw [List.append_assoc, List.cons_append, List.cons_append] at htail
  obtain ⟨hnumber, hrest⟩ := Compare.natText_append_cons_inj (by decide) hd htail
  exact ⟨hnumber, tail, hrest⟩

/-- Putting back a placeholder leaves some pieces and the names of later placeholders in them as
they are, up to the first name whose end begins the one that is put back. -/
theorem replace_shieldedText {k i : ℕ} (binding : Text) {rest : Text} {pieces : List ShieldPiece}
    (hk : k < i) (hplain : ¬ bindSentinelPrefix <:+: originalText pieces) (hrest : NameOrEnd rest) :
  (¬ BegunInText k i rest pieces
      ∧ replace (sentinel k) binding (shieldedText i pieces ++ rest)
        = shieldedText i pieces ++ replace (sentinel k) binding rest)
    ∨ (BegunInText k i rest pieces ∧ ∃ front m underscore tail, front <+: pieces
      ∧ (underscore = [] ∨ underscore = ['_'])
      ∧ replace (sentinel k) binding (shieldedText i pieces ++ rest)
        = shieldedText i front ++ (damagedName m underscore binding ++ tail))
  := by
  induction pieces generalizing i with
  | nil =>
      left
      exact ⟨id, rfl⟩
  | cons piece pieces ih =>
      cases piece with
      | verbatim text =>
          have hcopied : replace (sentinel k) binding (text ++ (shieldedText i pieces ++ rest))
              = text ++ replace (sentinel k) binding (shieldedText i pieces ++ rest) := by
            apply replace_append_of_forall
            rintro v t rfl ht
            apply not_sentinel_at_shieldedText ht _ hrest
            intro h
            apply hplain
            rw [originalText, List.flatMap_cons, ← originalText]
            change _ <:+: (v ++ t) ++ originalText pieces
            rw [List.append_assoc]
            exact h.trans (List.suffix_append v _).isInfix
          have hpieces : ¬ bindSentinelPrefix <:+: originalText pieces := by
            intro h
            exact hplain (h.trans (List.suffix_append _ _).isInfix)
          rw [shieldedText, List.append_assoc, hcopied]
          rcases ih hk hpieces with
            ⟨hnone, heq⟩ | ⟨hbegun, front, m, underscore, tail, hfront, hu, heq⟩
          · left
            exact ⟨hnone, by rw [heq, List.append_assoc]⟩
          · right
            refine ⟨hbegun, .verbatim text :: front, m, underscore, tail,
              List.cons_prefix_cons.mpr ⟨rfl, hfront⟩, hu, ?_⟩
            rw [heq, shieldedText, List.append_assoc]
      | binding text =>
          have hname : shieldedText i (.binding text :: pieces) ++ rest
              = bindSentinelPrefix ++ natText i
                ++ ('_' :: '_' :: (shieldedText (i + 1) pieces ++ rest)) := by
            rw [shieldedText, sentinel_eq]
            simp
          have hpieces : ¬ bindSentinelPrefix <:+: originalText pieces := by
            intro h
            exact hplain (h.trans (List.suffix_append _ _).isInfix)
          have hother : ¬ natText k ++ ['_', '_'] <+: natText i
              ++ '_' :: '_' :: (shieldedText (i + 1) pieces ++ rest) := by
            intro h
            exact hk.ne (eq_of_number_at (by decide) h).1
          rw [hname, replace_name hother, BegunInText]
          by_cases htwo : sentinel k <+: '_' :: '_' :: (shieldedText (i + 1) pieces ++ rest)
          · right
            refine ⟨.inl (.inl htwo), [], i, [], ?_⟩
            obtain ⟨tail, htail⟩ := htwo
            refine ⟨replace (sentinel k) binding tail, List.nil_prefix, .inl rfl, ?_⟩
            rw [← htail, replace_append (sentinel_ne_nil k), damagedName, shieldedText]
            simp
          rw [replace_cons htwo]
          by_cases hone : sentinel k <+: '_' :: (shieldedText (i + 1) pieces ++ rest)
          · right
            refine ⟨.inl (.inr hone), [], i, ['_'], ?_⟩
            obtain ⟨tail, htail⟩ := hone
            refine ⟨replace (sentinel k) binding tail, List.nil_prefix, .inr rfl, ?_⟩
            rw [← htail, replace_append (sentinel_ne_nil k), damagedName, shieldedText]
            simp
          rw [replace_cons hone]
          have hnotHere : ¬ BeginsText k (shieldedText (i + 1) pieces ++ rest) := by
            rintro (h | h)
            · exact htwo h
            · exact hone h
          rcases ih (i := i + 1) (Nat.lt_succ_of_lt hk) hpieces with
            ⟨hnone, heq⟩ | ⟨hbegun, front, m, underscore, tail, hfront, hu, heq⟩
          · left
            refine ⟨not_or.mpr ⟨hnotHere, hnone⟩, ?_⟩
            rw [heq, shieldedText, sentinel_eq i]
            simp
          · right
            refine ⟨.inr hbegun, .binding text :: front, m, underscore, tail,
              List.cons_prefix_cons.mpr ⟨rfl, hfront⟩, hu, ?_⟩
            rw [heq, shieldedText, sentinel_eq i]
            simp

/-- What is left of a damaged name stays. -/
theorem replace_damagedName {k m : ℕ} {underscore binding tail rest : Text}
    (hu : underscore = [] ∨ underscore = ['_']) :
  replace (sentinel k) binding (damagedName m underscore ('%' :: tail) ++ rest)
    = damagedName m underscore ['%'] ++ replace (sentinel k) binding (tail ++ rest)
  := by
  have hpercent : ∀ s, ¬ sentinel k <+: '%' :: s := by
    intro s h
    have hbegin := (underscores_prefix_sentinel k).trans h
    cases (List.cons_prefix_cons.mp hbegin).1
  rcases hu with rfl | rfl
  · have hother : ¬ natText k ++ ['_', '_'] <+: natText m ++ '%' :: (tail ++ rest) := by
      intro h
      cases (List.cons_prefix_cons.mp (eq_of_number_at (by decide) h).2).1
    have hname : damagedName m [] ('%' :: tail) ++ rest
        = bindSentinelPrefix ++ natText m ++ '%' :: (tail ++ rest) := by simp [damagedName]
    rw [hname, replace_name hother, replace_cons (hpercent _)]
    simp [damagedName]
  · have hother : ¬ natText k ++ ['_', '_'] <+: natText m ++ '_' :: '%' :: (tail ++ rest) := by
      intro h
      have hbegin := (eq_of_number_at (by decide) h).2
      cases (List.cons_prefix_cons.mp (List.cons_prefix_cons.mp hbegin).2).1
    have hname : damagedName m ['_'] ('%' :: tail) ++ rest
        = bindSentinelPrefix ++ natText m ++ '_' :: '%' :: (tail ++ rest) := by simp [damagedName]
    have hunderscore : ¬ sentinel k <+: '_' :: '%' :: (tail ++ rest) := by
      intro h
      have hbegin := (underscores_prefix_sentinel k).trans h
      cases (List.cons_prefix_cons.mp (List.cons_prefix_cons.mp hbegin).2).1
    rw [hname, replace_name hother, replace_cons hunderscore, replace_cons (hpercent _)]
    simp [damagedName]

/-! ### All names -/

/-- Every placeholder starts with a percent sign. -/
def PercentBindings (pieces : List ShieldPiece) : Prop :=
  ∀ binding, .binding binding ∈ pieces → ∃ tail, binding = '%' :: tail

theorem PercentBindings.of_cons {piece : ShieldPiece} {pieces : List ShieldPiece}
    (h : PercentBindings (piece :: pieces)) :
  PercentBindings pieces
  := fun binding hmem => h binding (List.mem_cons_of_mem _ hmem)

/-- A text that is not going to be restored: behind what has been put back so far and some of the
pieces that are left stands a damaged name. -/
def Damaged (i : ℕ) (pieces : List ShieldPiece) (text : Text) : Prop :=
  ∃ restored front m underscore tail,
    front <+: pieces
      ∧ (underscore = [] ∨ underscore = ['_'])
      ∧ ¬ bindSentinelPrefix <:+: restored ++ originalText front
      ∧ text = restored ++ (shieldedText i front ++ (damagedName m underscore ['%'] ++ tail))

theorem nameOrEnd_damagedName (m : ℕ) (underscore binding rest : Text) :
  NameOrEnd (damagedName m underscore binding ++ rest)
  := by
  right
  rw [damagedName, List.append_assoc, List.append_assoc, List.append_assoc]
  exact ⟨_, rfl⟩

/-- Putting back the next placeholder does not repair a damaged name. -/
theorem Damaged.replace {i : ℕ} {binding text : Text} {pieces : List ShieldPiece}
    (h : Damaged i (.binding binding :: pieces) text) (hbinding : ∃ tail, binding = '%' :: tail) :
  Damaged (i + 1) pieces (replace (sentinel i) binding text)
  := by
  obtain ⟨percent, rfl⟩ := hbinding
  obtain ⟨restored, front, m, underscore, tail, hfront, hu, hplain, rfl⟩ := h
  have hdamaged : ∀ rest, Text.replace (sentinel i) ('%' :: percent)
      (damagedName m underscore ['%'] ++ rest)
        = damagedName m underscore ['%'] ++ Text.replace (sentinel i) ('%' :: percent) rest :=
    fun rest => replace_damagedName hu
  have hrestored : ∀ rest, NameOrEnd rest →
      Text.replace (sentinel i) ('%' :: percent) (restored ++ rest)
        = restored ++ Text.replace (sentinel i) ('%' :: percent) rest := by
    intro rest hrest
    apply replace_append_of_forall
    rintro v t rfl ht
    apply not_sentinel_at ht _ hrest
    intro hinside
    exact hplain ((hinside.trans (List.suffix_append v t).isInfix).trans
      (List.prefix_append _ _).isInfix)
  cases front with
  | nil =>
      refine ⟨restored, [], m, underscore, Text.replace (sentinel i) ('%' :: percent) tail,
        List.nil_prefix, hu, hplain, ?_⟩
      rw [shieldedText, List.nil_append, hrestored _ (nameOrEnd_damagedName _ _ _ _), hdamaged]
      rfl
  | cons piece front =>
      obtain ⟨rfl, hbehind⟩ := List.cons_prefix_cons.mp hfront
      have hplainFront : ¬ bindSentinelPrefix <:+: originalText front := by
        intro hinside
        exact hplain ((hinside.trans (List.suffix_append _ _).isInfix).trans
          (List.suffix_append _ _).isInfix)
      have hplainNext : ∀ part, part <+: front →
          ¬ bindSentinelPrefix <:+: (restored ++ '%' :: percent) ++ originalText part := by
        rintro part ⟨behind, rfl⟩ hinside
        apply hplain
        rw [originalText, List.flatMap_cons, List.flatMap_append]
        rw [originalText, List.append_assoc] at hinside
        refine hinside.trans ⟨[], behind.flatMap ShieldPiece.text, ?_⟩
        simp [ShieldPiece.text]
      have hname : ∀ rest, NameOrEnd (sentinel i ++ rest) := by
        intro rest
        right
        exact (underscores_prefix_sentinel i).trans (List.prefix_append _ _)
      rw [shieldedText, List.append_assoc, hrestored _ (hname _),
        replace_append (sentinel_ne_nil i)]
      rcases replace_shieldedText ('%' :: percent) (Nat.lt_succ_self i) hplainFront
        (nameOrEnd_damagedName m underscore ['%'] tail) with
        ⟨-, heq⟩ | ⟨-, part, m', underscore', tail', hpart, hu', heq⟩
      · refine ⟨restored ++ '%' :: percent, front, m, underscore,
          Text.replace (sentinel i) ('%' :: percent) tail, hbehind, hu,
          hplainNext front List.prefix_rfl, ?_⟩
        rw [heq, hdamaged]
        simp
      · refine ⟨restored ++ '%' :: percent, part, m', underscore', percent ++ tail',
          hpart.trans hbehind, hu', hplainNext part hpart, ?_⟩
        rw [heq]
        simp [damagedName]

/-- A damaged name is never repaired. -/
theorem Damaged.restore_ne {i : ℕ} {text sql : Text} {pieces : List ShieldPiece}
    (h : Damaged i pieces text) (hpercent : PercentBindings pieces)
    (hsql : ¬ bindSentinelPrefix <:+: sql) :
  restorePyformatBindings text (bindingsOf i pieces) ≠ .ok sql
  := by
  induction pieces generalizing i text with
  | nil =>
      obtain ⟨restored, front, m, underscore, tail, -, -, -, rfl⟩ := h
      intro hok
      apply hsql
      rw [← Except.ok.inj hok]
      refine ⟨restored ++ shieldedText i front, natText m ++ underscore ++ ['%'] ++ tail, ?_⟩
      simp [damagedName]
  | cons piece pieces ih =>
      cases piece with
      | verbatim text =>
          apply ih _ hpercent.of_cons
          obtain ⟨restored, front, m, underscore, tail, hfront, hu, hplain, rfl⟩ := h
          cases front with
          | nil =>
              exact ⟨restored, [], m, underscore, tail, List.nil_prefix, hu, hplain, rfl⟩
          | cons piece front =>
              obtain ⟨rfl, hbehind⟩ := List.cons_prefix_cons.mp hfront
              refine ⟨restored ++ text, front, m, underscore, tail, hbehind, hu, ?_, ?_⟩
              · rw [List.append_assoc]
                exact hplain
              · rw [shieldedText]
                simp
      | binding binding =>
          rw [bindingsOf, restorePyformatBindings]
          split
          · exact ih (h.replace (hpercent binding List.mem_cons_self)) hpercent.of_cons
          · exact nofun

/-- The placeholders are put back into what they have been taken from exactly when no name is begun
by the name of a later one. -/
theorem restore_shieldedText_iff {i : ℕ} {restored : Text} {pieces : List ShieldPiece}
    (hpercent : PercentBindings pieces)
    (hplain : ¬ bindSentinelPrefix <:+: restored ++ originalText pieces) :
  restorePyformatBindings (restored ++ shieldedText i pieces) (bindingsOf i pieces)
      = .ok (restored ++ originalText pieces)
    ↔ ¬ BegunLater i pieces
  := by
  induction pieces generalizing i restored with
  | nil => simp [restorePyformatBindings, shieldedText, bindingsOf, originalText, BegunLater]
  | cons piece pieces ih =>
      have horiginal : restored ++ originalText (piece :: pieces)
          = (restored ++ piece.text) ++ originalText pieces := (List.append_assoc _ _ _).symm
      rw [horiginal] at hplain ⊢
      cases piece with
      | verbatim text =>
          rw [bindingsOf, BegunLater, shieldedText, ← List.append_assoc]
          exact ih hpercent.of_cons hplain
      | binding binding =>
          have hoccurs : occursIn (sentinel i)
              (restored ++ (sentinel i ++ shieldedText (i + 1) pieces)) = true := by
            rw [occursIn_iff]
            exact ⟨restored, _, List.append_assoc _ _ _⟩
          have hrestored : replace (sentinel i) binding
              (restored ++ (sentinel i ++ shieldedText (i + 1) pieces))
                = restored ++ (binding
                  ++ replace (sentinel i) binding (shieldedText (i + 1) pieces)) := by
            rw [replace_append_of_forall, replace_append (sentinel_ne_nil i)]
            rintro v t rfl ht
            apply not_sentinel_at ht
            · intro hinside
              apply hplain
              rw [List.append_assoc]
              exact (hinside.trans (List.suffix_append v t).isInfix).trans
                (List.prefix_append _ _).isInfix
            · right
              exact (underscores_prefix_sentinel i).trans (List.prefix_append _ _)
          have hpieces : ¬ bindSentinelPrefix <:+: originalText pieces := by
            intro hinside
            exact hplain (hinside.trans (List.suffix_append _ _).isInfix)
          rw [bindingsOf, BegunLater, shieldedText, restorePyformatBindings, if_pos hoccurs,
            hrestored, ← begunInText_iff i (i + 1)]
          have hreplaced := replace_shieldedText binding (Nat.lt_succ_self i) hpieces
            (.inl rfl : NameOrEnd [])
          rw [List.append_nil] at hreplaced
          rcases hreplaced with
            ⟨hnone, heq⟩ | ⟨hbegun, front, m, underscore, tail, hfront, hu, heq⟩
          · have hrest := ih (i := i + 1) hpercent.of_cons hplain
            rw [List.append_assoc] at hrest
            rw [heq, show replace (sentinel i) binding [] = [] from rfl, List.append_nil,
              or_iff_right hnone]
            exact hrest
          · obtain ⟨percent, rfl⟩ := hpercent binding List.mem_cons_self
            have hdamaged : Damaged (i + 1) pieces
                (restored ++ (('%' :: percent)
                  ++ replace (sentinel i) ('%' :: percent) (shieldedText (i + 1) pieces))) := by
              refine ⟨restored ++ '%' :: percent, front, m, underscore, percent ++ tail, hfront, hu,
                ?_, ?_⟩
              · intro hinside
                obtain ⟨behind, rfl⟩ := hfront
                apply hplain
                rw [originalText, List.flatMap_append, ← List.append_assoc]
                exact hinside.trans (List.prefix_append _ _).isInfix
              · rw [heq]
                simp [damagedName]
            simp only [hbegun, true_or, not_true, iff_false]
            exact hdamaged.restore_ne hpercent.of_cons hplain

/-! ### Shielding -/

/-- The placeholders that a database does not read as quoted or commented, by where they start. -/
def PyformatDialect.bindings (dialect : PyformatDialect) (sql : Text) : List ℕ :=
  plainBindings 0 (dialect.dbType.lexis.plainFrom .top 0 [] sql) sql

/-- Exactly the placeholders that are plain for a database are replaced. -/
def ShieldsExactly (dialect : PyformatDialect) (sql : Text) : Prop :=
  bindingStarts 0 (shieldPieces 0 sql) = dialect.bindings sql

/-- A query comes back when its placeholders are replaced and put back. -/
def Restores (sql : Text) : Prop :=
  restorePyformatBindings (shieldPyformatBindings sql).1 (shieldPyformatBindings sql).2 = .ok sql

/-- A place of a text is plain for the scanner and for a database, or for neither. -/
def SameView (dialect : PyformatDialect) (sql : Text) (p : ℕ) : Prop :=
  (scannedPlain 0 sql)[p]? = (dialect.dbType.lexis.plainFrom .top 0 [] sql)[p]?

/-- The rules of a database lead elsewhere than the scanner at a place of a text. -/
def Misscanned (dialect : PyformatDialect) (sql : Text) (p : ℕ) : Prop :=
  (dialect.dbType.lexis.misscansFrom .top 0 [] sql)[p]? = some true

theorem percentBindings_shieldPieces (skip : ℕ) (s : Text) :
  PercentBindings (shieldPieces skip s)
  := by
  induction s generalizing skip with
  | nil => cases skip <;> exact nofun
  | cons c s ih =>
      cases skip with
      | succ skip => exact ih skip
      | zero =>
          rw [shieldPieces]
          split
          · intro binding hmem
            rcases List.mem_cons.mp hmem with heq | hmem
            · cases heq
            · exact ih _ binding hmem
          · split
            · rename_i binding hbinding
              intro other hmem
              rcases List.mem_cons.mp hmem with heq | hmem
              · rw [(ShieldPiece.binding.inj heq)]
                exact (pyformatBind?_eq hbinding).1
              · exact ih _ other hmem
            · intro binding hmem
              rcases List.mem_cons.mp hmem with heq | hmem
              · cases heq
              · exact ih _ binding hmem

/-- A query with two placeholders, and one that is quoted. -/
def quotedSql : Text := "select '%s' from t where a = %s and b = %(c)s".toList

/-- A query in which a hash is an operator of PostgreSQL. -/
def hashSql : Text := "select a # b from t where c = %s".toList

/-- The name of the second placeholder is lost when the first one is put back. -/
example :
  ¬ Restores "%(a)s %sdataops_safe_bind_0__".toList
  := by
  rw [Restores]
  decide

end Sql

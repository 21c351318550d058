import Mathlib.Data.List.Basic

/-!
# Insertion-ordered dictionaries

A dictionary is a list of items whose keys are pairwise different up to `==`, in the
order in which the keys were first set.  Setting a key that is present keeps its
position and the key object first stored under it, and replaces the value; setting a
new key appends an item.  The comparison `==` need not be equality of representations:
the laws below ask only that it is an equivalence.
-/

universe u v w

/-- A dictionary: items with pairwise different keys, in insertion order. -/
structure Dict (κ : Type u) (α : Type v) [BEq κ] where
  items : List (κ × α)
  distinct : items.Pairwise (fun p q => (p.1 == q.1) = false)

/-- Lists compare componentwise, so their comparison is an equivalence when that of their
elements is. -/
instance equivBEqList {α : Type u} [BEq α] [EquivBEq α] : EquivBEq (List α) where
  rfl := by
    intro l
    induction l with
    | nil => rfl
    | cons a as ih =>
        rw [List.cons_beq_cons, ih, BEq.rfl]
        rfl
  symm := by
    intro l
    induction l with
    | nil =>
        intro m h
        cases m with
        | nil => rfl
        | cons b bs => cases h
    | cons a as ih =>
        intro m h
        cases m with
        | nil => cases h
        | cons b bs =>
            rw [List.cons_beq_cons, Bool.and_eq_true] at h ⊢
            exact ⟨BEq.symm h.1, ih h.2⟩
  trans := by
    intro l
    induction l with
    | nil =>
        intro m n hlm hmn
        cases m with
        | nil => apply hmn
        | cons b bs => cases hlm
    | cons a as ih =>
        intro m n hlm hmn
        cases m with
        | nil => cases hlm
        | cons b bs =>
            cases n with
            | nil => cases hmn
            | cons c cs =>
                rw [List.cons_beq_cons, Bool.and_eq_true] at hlm hmn ⊢
                exact ⟨BEq.trans hlm.1 hmn.1, ih hlm.2 hmn.2⟩

namespace Dict

variable {κ : Type u} {α : Type v} [BEq κ]

instance [DecidableEq κ] [DecidableEq α] : DecidableEq (Dict κ α) :=
  fun d e => decidable_of_iff (d.items = e.items) (by
    constructor
    · intro h
      cases d
      cases e
      cases h
      rfl
    · intro h
      rw [h])

/-- The value the first item with key `k` holds. -/
def lookup (items : List (κ × α)) (k : κ) : Option α :=
  (items.find? (fun p => p.1 == k)).map Prod.snd

/-- The items with the value under `k` replaced, or an item for `k` appended. -/
def setItems : List (κ × α) → κ → α → List (κ × α)
  | [], k, v => [(k, v)]
  | (k', v') :: rest, k, v =>
      if k' == k then (k', v) :: rest else (k', v') :: setItems rest k v

/-- The dictionary without items. -/
def empty : Dict κ α := ⟨[], List.Pairwise.nil⟩

instance : Inhabited (Dict κ α) := ⟨empty⟩

/-- The value under `k`, if any. -/
def get? (d : Dict κ α) (k : κ) : Option α := lookup d.items k

/-- Whether a key equal to `k` is present. -/
def contains (d : Dict κ α) (k : κ) : Bool := (d.get? k).isSome

/-- The keys in insertion order. -/
def keys (d : Dict κ α) : List κ := d.items.map Prod.fst

/-- The values in insertion order of their keys. -/
def values (d : Dict κ α) : List α := d.items.map Prod.snd

/-- A key of the updated items is the new key or a key of the old items. -/
theorem mem_setItems {items : List (κ × α)} {k : κ} {v : α} {p : κ × α}
    (h : p ∈ setItems items k v) :
  p = (k, v) ∨ ∃ q ∈ items, q.1 = p.1
  := by
  induction items with
  | nil =>
      left
      simpa [setItems] using h
  | cons q rest ih =>
      rw [setItems] at h
      split at h
      · rcases List.mem_cons.mp h with rfl | h
        · right
          use q, List.mem_cons_self
        · right
          use p, List.mem_cons_of_mem _ h
      · rcases List.mem_cons.mp h with rfl | h
        · right
          use (q.1, q.2), List.mem_cons_self
        · rcases ih h with h | ⟨q', hq', hk⟩
          · left
            apply h
          · right
            use q', List.mem_cons_of_mem _ hq'

theorem setItems_distinct {items : List (κ × α)} (k : κ) (v : α)
    (h : items.Pairwise (fun p q => (p.1 == q.1) = false)) :
  (setItems items k v).Pairwise (fun p q => (p.1 == q.1) = false)
  := by
  induction items with
  | nil => simp [setItems]
  | cons q rest ih =>
      obtain ⟨hq, hrest⟩ := List.pairwise_cons.mp h
      rw [setItems]
      split
      · apply List.pairwise_cons.mpr
        constructor
        · intro p hp
          apply hq p hp
        · apply hrest
      · rename_i hne
        apply List.pairwise_cons.mpr
        constructor
        · intro p hp
          rcases mem_setItems hp with rfl | ⟨q', hq', hk⟩
          · simpa using hne
          · rw [← hk]
            apply hq q' hq'
        · apply ih hrest

/-- The dictionary with `v` under `k`. -/
def set (d : Dict κ α) (k : κ) (v : α) : Dict κ α :=
  ⟨setItems d.items k v, setItems_distinct k v d.distinct⟩

/-- The dictionary with a function applied to its values. -/
def mapValues {β : Type w} (f : α → β) (d : Dict κ α) : Dict κ β :=
  ⟨d.items.map (fun p => (p.1, f p.2)), List.pairwise_map.mpr d.distinct⟩

/-- The dictionary with a function applied to its values and their keys. -/
def mapItems {β : Type w} (f : κ → α → β) (d : Dict κ α) : Dict κ β :=
  ⟨d.items.map (fun p => (p.1, f p.1 p.2)), List.pairwise_map.mpr d.distinct⟩

/-- The dictionary that sets the items of a list one after the other. -/
def ofList (items : List (κ × α)) : Dict κ α :=
  items.foldl (fun d p => d.set p.1 p.2) empty

@[simp]
theorem get?_empty (k : κ) :
  (empty : Dict κ α).get? k = none
  := rfl

@[simp]
theorem get?_mapValues {β : Type w} (f : α → β) (d : Dict κ α) (k : κ) :
  (d.mapValues f).get? k = (d.get? k).map f
  := by
  simp only [get?, lookup, mapValues, List.find?_map, Option.map_map]
  rfl

@[simp]
theorem contains_mapValues {β : Type w} (f : α → β) (d : Dict κ α) (k : κ) :
  (d.mapValues f).contains k = d.contains k
  := by
  rw [contains, get?_mapValues, Option.isSome_map, contains]

theorem values_mapValues {β : Type w} (f : α → β) (d : Dict κ α) :
  (d.mapValues f).values = d.values.map f
  := by
  rw [values, values, mapValues, List.map_map, List.map_map]
  rfl

theorem mapValues_mapValues {β γ : Type w} (f : α → β) (g : β → γ) (d : Dict κ α) :
  (d.mapValues f).mapValues g = d.mapValues (g ∘ f)
  := by
  simp only [mapValues, List.map_map]
  rfl

theorem map_setItems {β : Type w} (f : α → β) (items : List (κ × α)) (k : κ) (v : α) :
  (setItems items k v).map (fun p => (p.1, f p.2))
    = setItems (items.map (fun p => (p.1, f p.2))) k (f v)
  := by
  induction items with
  | nil => rfl
  | cons q rest ih =>
      rw [List.map_cons, setItems, setItems]
      split
      · rfl
      · rw [List.map_cons, ih]

theorem mapValues_set {β : Type w} (f : α → β) (d : Dict κ α) (k : κ) (v : α) :
  (d.set k v).mapValues f = (d.mapValues f).set k (f v)
  := by
  simp only [mapValues, set, map_setItems]

@[simp]
theorem lookup_nil (k : κ) :
  lookup ([] : List (κ × α)) k = none
  := rfl

theorem lookup_cons (p : κ × α) (rest : List (κ × α)) (k : κ) :
  lookup (p :: rest) k = if p.1 == k then some p.2 else lookup rest k
  := by
  rw [lookup, List.find?_cons]
  cases h : p.1 == k
  · rfl
  · rfl

theorem lookup_eq_none {items : List (κ × α)} {k : κ} :
  lookup items k = none ↔ ∀ p ∈ items, (p.1 == k) = false
  := by
  simp [lookup]

/-- Setting an absent key appends its item. -/
theorem setItems_of_lookup {items : List (κ × α)} {k : κ} {v : α} (h : lookup items k = some v) :
  setItems items k v = items
  := by
  induction items with
  | nil => cases h
  | cons q rest ih =>
      rw [lookup_cons] at h
      rw [setItems]
      split
      · rename_i hq
        rw [if_pos hq] at h
        rw [← Option.some.inj h]
      · rename_i hq
        rw [if_neg hq] at h
        rw [ih h]

/-- Setting a key to the value it holds changes nothing. -/
theorem set_of_get? {d : Dict κ α} {k : κ} {v : α} (h : d.get? k = some v) :
  d.set k v = d
  := by
  simp only [set, setItems_of_lookup h]

theorem setItems_of_lookup_none {items : List (κ × α)} {k : κ} (v : α)
    (h : lookup items k = none) :
  setItems items k v = items ++ [(k, v)]
  := by
  induction items with
  | nil => rfl
  | cons q rest ih =>
      rw [lookup_cons] at h
      split at h
      · cases h
      · rename_i hne
        rw [setItems, if_neg hne, ih h]
        rfl

theorem items_set_of_get?_none {d : Dict κ α} {k : κ} (v : α) (h : d.get? k = none) :
  (d.set k v).items = d.items ++ [(k, v)]
  := setItems_of_lookup_none v h

/-- Setting a present key keeps the keys. -/
theorem keys_setItems_of_mem {items : List (κ × α)} {k : κ} (v : α)
    (h : ∃ p ∈ items, (p.1 == k) = true) :
  (setItems items k v).map Prod.fst = items.map Prod.fst
  := by
  induction items with
  | nil =>
      obtain ⟨p, hp, -⟩ := h
      cases hp
  | cons q rest ih =>
      rw [setItems]
      split
      · rfl
      · rename_i hne
        obtain ⟨p, hp, hpk⟩ := h
        obtain rfl | hp := List.mem_cons.mp hp
        · exact (hne hpk).elim
        · rw [List.map_cons, List.map_cons, ih ⟨p, hp, hpk⟩]

theorem contains_iff {d : Dict κ α} {k : κ} :
  d.contains k = true ↔ ∃ k' ∈ d.keys, (k' == k) = true
  := by
  rw [contains, Option.isSome_iff_ne_none, ne_eq, get?, lookup_eq_none]
  simp [keys]

theorem keys_set_of_contains {d : Dict κ α} {k : κ} (v : α) (h : d.contains k = true) :
  (d.set k v).keys = d.keys
  := by
  apply keys_setItems_of_mem v
  obtain ⟨k', hk', hbeq⟩ := contains_iff.mp h
  obtain ⟨p, hp, rfl⟩ := List.mem_map.mp hk'
  exact ⟨p, hp, hbeq⟩

theorem keys_distinct (d : Dict κ α) :
  d.keys.Pairwise (fun a b => (a == b) = false)
  := List.pairwise_map.mpr d.distinct

theorem contains_eq_any (d : Dict κ α) (k : κ) :
  d.contains k = d.keys.any (fun a => a == k)
  := by
  rw [Bool.eq_iff_iff, contains_iff, List.any_eq_true]

/-- A list has as many elements with one of two exclusive properties as it has with the
first and with the second. -/
theorem countP_or_of_disjoint {β : Type w} (p q : β → Bool) {l : List β}
    (h : ∀ x ∈ l, p x = true → q x = false) :
  l.countP (fun x => p x || q x) = l.countP p + l.countP q
  := by
  induction l with
  | nil => rfl
  | cons x rest ih =>
      have hx := h x List.mem_cons_self
      rw [List.countP_cons, List.countP_cons, List.countP_cons,
        ih (fun y hy => h y (List.mem_cons_of_mem _ hy))]
      cases hp : p x with
      | false =>
          simp only [Bool.false_or, Bool.false_eq_true, if_false]
          omega
      | true =>
          simp only [hx hp, Bool.or_false, Bool.false_eq_true, if_false, if_true]
          omega

/-! ### Keys compared by an equivalence -/

section Equivalence

variable [EquivBEq κ]

theorem lookup_setItems (items : List (κ × α)) (k k' : κ) (v : α) :
  lookup (setItems items k v) k' = if k == k' then some v else lookup items k'
  := by
  induction items with
  | nil => rw [setItems, lookup_cons]
  | cons q rest ih =>
      rw [setItems]
      split
      · rename_i hq
        rw [lookup_cons, lookup_cons]
        have hkey : (q.1 == k') = (k == k') := BEq.congr_left hq
        rw [hkey]
        split
        · rfl
        · rfl
      · rename_i hq
        rw [lookup_cons, lookup_cons, ih]
        split
        · rename_i hqk'
          split
          · rename_i hkk'
            exact (hq (BEq.trans hqk' (BEq.symm hkk'))).elim
          · rfl
        · rfl

theorem setItems_setItems (items : List (κ × α)) (k : κ) (v w : α) :
  setItems (setItems items k v) k w = setItems items k w
  := by
  induction items with
  | nil => simp [setItems]
  | cons q rest ih =>
      rw [setItems]
      split
      · rename_i hq
        rw [setItems, if_pos hq, setItems, if_pos hq]
      · rename_i hq
        rw [setItems, if_neg hq, ih, setItems, if_neg hq]

/-- Of two values under one key the last one stays. -/
theorem set_set (d : Dict κ α) (k : κ) (v w : α) :
  (d.set k v).set k w = d.set k w
  := by
  simp only [set, setItems_setItems]

/-- What is read back after a key is set. -/
theorem get?_set (d : Dict κ α) (k k' : κ) (v : α) :
  (d.set k v).get? k' = if k == k' then some v else d.get? k'
  := lookup_setItems d.items k k' v

/-- Setting a key keeps what two dictionaries agree on. -/
theorem get?_set_congr {d e : Dict κ α} {k' : κ} (h : d.get? k' = e.get? k') (k : κ) (v : α) :
  (d.set k v).get? k' = (e.set k v).get? k'
  := by
  rw [get?_set, get?_set, h]

@[simp]
theorem get?_set_self (d : Dict κ α) (k : κ) (v : α) :
  (d.set k v).get? k = some v
  := by
  rw [get?_set, if_pos BEq.rfl]

/-- An item of a dictionary is what is read under its key. -/
theorem get?_of_mem {d : Dict κ α} {k : κ} {v : α} (h : (k, v) ∈ d.items) :
  d.get? k = some v
  := by
  have key : ∀ items : List (κ × α), items.Pairwise (fun p q => (p.1 == q.1) = false) →
      (k, v) ∈ items → lookup items k = some v := by
    intro items
    induction items with
    | nil =>
        intro _ hmem
        cases hmem
    | cons q rest ih =>
        intro hd hmem
        obtain ⟨hq, hrest⟩ := List.pairwise_cons.mp hd
        rw [lookup_cons]
        rcases List.mem_cons.mp hmem with rfl | hmem
        · rw [if_pos BEq.rfl]
        · rw [if_neg (by simp [hq _ hmem]), ih hrest hmem]
  apply key d.items d.distinct h

/-- Equal keys hold the same. -/
theorem get?_congr (d : Dict κ α) {k k' : κ} (h : (k == k') = true) :
  d.get? k = d.get? k'
  := by
  rw [get?, get?, lookup, lookup]
  congr 1
  apply congrFun
  apply congrArg
  funext p
  apply BEq.congr_right h

/-- Of keys that are pairwise different, at most one equals `k`. -/
theorem countP_beq (k : κ) {ks : List κ} (h : ks.Pairwise (fun a b => (a == b) = false)) :
  ks.countP (fun a => a == k) = if ks.any (fun a => a == k) then 1 else 0
  := by
  induction ks with
  | nil => rfl
  | cons a rest ih =>
      obtain ⟨ha, hrest⟩ := List.pairwise_cons.mp h
      rw [List.countP_cons, ih hrest, List.any_cons]
      cases hak : a == k with
      | false => simp
      | true =>
          have hnone : rest.any (fun b => b == k) = false := by
            apply List.any_eq_false.mpr
            intro b hb hbk
            have hab : (a == b) = true := BEq.trans hak (BEq.symm hbk)
            rw [ha b hb] at hab
            cases hab
          simp [hnone]

/-- Two lists of pairwise different keys have as many keys of one among the other as of
the other among the one. -/
theorem countP_any_comm {ks ls : List κ} (hks : ks.Pairwise (fun a b => (a == b) = false))
    (hls : ls.Pairwise (fun a b => (a == b) = false)) :
  ks.countP (fun a => ls.any (fun b => b == a)) = ls.countP (fun b => ks.any (fun a => a == b))
  := by
  induction ks with
  | nil => simp
  | cons a rest ih =>
      obtain ⟨ha, hrest⟩ := List.pairwise_cons.mp hks
      have hsplit : ls.countP (fun b => (a :: rest).any (fun a => a == b))
          = ls.countP (fun b => b == a) + ls.countP (fun b => rest.any (fun a => a == b)) := by
        rw [← countP_or_of_disjoint]
        · apply List.countP_congr
          intro b _
          rw [List.any_cons, BEq.comm (a := a)]
        · intro b _ hba
          apply List.any_eq_false.mpr
          intro c hc hcb
          have hac : (a == c) = true := BEq.trans (BEq.symm hba) (BEq.symm hcb)
          rw [ha c hc] at hac
          cases hac
      rw [hsplit, countP_beq a hls, List.countP_cons, ih hrest]
      omega

/-- One dictionary has as many keys of a second as the second has of the first. -/
theorem countP_contains_comm {β : Type w} (d : Dict κ α) (e : Dict κ β) :
  d.keys.countP e.contains = e.keys.countP d.contains
  := by
  rw [funext (contains_eq_any d), funext (contains_eq_any e)]
  apply countP_any_comm d.keys_distinct e.keys_distinct

end Equivalence

/-- What is read under `k` is the value of an item whose key equals `k`. -/
theorem exists_mem_of_get? {d : Dict κ α} {k : κ} {v : α} (h : d.get? k = some v) :
  ∃ k', (k' == k) = true ∧ (k', v) ∈ d.items
  := by
  obtain ⟨p, hp, rfl⟩ := Option.map_eq_some_iff.mp h
  use p.1
  constructor
  · apply List.find?_some hp
  · apply List.mem_of_find?_eq_some hp

/-! ### Keys compared by equality -/

section Lawful

variable [LawfulBEq κ]

@[simp]
theorem get?_set_of_ne (d : Dict κ α) {k k' : κ} (v : α) (h : k ≠ k') :
  (d.set k v).get? k' = d.get? k'
  := by
  rw [get?_set, if_neg (by simpa using h)]

theorem get?_eq_some_iff {d : Dict κ α} {k : κ} {v : α} :
  d.get? k = some v ↔ (k, v) ∈ d.items
  := by
  constructor
  · intro h
    obtain ⟨k', hk, hmem⟩ := exists_mem_of_get? h
    rw [← eq_of_beq hk]
    apply hmem
  · apply get?_of_mem

@[simp]
theorem get?_mapItems {β : Type w} (f : κ → α → β) (d : Dict κ α) (k : κ) :
  (d.mapItems f).get? k = (d.get? k).map (f k)
  := by
  cases hv : d.get? k with
  | none =>
      rw [Option.map_none, get?, lookup_eq_none]
      intro p hp
      obtain ⟨q, hq, rfl⟩ := List.mem_map.mp hp
      exact lookup_eq_none.mp hv q hq
  | some v =>
      apply get?_of_mem
      exact List.mem_map.mpr ⟨(k, v), get?_eq_some_iff.mp hv, rfl⟩

theorem mem_keys_iff {d : Dict κ α} {k : κ} :
  k ∈ d.keys ↔ ∃ v, d.get? k = some v
  := by
  simp only [keys, List.mem_map, get?_eq_some_iff]
  constructor
  · rintro ⟨p, hp, rfl⟩
    use p.2
  · rintro ⟨v, hv⟩
    use (k, v), hv

theorem get?_eq_none_iff {d : Dict κ α} {k : κ} :
  d.get? k = none ↔ k ∉ d.keys
  := by
  rw [mem_keys_iff, Option.eq_none_iff_forall_ne_some]
  simp

theorem keys_nodup (d : Dict κ α) :
  d.keys.Nodup
  := by
  apply (keys_distinct d).imp
  intro a b hab heq
  rw [heq, BEq.rfl] at hab
  cases hab

/-- The values with a property, counted by their keys. -/
theorem countP_values (d : Dict κ α) (p : α → Bool) :
  d.values.countP p = d.keys.countP (fun k => (d.get? k).any p)
  := by
  rw [values, keys, List.countP_map, List.countP_map]
  apply List.countP_congr
  rintro ⟨k, v⟩ hmem
  rw [Function.comp_apply, Function.comp_apply, get?_of_mem hmem, Option.any_some]

/-- The values found under the keys of a list that has every key once are the values, up to
their order. -/
theorem filterMap_get?_perm (d : Dict κ α) {ks : List κ} (hks : ks.Nodup)
    (hall : ∀ k ∈ d.keys, k ∈ ks) :
  (ks.filterMap d.get?).Perm d.values
  := by
  have hvalues : d.keys.filterMap d.get? = d.values := by
    rw [keys, List.filterMap_map, values, ← List.filterMap_eq_map']
    apply List.filterMap_congr
    rintro ⟨k, v⟩ hmem
    apply get?_of_mem hmem
  have hpresent : (ks.filter d.contains).filterMap d.get? = ks.filterMap d.get? := by
    rw [List.filterMap_filter]
    apply List.filterMap_congr
    intro k _
    cases hk : d.get? k with
    | none => simp [contains, hk]
    | some v => simp [contains, hk]
  rw [← hvalues, ← hpresent]
  apply List.Perm.filterMap
  apply (List.perm_ext_iff_of_nodup (hks.filter _) (keys_nodup d)).mpr
  intro k
  rw [List.mem_filter, contains, Option.isSome_iff_exists, mem_keys_iff]
  constructor
  · rintro ⟨-, hk⟩
    apply hk
  · intro hk
    exact ⟨hall k (mem_keys_iff.mpr hk), hk⟩

theorem mem_values_iff {d : Dict κ α} {v : α} :
  v ∈ d.values ↔ ∃ k, d.get? k = some v
  := by
  simp only [values, List.mem_map, get?_eq_some_iff]
  constructor
  · rintro ⟨p, hp, rfl⟩
    use p.1
  · rintro ⟨k, hk⟩
    use (k, v), hk

theorem mem_of_get?_foldl_set {items : List (κ × α)} {d : Dict κ α} {k : κ} {v : α}
    (h : (items.foldl (fun d p => d.set p.1 p.2) d).get? k = some v) :
  (k, v) ∈ items ∨ d.get? k = some v
  := by
  induction items generalizing d with
  | nil =>
      right
      apply h
  | cons p rest ih =>
      rw [List.foldl_cons] at h
      obtain hmem | hget := ih h
      · left
        apply List.mem_cons_of_mem _ hmem
      · by_cases hk : p.1 = k
        · left
          rw [hk, get?_set_self] at hget
          rw [← hk, ← Option.some.inj hget]
          apply List.mem_cons_self
        · right
          rw [get?_set_of_ne _ _ hk] at hget
          apply hget

/-- What a dictionary made of items holds is one of the items. -/
theorem mem_of_get?_ofList {items : List (κ × α)} {k : κ} {v : α}
    (h : (ofList items).get? k = some v) :
  (k, v) ∈ items
  := by
  obtain hmem | hget := mem_of_get?_foldl_set h
  · apply hmem
  · cases hget

theorem exists_get?_foldl_set {items : List (κ × α)} {d : Dict κ α} {k : κ}
    (h : k ∈ items.map Prod.fst ∨ ∃ v, d.get? k = some v) :
  ∃ v, (items.foldl (fun d p => d.set p.1 p.2) d).get? k = some v
  := by
  induction items generalizing d with
  | nil =>
      obtain hmem | hget := h
      · cases hmem
      · apply hget
  | cons p rest ih =>
      rw [List.foldl_cons]
      apply ih
      by_cases hk : p.1 = k
      · right
        use p.2
        rw [hk, get?_set_self]
      · rw [get?_set_of_ne _ _ hk]
        obtain hmem | hget := h
        · left
          apply (List.mem_cons.mp hmem).resolve_left (Ne.symm hk)
        · right
          apply hget

/-- A dictionary made of items holds something under each of their keys. -/
theorem exists_get?_ofList {items : List (κ × α)} {k : κ} (h : k ∈ items.map Prod.fst) :
  ∃ v, (ofList items).get? k = some v
  := exists_get?_foldl_set (.inl h)

/-- What a dictionary holds under a key depends only on the items with that key. -/
theorem get?_ofList_map_congr {β : Type w} {l : List β} (key : β → κ) {f g : β → α} {k : κ}
    (h : ∀ b ∈ l, key b = k → f b = g b) :
  (ofList (l.map (fun b => (key b, f b)))).get? k = (ofList (l.map (fun b => (key b, g b)))).get? k
  := by
  have hfold : ∀ (l : List β), (∀ b ∈ l, key b = k → f b = g b) → ∀ {d e : Dict κ α},
      d.get? k = e.get? k →
      ((l.map (fun b => (key b, f b))).foldl (fun d p => d.set p.1 p.2) d).get? k
        = ((l.map (fun b => (key b, g b))).foldl (fun d p => d.set p.1 p.2) e).get? k := by
    intro l hl
    induction l with
    | nil =>
        intro d e hde
        apply hde
    | cons b rest ih =>
        intro d e hde
        apply ih (fun b' hb' => hl b' (List.mem_cons_of_mem _ hb'))
        dsimp only
        by_cases hk : key b = k
        · rw [hl b List.mem_cons_self hk, hk, get?_set_self, get?_set_self]
        · rw [get?_set_of_ne _ _ hk, get?_set_of_ne _ _ hk, hde]
  apply hfold l h rfl

theorem items_foldl_set {items : List (κ × α)} {d : Dict κ α}
    (h : (d.items ++ items).Pairwise (fun p q => (p.1 == q.1) = false)) :
  (items.foldl (fun d p => d.set p.1 p.2) d).items = d.items ++ items
  := by
  induction items generalizing d with
  | nil => exact (List.append_nil _).symm
  | cons p rest ih =>
      have hnone : d.get? p.1 = none := by
        rw [get?_eq_none_iff]
        intro hmem
        obtain ⟨q, hq, hkey⟩ := List.mem_map.mp hmem
        have hne := (List.pairwise_append.mp h).2.2 q hq p List.mem_cons_self
        rw [hkey, beq_self_eq_true] at hne
        cases hne
      have hitems := items_set_of_get?_none p.2 hnone
      rw [List.foldl_cons, ih]
      · rw [hitems, List.append_assoc]
        rfl
      · rw [hitems, List.append_assoc]
        exact h

/-- A dictionary is made of its items. -/
theorem ofList_items (d : Dict κ α) :
  ofList d.items = d
  := by
  have hitems : (ofList d.items).items = d.items := items_foldl_set d.distinct
  obtain ⟨items, distinct⟩ := d
  generalize ofList items = e at hitems
  obtain ⟨items', distinct'⟩ := e
  obtain rfl : items' = items := hitems
  rfl

theorem get?_ofList_append_of_ne {items : List (κ × α)} {p : κ × α} {k : κ} (h : p.1 ≠ k) :
  (ofList (items ++ [p])).get? k = (ofList items).get? k
  := by
  rw [ofList, List.foldl_append]
  apply get?_set_of_ne _ _ h

end Lawful

end Dict

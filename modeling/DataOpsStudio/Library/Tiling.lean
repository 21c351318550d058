import Mathlib.Algebra.BigOperators.Group.Multiset.Basic
import Mathlib.Algebra.Order.Group.Int
import Mathlib.Data.Multiset.Filter
import Mathlib.Tactic.Ring

/-!
# Tilings of half-open intervals

`Tiles a b pieces` says that the half-open intervals `pieces` are nonempty, consecutive,
and together cover exactly the interval from `a` to `b`.  What is sorted by a key into
such an interval is sorted into its pieces, each element into exactly one.
-/

universe u v

/-- The intervals of a list are nonempty, consecutive, and run from `a` to `b`. -/
inductive Tiles {α : Type u} [LinearOrder α] : α → α → List (α × α) → Prop where
  | nil (a : α) : Tiles a a []
  | cons {a m b : α} {rest : List (α × α)} (lt : a < m) (tail : Tiles m b rest) :
      Tiles a b ((a, m) :: rest)

namespace Tiles

variable {α : Type u} [LinearOrder α]

theorem le {a b : α} {pieces : List (α × α)} (h : Tiles a b pieces) :
  a ≤ b
  := by
  induction h with
  | nil a => apply le_refl
  | cons lt _ ih => apply le_trans (le_of_lt lt) ih

/-- A piece of a tiling is nonempty and lies within the interval. -/
theorem bounds_of_mem {a b : α} {pieces : List (α × α)} (h : Tiles a b pieces) {p : α × α}
    (hp : p ∈ pieces) :
  a ≤ p.1 ∧ p.1 < p.2 ∧ p.2 ≤ b
  := by
  induction h with
  | nil a => cases hp
  | cons lt tail ih =>
      rcases List.mem_cons.mp hp with rfl | hp
      · exact ⟨le_refl _, lt, tail.le⟩
      · obtain ⟨h₁, h₂, h₃⟩ := ih hp
        exact ⟨le_trans (le_of_lt lt) h₁, h₂, h₃⟩

/-- A piece of a tiling ends before any later piece begins. -/
theorem pairwise {a b : α} {pieces : List (α × α)} (h : Tiles a b pieces) :
  pieces.Pairwise (fun p q => p.2 ≤ q.1)
  := by
  induction h with
  | nil a => apply List.Pairwise.nil
  | cons _ tail ih =>
      apply List.Pairwise.cons _ ih
      intro q hq
      apply (tail.bounds_of_mem hq).1

/-- What lies in the interval is what lies in one of the pieces. -/
theorem mem_iff {a b : α} {pieces : List (α × α)} (h : Tiles a b pieces) (x : α) :
  (a ≤ x ∧ x < b) ↔ ∃ p ∈ pieces, p.1 ≤ x ∧ x < p.2
  := by
  constructor
  · rintro ⟨hax, hxb⟩
    induction h with
    | nil a => apply absurd hxb (not_lt.mpr hax)
    | @cons a m b rest _ _ ih =>
        rcases lt_or_ge x m with hxm | hmx
        · exact ⟨(a, m), List.mem_cons_self, hax, hxm⟩
        · obtain ⟨p, hp, hx⟩ := ih hmx hxb
          exact ⟨p, List.mem_cons_of_mem _ hp, hx⟩
  · rintro ⟨p, hp, hpx, hxp⟩
    obtain ⟨hap, -, hpb⟩ := h.bounds_of_mem hp
    exact ⟨le_trans hap hpx, lt_of_lt_of_le hxp hpb⟩

/-- What a key sorts into the interval from `a` to `b` is the sum of what it sorts into
the part before `m` and the part from `m` on. -/
theorem filter_split {β : Type v} (S : Multiset β) (key : β → α) {a m b : α}
    (ham : a ≤ m) (hmb : m ≤ b) :
  S.filter (fun x => a ≤ key x ∧ key x < b)
    = S.filter (fun x => a ≤ key x ∧ key x < m) + S.filter (fun x => m ≤ key x ∧ key x < b)
  := by
  have hdisjoint : ∀ x ∈ S, ¬ ((a ≤ key x ∧ key x < m) ∧ (m ≤ key x ∧ key x < b)) := by
    rintro x - ⟨⟨-, h₁⟩, h₂, -⟩
    apply absurd h₁ (not_lt.mpr h₂)
  rw [Multiset.filter_add_filter, Multiset.filter_eq_nil.mpr hdisjoint, add_zero]
  apply Multiset.filter_congr
  intro x _
  constructor
  · rintro ⟨h₁, h₂⟩
    rcases lt_or_ge (key x) m with h | h
    · left
      exact ⟨h₁, h⟩
    · right
      exact ⟨h, h₂⟩
  · rintro (⟨h₁, h₂⟩ | ⟨h₁, h₂⟩)
    · exact ⟨h₁, lt_of_lt_of_le h₂ hmb⟩
    · exact ⟨le_trans ham h₁, h₂⟩

/-- What a key sorts into the interval is the sum of what it sorts into the pieces. -/
theorem filter_eq_sum {β : Type v} (S : Multiset β) (key : β → α) {a b : α}
    {pieces : List (α × α)} (h : Tiles a b pieces) :
  S.filter (fun x => a ≤ key x ∧ key x < b)
    = (pieces.map (fun p => S.filter (fun x => p.1 ≤ key x ∧ key x < p.2))).sum
  := by
  induction h with
  | nil a =>
      apply Multiset.filter_eq_nil.mpr
      rintro x - ⟨h₁, h₂⟩
      apply absurd h₂ (not_lt.mpr h₁)
  | cons lt tail ih =>
      rw [List.map_cons, List.sum_cons, ← ih]
      apply filter_split S key (le_of_lt lt) tail.le

/-- The widths of the pieces add up to the width of the interval. -/
theorem sum_width {a b : ℤ} {pieces : List (ℤ × ℤ)} (h : Tiles a b pieces) :
  (pieces.map (fun p => p.2 - p.1)).sum = b - a
  := by
  induction h with
  | nil a => simp
  | cons _ _ ih =>
      rw [List.map_cons, List.sum_cons, ih]
      ring

end Tiles

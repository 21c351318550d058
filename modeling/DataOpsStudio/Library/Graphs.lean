import Mathlib.Data.Finset.Card
import Mathlib.Data.Finset.Filter
import Mathlib.Data.List.Chain
import Mathlib.Logic.Relation
import Mathlib.Data.Finset.Max

/-!
# Finite graphs

A relation is acyclic when nothing is related to itself along it.  A closed path shows that it is
not.  Over a finite set, the number of elements before an element along the relation is a rank that
grows from step to step, so every set that is not empty has an element with nothing of the set
right before it.
-/

namespace Graph

variable {α : Type}

/-- Nothing comes before itself. -/
def Acyclic (r : α → α → Prop) : Prop := ∀ a, ¬ Relation.TransGen r a a

/-- A path whose last element leads to its first. -/
structure IsClosedPath (r : α → α → Prop) (path : List α) : Prop where
  ne_nil : path ≠ []
  chain : path.IsChain r
  closed : r (path.getLast ne_nil) (path.head ne_nil)

section Paths

variable {r : α → α → Prop}

/-- The first element of a path comes before the last, or is the last. -/
theorem reflTransGen_of_isChain {a : α} {path : List α} (h : (a :: path).IsChain r) :
  Relation.ReflTransGen r a ((a :: path).getLast (List.cons_ne_nil a path))
  := by
  induction path generalizing a with
  | nil => exact .refl
  | cons b path ih =>
      obtain ⟨hab, hrest⟩ := List.isChain_cons_cons.mp h
      rw [List.getLast_cons (List.cons_ne_nil b path)]
      exact .head hab (ih hrest)

theorem IsClosedPath.not_acyclic {path : List α} (h : IsClosedPath r path) :
  ¬ Acyclic r
  := by
  intro hacyclic
  obtain ⟨hne, hchain, hclosed⟩ := h
  cases path with
  | nil => exact hne rfl
  | cons a path => exact hacyclic a (.tail' (reflTransGen_of_isChain hchain) hclosed)

end Paths

section Rank

variable {r : α → α → Prop} {s : Finset α}

open Classical in
/-- How many elements of a set come before an element. -/
noncomputable def rank (r : α → α → Prop) (s : Finset α) (a : α) : ℕ :=
  (s.filter (fun b => Relation.TransGen r b a)).card

theorem rank_le_card (a : α) :
  rank r s a ≤ s.card
  := by
  classical
  exact Finset.card_filter_le _ _

/-- The rank grows along the relation. -/
theorem rank_lt (h : Acyclic r) {a b : α} (ha : a ∈ s) (hab : r a b) :
  rank r s a < rank r s b
  := by
  classical
  apply Finset.card_lt_card
  rw [Finset.ssubset_iff_of_subset]
  · use a
    constructor
    · rw [Finset.mem_filter]
      exact ⟨ha, .single hab⟩
    · rw [Finset.mem_filter]
      exact fun hmem => h a hmem.2
  · intro c hc
    rw [Finset.mem_filter] at hc ⊢
    exact ⟨hc.1, hc.2.tail hab⟩

/-- A set with elements has one that nothing of the set comes right before. -/
theorem exists_minimal (h : Acyclic r) (hs : s.Nonempty) :
  ∃ a ∈ s, ∀ b ∈ s, ¬ r b a
  := by
  obtain ⟨a, ha, hmin⟩ := s.exists_min_image (rank r s) hs
  refine ⟨a, ha, ?_⟩
  intro b hb hba
  have hle := hmin b hb
  have hlt := rank_lt h hb hba
  omega

end Rank

end Graph

import DataOpsStudio.Library.Text

/-!
# Seams

Where two neighbours of a concatenation come from: they stand inside one of the parts, or at the
end of one part and at the beginning of a later one, with only empty parts between.  The pieces of
a template are numbered by the places where they begin.
-/

namespace Text

/-! ### Neighbours in a concatenation -/

section Neighbours

variable {α β : Type} {f : α → List β} {l : List α} {x y : β}

/-- Two neighbours of a concatenation that stand at a seam. -/
def AtSeam (f : α → List β) (l : List α) (x y : β) (p q : α) (between : List α) : Prop :=
  ∃ before after, l = before ++ p :: (between ++ q :: after) ∧ (∀ r ∈ between, f r = []) ∧
    (f p).getLast? = some x ∧ (f q).head? = some y

/-- The first of a concatenation is the first of a part, after empty parts. -/
theorem exists_of_flatMap_eq_cons {c : List β} (h : l.flatMap f = y :: c) :
  ∃ between q after, l = between ++ q :: after ∧ (∀ r ∈ between, f r = []) ∧
    (f q).head? = some y
  := by
  induction l with
  | nil => cases h
  | cons p l ih =>
      rw [List.flatMap_cons] at h
      cases hp : f p with
      | nil =>
          rw [hp, List.nil_append] at h
          obtain ⟨between, q, after, rfl, hempty, hq⟩ := ih h
          refine ⟨p :: between, q, after, rfl, ?_, hq⟩
          intro r hr
          obtain rfl | hr := List.mem_cons.mp hr
          · exact hp
          · exact hempty r hr
      | cons z rest =>
          rw [hp, List.cons_append] at h
          obtain ⟨rfl, -⟩ := List.cons.inj h
          exact ⟨[], p, l, rfl, by simp, by rw [hp]; rfl⟩

/-- Two neighbours of a concatenation stand inside a part or at a seam. -/
theorem exists_of_flatMap_eq_append {a c : List β} (h : l.flatMap f = a ++ x :: y :: c) :
  (∃ p ∈ l, [x, y] <:+: f p) ∨ ∃ p q between, AtSeam f l x y p q between
  := by
  induction l generalizing a with
  | nil => exact absurd h.symm (List.append_ne_nil_of_right_ne_nil _ (List.cons_ne_nil _ _))
  | cons p l ih =>
      rw [List.flatMap_cons, List.append_eq_append_iff] at h
      obtain ⟨u, rfl, hrest⟩ | ⟨u, hp, hrest⟩ := h
      · obtain ⟨p', hp', hinside⟩ | ⟨p', q, between, before, after, rfl, hseam⟩ := ih hrest
        · exact Or.inl ⟨p', List.mem_cons_of_mem _ hp', hinside⟩
        · exact Or.inr ⟨p', q, between, p :: before, after, rfl, hseam⟩
      · cases u with
        | nil =>
            obtain ⟨p', hp', hinside⟩ | ⟨p', q, between, before, after, rfl, hseam⟩ :=
              ih (a := []) hrest.symm
            · exact Or.inl ⟨p', List.mem_cons_of_mem _ hp', hinside⟩
            · exact Or.inr ⟨p', q, between, p :: before, after, rfl, hseam⟩
        | cons z u =>
            obtain ⟨rfl, hnext⟩ := List.cons.inj hrest
            cases u with
            | nil =>
                have hnext : l.flatMap f = y :: c := hnext.symm
                obtain ⟨between, q, after, rfl, hempty, hq⟩ := exists_of_flatMap_eq_cons hnext
                refine Or.inr ⟨p, q, between, [], after, rfl, hempty, ?_, hq⟩
                rw [hp, List.getLast?_concat]
            | cons w u =>
                obtain ⟨rfl, -⟩ := List.cons.inj hnext
                exact Or.inl ⟨p, List.mem_cons_self, a, u, by rw [hp]; simp⟩

/-- What stands at a seam are neighbours. -/
theorem AtSeam.flatMap_eq {p q : α} {between : List α} (h : AtSeam f l x y p q between) :
  ∃ a c, l.flatMap f = a ++ x :: y :: c
  := by
  obtain ⟨before, after, rfl, hempty, hp, hq⟩ := h
  obtain ⟨u, hu⟩ := List.getLast?_eq_some_iff.mp hp
  obtain ⟨v, hv⟩ := List.head?_eq_some_iff.mp hq
  have hbetween : between.flatMap f = [] := List.flatMap_eq_nil_iff.mpr hempty
  refine ⟨before.flatMap f ++ u, v ++ after.flatMap f, ?_⟩
  simp [hbetween, hu, hv]

end Neighbours

/-! ### Numbered pieces -/

/-- How many characters of the template a piece takes. -/
def Piece.width : Piece → ℕ
  | .literal _ => 1
  | .placeholder expression => expression.length + 3

/-- Pieces with the places where they begin. -/
def numbered : ℕ → List Piece → List (ℕ × Piece)
  | _, [] => []
  | i, piece :: rest => (i, piece) :: numbered (i + piece.width) rest

theorem map_snd_numbered (i : ℕ) (ps : List Piece) :
  (numbered i ps).map Prod.snd = ps
  := by
  induction ps generalizing i with
  | nil => rfl
  | cons piece ps ih => rw [numbered, List.map_cons, ih]

/-- What follows a numbered piece is numbered from where the piece ends. -/
theorem eq_numbered_of_append {i j : ℕ} {ps : List Piece} {before after : List (ℕ × Piece)}
    {p : Piece} (h : numbered i ps = before ++ (j, p) :: after) :
  after = numbered (j + p.width) (after.map Prod.snd)
  := by
  induction before generalizing i ps with
  | nil =>
      cases ps with
      | nil => cases h
      | cons piece ps =>
          obtain ⟨heq, rfl⟩ := List.cons.inj h
          obtain ⟨rfl, rfl⟩ := Prod.mk.inj heq
          rw [map_snd_numbered]
  | cons b before ih =>
      cases ps with
      | nil => cases h
      | cons piece ps =>
          obtain ⟨-, h⟩ := List.cons.inj h
          exact ih h

theorem le_of_mem_numbered {i j : ℕ} {ps : List Piece} {p : Piece} (h : (j, p) ∈ numbered i ps) :
  i ≤ j
  := by
  induction ps generalizing i with
  | nil => cases h
  | cons piece ps ih =>
      obtain heq | h := List.mem_cons.mp h
      · exact (Prod.mk.inj heq).1.ge
      · exact Nat.le_trans (Nat.le_add_right _ _) (ih h)

theorem getElem?_of_mem_numbered {skip i j : ℕ} {s : Text} {c : Char}
    (h : (j, .literal c) ∈ numbered (i + skip) (piecesFrom skip s)) :
  i ≤ j ∧ s[j - i]? = some c
  := by
  induction s generalizing skip i with
  | nil => cases skip <;> cases h
  | cons d s ih =>
      have hnext : ∀ {k : ℕ}, (j, .literal c) ∈ numbered (i + 1 + k) (piecesFrom k s) →
          i ≤ j ∧ (d :: s)[j - i]? = some c := by
        intro k hk
        obtain ⟨hle, hget⟩ := ih hk
        refine ⟨by omega, ?_⟩
        rw [show j - i = (j - (i + 1)) + 1 by omega, List.getElem?_cons_succ]
        exact hget
      cases skip with
      | succ skip =>
          apply hnext (k := skip)
          rw [piecesFrom] at h
          rw [Nat.add_right_comm, Nat.add_assoc]
          exact h
      | zero =>
          rw [piecesFrom] at h
          split at h
          · rename_i expression hplaceholder
            rw [numbered] at h
            obtain heq | h := List.mem_cons.mp h
            · cases heq
            · apply hnext (k := expression.length + 2)
              rw [Nat.add_zero, Piece.width] at h
              rw [show i + 1 + (expression.length + 2) = i + (expression.length + 3) by omega]
              exact h
          · rw [numbered] at h
            obtain heq | h := List.mem_cons.mp h
            · obtain ⟨hj, hc⟩ := Prod.mk.inj heq
              obtain rfl := Piece.literal.inj hc
              rw [Nat.add_zero] at hj
              rw [hj, Nat.sub_self]
              exact ⟨Nat.le_refl i, rfl⟩
            · exact hnext (k := 0) h

/-- A literal piece is the character at its place in the template. -/
theorem getElem?_of_mem_numbered_pieces {j : ℕ} {s : Text} {c : Char}
    (h : (j, .literal c) ∈ numbered 0 (pieces s)) :
  s[j]? = some c
  := by
  have hplace : (j, .literal c) ∈ numbered (0 + 0) (piecesFrom 0 s) := h
  exact (getElem?_of_mem_numbered hplace).2

end Text

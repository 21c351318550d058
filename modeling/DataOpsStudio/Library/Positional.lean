import Mathlib.Data.List.Induction
import Mathlib.Tactic.Linarith
import Mathlib.Tactic.Ring

/-!
# Numbers by their digits

`positional base digits` is the number whose digits in a base are `digits`, the first of
them the most significant.  It is read off digit by digit, a number of two parts is put
together from those of the parts, and a digit of the square of a base is two digits of
the base.
-/

/-- The number with the given digits, the most significant first. -/
def positional (base : ℕ) (digits : List ℕ) : ℕ :=
  digits.foldl (fun n d => n * base + d) 0

namespace positional

variable (base : ℕ)

@[simp]
theorem nil :
  positional base [] = 0
  := rfl

theorem append_singleton (digits : List ℕ) (d : ℕ) :
  positional base (digits ++ [d]) = positional base digits * base + d
  := by rw [positional, List.foldl_append, List.foldl_cons, List.foldl_nil, positional]

theorem append (high low : List ℕ) :
  positional base (high ++ low)
    = positional base high * base ^ low.length + positional base low
  := by
  induction low using List.reverseRecOn with
  | nil => simp
  | append_singleton low d ih =>
      rw [← List.append_assoc, append_singleton, ih, append_singleton, List.length_append,
        List.length_singleton, pow_succ]
      ring

variable {base}

theorem lt_pow {digits : List ℕ} (h : ∀ d ∈ digits, d < base) :
  positional base digits < base ^ digits.length
  := by
  induction digits using List.reverseRecOn with
  | nil => simp
  | append_singleton digits d ih =>
      have hlt := ih (fun d' hd' => h d' (List.mem_append_left _ hd'))
      have hd : d < base := h d (by simp)
      rw [append_singleton, List.length_append, List.length_singleton, pow_succ]
      calc positional base digits * base + d
          < positional base digits * base + base := Nat.add_lt_add_left hd _
        _ = (positional base digits + 1) * base := (Nat.succ_mul _ _).symm
        _ ≤ base ^ digits.length * base := Nat.mul_le_mul_right _ hlt

/-- The two digits of a digit of the square of the base. -/
def halves (base : ℕ) (d : ℕ) : List ℕ := [d / base, d % base]

theorem flatMap_halves (base : ℕ) (digits : List ℕ) :
  positional base (digits.flatMap (halves base)) = positional (base * base) digits
  := by
  induction digits using List.reverseRecOn with
  | nil => rfl
  | append_singleton digits d ih =>
      rw [List.flatMap_append, append, ih, append_singleton, List.flatMap_singleton]
      have hd : positional base (halves base d) = d := by
        show (0 * base + d / base) * base + d % base = d
        rw [Nat.zero_mul, Nat.zero_add, Nat.mul_comm]
        apply Nat.div_add_mod
      rw [hd]
      show _ * base ^ 2 + d = _
      rw [pow_two]

end positional

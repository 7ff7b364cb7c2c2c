import Mathlib.Algebra.Order.Field.Rat
import Mathlib.Data.Nat.Cast.Order.Field
import Mathlib.Order.Monotone.Basic
import Mathlib.Tactic.GCongr
import Mathlib.Tactic.Positivity

/-!
# Compounding rounded down

A part `c / m` of an amount is kept again and again, rounded down at every step.  Rounding never helps the
amount (`keep_le`), and keeping less or more often leaves no more (`keep_mono`, `keep_antitone`).
-/

namespace Compounding

/-- What is kept of `x` after `n` steps. -/
def keep (m c : ℕ) : ℕ → ℕ → ℕ
  | 0, x => x
  | n + 1, x => keep m c n (x * c / m)

variable {m c c' x y : ℕ}

@[simp] lemma keep_nothing (n : ℕ) : keep m c n 0 = 0 := by
  induction n with
  | zero => rfl
  | succ n ih => rw [keep, Nat.zero_mul, Nat.zero_div, ih]

lemma keep_mono (hc : c ≤ c') (hxy : x ≤ y) (n : ℕ) : keep m c n x ≤ keep m c' n y := by
  induction n generalizing x y with
  | zero => exact hxy
  | succ n ih => exact ih (Nat.div_le_div_right (Nat.mul_le_mul hxy hc))

lemma keep_step_le (hc : c ≤ m) (x : ℕ) : x * c / m ≤ x :=
  Nat.div_le_of_le_mul (by rw [Nat.mul_comm m]; exact Nat.mul_le_mul_left x hc)

lemma keep_le_self (hc : c ≤ m) (n x : ℕ) : keep m c n x ≤ x := by
  induction n generalizing x with
  | zero => exact le_rfl
  | succ n ih => exact (ih _).trans (keep_step_le hc x)

/-- More steps keep less. -/
lemma keep_antitone (hc : c ≤ m) (x : ℕ) : Antitone fun n => keep m c n x := by
  refine antitone_nat_of_succ_le fun n => ?_
  exact keep_mono le_rfl (keep_step_le hc x) n

/-- Rounded down, no more is kept than without rounding. -/
lemma keep_le (n x : ℕ) : (keep m c n x : ℚ) ≤ x * (c / m : ℚ) ^ n := by
  induction n generalizing x with
  | zero => simp [keep]
  | succ n ih =>
      have hstep : ((x * c / m : ℕ) : ℚ) ≤ x * (c / m : ℚ) := by
        refine Nat.cast_div_le.trans (le_of_eq ?_)
        rw [Nat.cast_mul, mul_div_assoc]
      calc (keep m c (n + 1) x : ℚ) ≤ (x * c / m : ℕ) * (c / m : ℚ) ^ n := ih _
        _ ≤ x * (c / m : ℚ) * (c / m : ℚ) ^ n := by gcongr
        _ = x * (c / m : ℚ) ^ (n + 1) := by rw [mul_assoc, pow_succ']

end Compounding

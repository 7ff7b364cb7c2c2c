import Mathlib.Data.List.Basic
import Mathlib.Order.Nat

/-!
# Range reduction by a table

Fixed-point exponentials and logarithms reduce their argument by a table: row by row, an argument that reaches
the row's threshold is replaced by a smaller one and the row's constant goes into the accumulator.  A base
function, a short series say, finishes what is left.

Whether the whole is monotone is a question about the thresholds: between them it is the base that moves, and
at a threshold the two branches must meet in order (`Reduction.Meets`).
-/

/-- How a table reduces an argument, with `σ` the accumulator. -/
structure Reduction (Row σ : Type*) where
  threshold : Row → ℕ
  reduce : Row → ℕ → ℕ
  next : Row → σ → σ
  base : σ → ℕ → ℕ

namespace Reduction

variable {Row σ : Type*} (R : Reduction Row σ)

/-- The value of an argument: its reduction row by row, then the base. -/
def value : List Row → σ → ℕ → ℕ
  | [], acc, x => R.base acc x
  | row :: rows, acc, x =>
      if R.threshold row ≤ x then value rows (R.next row acc) (R.reduce row x) else value rows acc x

variable {R} {row : Row} {rows : List Row} {acc : σ} {x y : ℕ}

lemma value_of_le (h : R.threshold row ≤ x) :
    R.value (row :: rows) acc x = R.value rows (R.next row acc) (R.reduce row x) := if_pos h

lemma value_of_lt (h : x < R.threshold row) : R.value (row :: rows) acc x = R.value rows acc x :=
  if_neg (not_le.mpr h)

variable (R)

/-- Right below a threshold the value is at most what it is at the threshold, on every row and for every
accumulator that satisfies `inv`. -/
def Meets (inv : σ → Prop) : List Row → Prop
  | [] => True
  | row :: rows =>
      (∀ acc, inv acc → inv (R.next row acc) ∧
        R.value rows acc (R.threshold row - 1) ≤
          R.value rows (R.next row acc) (R.reduce row (R.threshold row))) ∧
      Meets inv rows

/-- A row keeps the order and the domain, the arguments from `low` on. -/
structure RowOrdered (low : ℕ) (row : Row) : Prop where
  low_lt : low < R.threshold row
  low_le : ∀ x, R.threshold row ≤ x → low ≤ R.reduce row x
  reduce_mono : ∀ x y, R.threshold row ≤ x → x ≤ y → R.reduce row x ≤ R.reduce row y

variable {R} {low : ℕ} {inv : σ → Prop}

/-- Branches that meet in order at every threshold make a monotone value. -/
theorem value_mono
    (hbase : ∀ acc, inv acc → ∀ x y, low ≤ x → x ≤ y → R.base acc x ≤ R.base acc y)
    (hrows : ∀ row ∈ rows, R.RowOrdered low row) (hmeets : R.Meets inv rows) (hinv : inv acc)
    (hlow : low ≤ x) (hxy : x ≤ y) : R.value rows acc x ≤ R.value rows acc y := by
  induction rows generalizing acc x y with
  | nil => exact hbase acc hinv x y hlow hxy
  | cons row rows ih =>
      rcases List.forall_mem_cons.mp hrows with ⟨hrow, hrest⟩
      rcases hmeets with ⟨hthreshold, hmeets⟩
      rcases hthreshold acc hinv with ⟨hnext, hthreshold⟩
      by_cases hx : R.threshold row ≤ x
      · have hy : R.threshold row ≤ y := hx.trans hxy
        rw [value_of_le hx, value_of_le hy]
        exact ih hrest hmeets hnext (hrow.low_le x hx) (hrow.reduce_mono x y hx hxy)
      rw [value_of_lt (not_le.mp hx)]
      by_cases hy : R.threshold row ≤ y
      · have hlt := hrow.low_lt
        rw [value_of_le hy]
        calc R.value rows acc x
            ≤ R.value rows acc (R.threshold row - 1) := ih hrest hmeets hinv hlow (by omega)
          _ ≤ R.value rows (R.next row acc) (R.reduce row (R.threshold row)) := hthreshold
          _ ≤ R.value rows (R.next row acc) (R.reduce row y) :=
              ih hrest hmeets hnext (hrow.low_le _ le_rfl) (hrow.reduce_mono _ y le_rfl hy)
      · rw [value_of_lt (not_le.mp hy)]
        exact ih hrest hmeets hinv hlow hxy

end Reduction

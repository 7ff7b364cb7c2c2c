import Mathlib.Algebra.BigOperators.Group.List.Basic
import Mathlib.Algebra.Ring.Nat
import Mathlib.Data.List.Infix
import Mathlib.Tactic.Common

/-!
# A balance that pays as it goes

An account books a list of entries in order.  Each entry brings in a credit and takes out a debit, and
one whose debit the account cannot pay stops the booking: `settle` is the balance at the end, or
nothing.

The end balance is the opening balance plus what came in minus what went out, whatever the order
(`balance_settle`); the order only decides whether the end is reached, and it is reached exactly when
every prefix is covered (`isSome_settle_iff`).
-/

namespace RunningBalance

variable {α : Type*} (credit debit : α → ℕ)

/-- Book the entries on a balance. -/
def settle : ℕ → List α → Option ℕ
  | balance, [] => some balance
  | balance, x :: xs =>
      if debit x ≤ balance + credit x then settle (balance + credit x - debit x) xs else none

def totalOf (amount : α → ℕ) (xs : List α) : ℕ := (xs.map amount).sum

@[simp] lemma totalOf_nil (amount : α → ℕ) : totalOf amount [] = 0 := rfl

@[simp] lemma totalOf_cons (amount : α → ℕ) (x : α) (xs : List α) :
    totalOf amount (x :: xs) = amount x + totalOf amount xs := by
  simp [totalOf]

/-- Every prefix takes out at most what is there by its end. -/
def Covered (balance : ℕ) (xs : List α) : Prop :=
  ∀ p, p <+: xs → totalOf debit p ≤ balance + totalOf credit p

variable {credit debit} {balance final : ℕ} {x : α} {xs : List α}

lemma covered_nil : Covered credit debit balance [] := by
  intro p hp
  rw [List.prefix_nil.mp hp]
  simp

lemma covered_cons :
    Covered credit debit balance (x :: xs) ↔
      debit x ≤ balance + credit x ∧ Covered credit debit (balance + credit x - debit x) xs := by
  constructor
  · intro h
    have hx : debit x ≤ balance + credit x := by
      simpa using h [x] (by simp)
    refine ⟨hx, ?_⟩
    intro p hp
    have hcons := h (x :: p) (List.cons_prefix_cons.mpr ⟨rfl, hp⟩)
    simp only [totalOf_cons] at hcons
    omega
  · rintro ⟨hx, h⟩ p hp
    rcases List.prefix_cons_iff.mp hp with rfl | ⟨q, rfl, hq⟩
    · simp
    · have := h q hq
      simp only [totalOf_cons]
      omega

/-- A covered account ends at what came in minus what went out. -/
lemma balance_settle (h : settle credit debit balance xs = some final) :
    final + totalOf debit xs = balance + totalOf credit xs := by
  induction xs generalizing balance with
  | nil =>
      obtain rfl := Option.some.inj h
      rfl
  | cons x xs ih =>
      rw [settle] at h
      split_ifs at h with hx
      have := ih h
      simp only [totalOf_cons]
      omega

theorem isSome_settle_iff :
    (settle credit debit balance xs).isSome ↔ Covered credit debit balance xs := by
  induction xs generalizing balance with
  | nil => simp [settle, covered_nil]
  | cons x xs ih =>
      rw [covered_cons, settle, ← ih]
      split_ifs with hx <;> simp [hx]

lemma settle_of_covered (h : Covered credit debit balance xs) :
    settle credit debit balance xs = some (balance + totalOf credit xs - totalOf debit xs) := by
  rcases Option.isSome_iff_exists.mp (isSome_settle_iff.mpr h) with ⟨final, hfinal⟩
  have := balance_settle hfinal
  rw [hfinal, ← this, Nat.add_sub_cancel]

lemma settle_of_not_covered (h : ¬ Covered credit debit balance xs) :
    settle credit debit balance xs = none := by
  rwa [← isSome_settle_iff, Option.not_isSome_iff_eq_none] at h

/-- The last prefix is the whole list. -/
lemma Covered.total_le (h : Covered credit debit balance xs) :
    totalOf debit xs ≤ balance + totalOf credit xs := h xs (List.prefix_refl xs)

end RunningBalance

import Mathlib.Data.List.Basic
import Mathlib.Data.List.ReduceOption
import Mathlib.Tactic.Common

/-!
# Collecting up to a budget

A list of marks is walked, each of which holds an item or none; the items are collected, and the walk stops at
the first mark it reaches with the budget used up (`walk`).

What is collected is the first `budget` of all items (`walk_fst`).  The walk is stopped if and only if the
items of all marks but the last use up the budget (`walk_snd`): a mark without an item stops it as well.
-/

namespace CappedWalk

variable {α : Type*}

/-- The items kept, and whether the walk was stopped. -/
def walk (budget : ℕ) : List (Option α) → List α → List α × Bool
  | [], kept => (kept, false)
  | mark :: marks, kept =>
      if budget ≤ kept.length then (kept, true) else walk budget marks (kept ++ mark.toList)

section Walk

variable {budget : ℕ} {kept : List α} {mark : Option α} {marks rest : List (Option α)}

@[simp] lemma walk_nil : walk budget [] kept = (kept, false) := rfl

lemma walk_of_full (h : budget ≤ kept.length) :
    walk budget marks kept = (kept, decide (marks ≠ [])) := by
  cases marks with
  | nil => rfl
  | cons mark marks => simp [walk, h]

lemma walk_cons_of_lt (h : kept.length < budget) :
    walk budget (mark :: marks) kept = walk budget marks (kept ++ mark.toList) :=
  if_neg (Nat.not_le.mpr h)

lemma full_of_stopped (h : (walk budget marks kept).2 = true) :
    budget ≤ (walk budget marks kept).1.length := by
  induction marks generalizing kept with
  | nil => cases h
  | cons mark marks ih =>
      rcases Nat.lt_or_ge kept.length budget with hlt | hfull
      · rw [walk_cons_of_lt hlt] at h ⊢
        exact ih h
      · rw [walk_of_full hfull]
        exact hfull

/-- What comes after a stop adds nothing. -/
lemma walk_append : walk budget (marks ++ rest) kept =
    ((walk budget rest (walk budget marks kept).1).1,
      (walk budget marks kept).2 || (walk budget rest (walk budget marks kept).1).2) := by
  induction marks generalizing kept with
  | nil => rfl
  | cons mark marks ih =>
      rcases Nat.lt_or_ge kept.length budget with hlt | hfull
      · rw [List.cons_append, walk_cons_of_lt hlt, walk_cons_of_lt hlt, ih]
      · simp [walk_of_full hfull]

lemma reduceOption_cons (mark : Option α) (marks : List (Option α)) :
    (mark :: marks).reduceOption = mark.toList ++ marks.reduceOption := by
  cases mark with
  | none => simp
  | some a => simp

/-- The first items are kept. -/
theorem walk_fst (h : kept.length ≤ budget) :
    (walk budget marks kept).1 = (kept ++ marks.reduceOption).take budget := by
  induction marks generalizing kept with
  | nil =>
      rw [List.reduceOption_nil, List.append_nil, List.take_of_length_le h]
      rfl
  | cons mark marks ih =>
      rcases Nat.lt_or_ge kept.length budget with hlt | hfull
      · have hone : mark.toList.length ≤ 1 := by cases mark <;> simp
        rw [walk_cons_of_lt hlt, ih (by rw [List.length_append]; omega), reduceOption_cons,
          List.append_assoc]
      · rw [walk_of_full hfull, List.take_append_of_le_length hfull, List.take_of_length_le h]

/-- The walk is stopped exactly when a mark is left after the budget is used up. -/
theorem walk_snd : (walk budget marks kept).2 = true ↔
    marks ≠ [] ∧ budget ≤ (kept ++ marks.dropLast.reduceOption).length := by
  induction marks generalizing kept with
  | nil => simp
  | cons mark marks ih =>
      rcases Nat.lt_or_ge kept.length budget with hlt | hfull
      · rw [walk_cons_of_lt hlt, ih]
        cases marks with
        | nil => simpa using hlt
        | cons next marks =>
            rw [List.dropLast_cons_cons, reduceOption_cons]
            simp
      · rw [walk_of_full hfull, List.length_append]
        simp only [ne_eq, reduceCtorEq, not_false_eq_true, decide_true, true_and, true_iff]
        omega

end Walk

end CappedWalk

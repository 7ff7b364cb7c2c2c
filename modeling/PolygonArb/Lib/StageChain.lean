import Mathlib.Data.Option.Basic
import Mathlib.Tactic.Common

/-!
# Chains of partial stages

A value goes through a list of stages, each of which may refuse it.  When does a refusal say something
of every larger value?  When the stage that refuses does so from there on, and no stage before it gives
less for more (`run_eq_none_of_lasting`).
-/

namespace StageChain

variable {α : Type*}

/-- What is left of a value after all the stages. -/
def run : List (α → Option α) → α → Option α
  | [], a => some a
  | stage :: stages, a => (stage a).bind (run stages)

variable [LE α]

/-- The stage refuses everything from `a` on. -/
def RefusesFrom (stage : α → Option α) (a : α) : Prop :=
  ∀ b, a ≤ b → stage b = none

/-- Nothing from `a` on gets less out of the stage than `a` does. -/
def GivesNoLess (stage : α → Option α) (a : α) : Prop :=
  ∀ b c d, a ≤ b → stage a = some c → stage b = some d → c ≤ d

/-- On the way of `a` no stage gives less for more, and the one that refuses refuses for good. -/
def Lasting : List (α → Option α) → α → Prop
  | [], _ => True
  | stage :: stages, a =>
      (stage a = none → RefusesFrom stage a) ∧
        ∀ b, stage a = some b → GivesNoLess stage a ∧ Lasting stages b

lemma RefusesFrom.eq_none {stage : α → Option α} {a b : α} (h : RefusesFrom stage a) (hab : a ≤ b) :
    stage b = none :=
  h b hab

/-- A lasting refusal of `a` is one of everything larger. -/
theorem run_eq_none_of_lasting {stages : List (α → Option α)} :
    ∀ {a b : α}, Lasting stages a → run stages a = none → a ≤ b → run stages b = none := by
  induction stages with
  | nil =>
      intro a b _ hstop _
      cases hstop
  | cons stage stages ih =>
      intro a b hlasting hstop hab
      rcases hlasting with ⟨hrefuse, hpass⟩
      rw [run] at hstop ⊢
      cases ha : stage a with
      | none => rw [(hrefuse ha).eq_none hab, Option.bind_none]
      | some c =>
          rcases hpass c ha with ⟨hgives, hrest⟩
          rw [ha, Option.bind_some] at hstop
          cases hb : stage b with
          | none => rfl
          | some d => exact ih hrest hstop (hgives b c d hab ha hb)

end StageChain

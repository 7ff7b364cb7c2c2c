import Mathlib.Logic.Function.Basic
import Mathlib.Tactic.Common

/-!
# Threads around one permit

A table `ℕ → φ` gives the phase of every thread of a program.  `Exclusive holds free table` is the
accounting of a semaphore with one permit: it is free exactly when no thread is in a phase that holds
it, and two threads never hold it at once.  A step of one thread keeps this when it moves between
phases that agree on `holds` (`Exclusive.move`), takes the free permit (`take`), drops its own
(`drop`) or gives it to another thread (`handOver`).

`Carried p table` says that some thread is in a phase with `p`; it is how a value that a thread has
taken out of the shared memory is still accounted for.
-/

namespace Threads

open Function

variable {φ : Type*} {holds p : φ → Prop} {free : Bool} {table : ℕ → φ} {r child : ℕ} {ph ph' : φ}

/-- The permit is free when no thread holds it, and at most one thread does. -/
structure Exclusive (holds : φ → Prop) (free : Bool) (table : ℕ → φ) : Prop where
  free_iff : free = true ↔ ∀ r, ¬ holds (table r)
  unique : ∀ r r', holds (table r) → holds (table r') → r = r'

/-- Some thread is in a phase with `p`. -/
def Carried (p : φ → Prop) (table : ℕ → φ) : Prop := ∃ r, p (table r)

lemma holds_update (hne : ∀ r', r' ≠ r → ¬ holds (table r')) {r' : ℕ}
    (h : holds (update table r ph r')) : r' = r := by
  by_contra hr
  rw [update_of_ne hr] at h
  exact hne r' hr h

/-- A step between phases that agree on holding the permit. -/
lemma Exclusive.move (h : Exclusive holds free table) (hsame : holds ph ↔ holds (table r)) :
    Exclusive holds free (update table r ph) := by
  have hall : ∀ r', holds (update table r ph r') ↔ holds (table r') := by
    intro r'
    by_cases hr : r' = r
    · rw [hr, update_self, hsame]
    · rw [update_of_ne hr]
  constructor
  · simp only [hall]
    exact h.free_iff
  · simp only [hall]
    exact h.unique

lemma Exclusive.take (h : Exclusive holds true table) (hph : holds ph) :
    Exclusive holds false (update table r ph) := by
  have hnone := h.free_iff.mp rfl
  constructor
  · constructor
    · intro hfalse
      cases hfalse
    · intro hall
      exact absurd hph (update_self r ph table ▸ hall r)
  · intro a b ha hb
    rw [holds_update (fun r' _ => hnone r') ha, holds_update (fun r' _ => hnone r') hb]

lemma Exclusive.drop (h : Exclusive holds free table) (hr : holds (table r)) (hph : ¬ holds ph) :
    Exclusive holds true (update table r ph) := by
  have hnone : ∀ r', ¬ holds (update table r ph r') := by
    intro r'
    by_cases heq : r' = r
    · rwa [heq, update_self]
    · rw [update_of_ne heq]
      exact fun h' => heq (h.unique r' r h' hr)
  exact ⟨⟨fun _ => hnone, fun _ => rfl⟩, fun a _ ha => absurd ha (hnone a)⟩

/-- The holder gives the permit to a thread it starts. -/
lemma Exclusive.handOver (h : Exclusive holds free table) (hr : holds (table r)) (hph : ¬ holds ph)
    (hph' : holds ph') (hne : child ≠ r) :
    Exclusive holds free (update (update table child ph') r ph) := by
  have hheld : free = false := by
    cases hfree : free with
    | false => rfl
    | true => exact absurd hr (h.free_iff.mp hfree r)
  rw [hheld, update_comm hne]
  exact (h.drop hr hph).take hph'

lemma carried_update (h : p ph) : Carried p (update table r ph) :=
  ⟨r, by rwa [update_self]⟩

/-- What is carried stays so, unless by the thread that moves. -/
lemma Carried.move (h : Carried p table) (hkeep : p (table r) → p ph) :
    Carried p (update table r ph) := by
  rcases h with ⟨r', hr'⟩
  by_cases heq : r' = r
  · subst heq
    exact carried_update (hkeep hr')
  · exact ⟨r', by rwa [update_of_ne heq]⟩

/-- What the parent carried, the child it starts carries. -/
lemma Carried.handOver (h : Carried p table) (hkeep : p (table r) → p ph')
    (hchild : ¬ p (table child)) (hne : child ≠ r) :
    Carried p (update (update table child ph') r ph) := by
  have hstarted : update (update table child ph') r ph child = ph' := by
    rw [update_of_ne hne, update_self]
  rcases h with ⟨r', hr'⟩
  by_cases heq : r' = r
  · subst heq
    exact ⟨child, by rw [hstarted]; exact hkeep hr'⟩
  · have hother : r' ≠ child := by
      rintro rfl
      exact hchild hr'
    exact ⟨r', by rwa [update_of_ne heq, update_of_ne hother]⟩

end Threads

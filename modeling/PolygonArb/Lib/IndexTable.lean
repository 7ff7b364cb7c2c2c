import Mathlib.Data.List.Induction
import Mathlib.Data.List.Nodup
import Mathlib.Logic.Function.Basic
import Mathlib.Tactic.Common

/-!
# A table and its inverse index

A list of keys and a partial map from keys to positions.  `InverseIndex keys lookup` says that each
is the inverse of the other; appending a key that the map does not know keeps it.

`Points` is one half of it: what the map answers is right.  A table in which a key occurs more than once still
has such a map, and `enumerate` builds the one of its last places.

`Extends` relates two such pairs: the later one still answers all the earlier one did.  It asks
nothing of either pair, so it also holds of tables that are not inverse to their map.
-/

namespace IndexTable

variable {α : Type*}

/-- `lookup` answers exactly the position of a key in the table. -/
def InverseIndex (keys : List α) (lookup : α → Option ℕ) : Prop :=
  ∀ a i, lookup a = some i ↔ keys[i]? = some a

variable {keys : List α} {lookup : α → Option ℕ}

lemma inverseIndex_nil : InverseIndex ([] : List α) fun _ => none := by
  intro a i
  simp

/-- Searching a table without repetitions inverts it. -/
theorem inverseIndex_findIdx? [DecidableEq α] (h : keys.Nodup) :
    InverseIndex keys fun a => keys.findIdx? (· = a) := by
  intro a i
  rw [List.findIdx?_eq_some_iff_getElem, List.getElem?_eq_some_iff]
  simp only [decide_eq_true_eq]
  constructor
  · rintro ⟨hi, ha, -⟩
    exact ⟨hi, ha⟩
  · rintro ⟨hi, ha⟩
    refine ⟨hi, ha, ?_⟩
    intro j hj heq
    have hij := h.getElem_inj_iff.mp (heq.trans ha.symm)
    omega

namespace InverseIndex

lemma lt_length (h : InverseIndex keys lookup) {a : α} {i : ℕ} (ha : lookup a = some i) :
    i < keys.length := by
  have hk := (h a i).1 ha
  exact (List.getElem?_eq_some_iff.1 hk).1

/-- Appending an unknown key at the end of both keeps the two inverse to each other. -/
theorem push [DecidableEq α] (h : InverseIndex keys lookup) {a : α} (ha : lookup a = none) :
    InverseIndex (keys ++ [a]) (Function.update lookup a (some keys.length)) := by
  intro b i
  by_cases hb : b = a
  · subst hb
    have hmiss : ∀ j : ℕ, keys[j]? ≠ some b := by
      intro j hj
      rw [(h b j).2 hj] at ha
      exact absurd ha (by simp)
    rw [Function.update_self]
    rcases Nat.lt_trichotomy i keys.length with hi | hi | hi
    · rw [List.getElem?_append_left hi]
      simp only [Option.some.injEq, hmiss, iff_false]
      omega
    · subst hi
      simp
    · rw [List.getElem?_eq_none (by simp; omega)]
      simp only [Option.some.injEq, reduceCtorEq, iff_false]
      omega
  · rw [Function.update_of_ne hb, h b i]
    rcases Nat.lt_trichotomy i keys.length with hi | hi | hi
    · rw [List.getElem?_append_left hi]
    · subst hi
      simp [Ne.symm hb]
    · rw [List.getElem?_eq_none (by omega), List.getElem?_eq_none (by simp; omega)]

end InverseIndex

/-- The later table starts with the earlier one, and the later map keeps its answers. -/
structure Extends (keys : List α) (lookup : α → Option ℕ) (keys' : List α)
    (lookup' : α → Option ℕ) : Prop where
  keys : keys <+: keys'
  lookup : ∀ a i, lookup a = some i → lookup' a = some i

namespace Extends

variable {keys' keys'' : List α} {lookup' lookup'' : α → Option ℕ}

lemma refl (keys : List α) (lookup : α → Option ℕ) : Extends keys lookup keys lookup :=
  ⟨List.prefix_refl keys, fun _ _ h => h⟩

lemma trans (h : Extends keys lookup keys' lookup') (h' : Extends keys' lookup' keys'' lookup'') :
    Extends keys lookup keys'' lookup'' :=
  ⟨h.keys.trans h'.keys, fun a i ha => h'.lookup a i (h.lookup a i ha)⟩

/-- An unknown key is appended, under any position. -/
lemma push [DecidableEq α] {a : α} (ha : lookup a = none) (i : ℕ) :
    Extends keys lookup (keys ++ [a]) (Function.update lookup a (some i)) := by
  refine ⟨List.prefix_append keys [a], ?_⟩
  intro b j hb
  rw [Function.update_of_ne]
  · exact hb
  · rintro rfl
    rw [ha] at hb
    exact absurd hb (by simp)

/-- A position that was in range still denotes the key it denoted. -/
lemma getElem?_eq (h : Extends keys lookup keys' lookup') {i : ℕ} {a : α} (hi : keys[i]? = some a) :
    keys'[i]? = some a := by
  rcases h.keys with ⟨more, rfl⟩
  rw [List.getElem?_append_left (List.getElem?_eq_some_iff.mp hi).1]
  exact hi

end Extends

/-! ## Maps of a table with repetitions -/

/-- What `lookup` answers is a place of the key. -/
def Points (keys : List α) (lookup : α → Option ℕ) : Prop :=
  ∀ a i, lookup a = some i → keys[i]? = some a

lemma points_nil : Points ([] : List α) fun _ => none := by
  intro a i h
  simp at h

/-- A key is known to a map that points into the table, and the map knows all keys of the table once they do
not repeat. -/
lemma Points.inverseIndex (h : Points keys lookup) (hnodup : keys.Nodup)
    (hknown : ∀ a ∈ keys, (lookup a).isSome) : InverseIndex keys lookup := by
  intro a i
  refine ⟨h a i, ?_⟩
  intro hi
  obtain ⟨j, hj⟩ := Option.isSome_iff_exists.mp (hknown a (List.mem_of_getElem? hi))
  have hplace := h a j hj
  obtain ⟨hilt, hia⟩ := List.getElem?_eq_some_iff.mp hi
  obtain ⟨hjlt, hja⟩ := List.getElem?_eq_some_iff.mp hplace
  have hij : i = j := hnodup.getElem_inj_iff.mp (hia.trans hja.symm)
  rw [hj, hij]

section Maintain

variable [DecidableEq α]

namespace Points

/-- One more key at the end. -/
lemma push (h : Points keys lookup) (a : α) :
    Points (keys ++ [a]) (Function.update lookup a (some keys.length)) := by
  intro b i hb
  by_cases hba : b = a
  · subst hba
    rw [Function.update_self, Option.some.injEq] at hb
    simp [← hb]
  · rw [Function.update_of_ne hba] at hb
    have hi := h b i hb
    rw [List.getElem?_append_left (List.getElem?_eq_some_iff.mp hi).1]
    exact hi

/-- Another key at one place; what pointed there is forgotten. -/
lemma set (h : Points keys lookup) {i : ℕ} {old : α} (hi : keys[i]? = some old) (new : α) :
    Points (keys.set i new)
      (Function.update (if old = new then lookup else Function.update lookup old none) new (some i)) := by
  have hlt := (List.getElem?_eq_some_iff.mp hi).1
  intro b j hb
  by_cases hnew : b = new
  · subst hnew
    rw [Function.update_self, Option.some.injEq] at hb
    subst hb
    simp [hlt]
  · rw [Function.update_of_ne hnew] at hb
    have hother : lookup b = some j ∧ b ≠ old := by
      split_ifs at hb with hsame
      · exact ⟨hb, hsame ▸ hnew⟩
      · by_cases hold : b = old
        · simp [hold] at hb
        · rw [Function.update_of_ne hold] at hb
          exact ⟨hb, hold⟩
    have hj := h b j hother.1
    have hne : i ≠ j := by
      rintro rfl
      rw [hi, Option.some.injEq] at hj
      exact hother.2 hj.symm
    rw [List.getElem?_set_ne hne]
    exact hj

end Points

/-- Every key at its last place. -/
def enumerate (keys : List α) : α → Option ℕ :=
  keys.zipIdx.foldl (fun lookup entry => Function.update lookup entry.1 (some entry.2)) fun _ => none

lemma enumerate_concat (keys : List α) (a : α) :
    enumerate (keys ++ [a]) = Function.update (enumerate keys) a (some keys.length) := by
  simp [enumerate, List.zipIdx_append]

lemma points_enumerate (keys : List α) : Points keys (enumerate keys) := by
  induction keys using List.reverseRecOn with
  | nil => exact points_nil
  | append_singleton keys a ih =>
      rw [enumerate_concat]
      exact ih.push a

lemma isSome_enumerate {keys : List α} {a : α} (h : a ∈ keys) : (enumerate keys a).isSome := by
  induction keys using List.reverseRecOn with
  | nil => simp at h
  | append_singleton keys b ih =>
      rw [enumerate_concat]
      by_cases hab : a = b
      · simp [hab]
      · rw [Function.update_of_ne hab]
        exact ih (by simpa [hab] using h)

lemma inverseIndex_enumerate {keys : List α} (h : keys.Nodup) : InverseIndex keys (enumerate keys) :=
  (points_enumerate keys).inverseIndex h fun _ => isSome_enumerate

end Maintain

lemma InverseIndex.nodup (h : InverseIndex keys lookup) : keys.Nodup := by
  rw [List.nodup_iff_getElem?_ne_getElem?]
  intro i j hij hj heq
  have hi : keys[i]? = some keys[j] := heq.trans (List.getElem?_eq_getElem hj)
  have hboth := ((h _ i).mpr hi).symm.trans ((h _ j).mpr (List.getElem?_eq_getElem hj))
  rw [Option.some.injEq] at hboth
  exact (Nat.ne_of_lt hij) hboth

end IndexTable

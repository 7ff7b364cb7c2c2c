import Mathlib

/-!
# Tables that grow on demand

A table is a list that is read with a default past its end and padded with the default when a later slot
is written (`setSlot`).  A sum over a table follows a write (`sum_map_setSlot`), and it only depends on
what the slots read (`sum_map_eq_of_getD`), not on how far the table was padded.
-/

namespace Slots

variable {β : Type*} {d : β} {f : β → ℕ}

/-- Write slot `i`, with defaults up to it. -/
def setSlot (d : β) (xs : List β) (i : ℕ) (x : β) : List β :=
  (xs ++ List.replicate (i + 1 - xs.length) d).set i x

/-- Cut or pad a table to a length. -/
def resize (d : β) (xs : List β) (n : ℕ) : List β := xs.take n ++ List.replicate (n - xs.length) d

@[simp] lemma getD_append_replicate (xs : List β) (n i : ℕ) :
    (xs ++ List.replicate n d).getD i d = xs.getD i d := by
  rw [List.getD_eq_getElem?_getD, List.getD_eq_getElem?_getD]
  by_cases hi : i < xs.length
  · rw [List.getElem?_append_left hi]
  · rw [List.getElem?_append_right (Nat.le_of_not_lt hi), List.getElem?_eq_none (Nat.le_of_not_lt hi),
      List.getElem?_replicate]
    split_ifs <;> rfl

lemma getD_set {xs : List β} {i : ℕ} (hi : i < xs.length) (x : β) (j : ℕ) :
    (xs.set i x).getD j d = if j = i then x else xs.getD j d := by
  rw [List.getD_eq_getElem?_getD, List.getD_eq_getElem?_getD]
  split_ifs with hj
  · rw [hj, List.getElem?_set_self hi, Option.getD_some]
  · rw [List.getElem?_set_ne (Ne.symm hj)]

lemma lt_length_padded (xs : List β) (i : ℕ) :
    i < (xs ++ List.replicate (i + 1 - xs.length) d).length := by
  rw [List.length_append, List.length_replicate]
  omega

@[simp] lemma getD_setSlot (xs : List β) (i : ℕ) (x : β) (j : ℕ) :
    (setSlot d xs i x).getD j d = if j = i then x else xs.getD j d := by
  rw [setSlot, getD_set (lt_length_padded xs i), getD_append_replicate]

lemma length_setSlot_of_lt {xs : List β} {i : ℕ} (h : i < xs.length) (x : β) :
    (setSlot d xs i x).length = xs.length := by
  rw [setSlot, List.length_set, List.length_append, List.length_replicate]
  omega

lemma resize_of_length_le {xs : List β} {n : ℕ} (h : xs.length ≤ n) :
    resize d xs n = xs ++ List.replicate (n - xs.length) d := by
  rw [resize, List.take_of_length_le h]

/-! ## Sums -/

lemma sum_map_append_replicate (hd : f d = 0) (xs : List β) (n : ℕ) :
    ((xs ++ List.replicate n d).map f).sum = (xs.map f).sum := by
  simp [hd]

lemma sum_map_set (x : β) : ∀ {xs : List β} {i : ℕ}, i < xs.length →
    ((xs.set i x).map f).sum + f (xs.getD i d) = (xs.map f).sum + f x := by
  intro xs
  induction xs with
  | nil =>
      intro i hi
      cases hi
  | cons y ys ih =>
      intro i hi
      cases i with
      | zero =>
          simp only [List.set_cons_zero, List.map_cons, List.sum_cons, List.getD_cons_zero]
          omega
      | succ i =>
          have hrest := ih (Nat.lt_of_succ_lt_succ hi)
          simp only [List.set_cons_succ, List.map_cons, List.sum_cons, List.getD_cons_succ]
          omega

/-- A write takes the old value out of the sum and puts the new one in. -/
theorem sum_map_setSlot (hd : f d = 0) (xs : List β) (i : ℕ) (x : β) :
    ((setSlot d xs i x).map f).sum + f (xs.getD i d) = (xs.map f).sum + f x := by
  have hset := sum_map_set (f := f) (d := d) x (lt_length_padded (d := d) xs i)
  rw [getD_append_replicate, sum_map_append_replicate hd] at hset
  exact hset

/-- Tables that read the same have the same sum. -/
theorem sum_map_eq_of_getD (hd : f d = 0) : ∀ {xs ys : List β},
    (∀ i, xs.getD i d = ys.getD i d) → (xs.map f).sum = (ys.map f).sum := by
  have hzero : ∀ {zs : List β}, (∀ i, zs.getD i d = d) → (zs.map f).sum = 0 := by
    intro zs
    induction zs with
    | nil => intro _; rfl
    | cons z zs ih =>
        intro h
        have hhead : z = d := h 0
        rw [List.map_cons, List.sum_cons, hhead, hd, ih fun i => h (i + 1)]
  intro xs
  induction xs with
  | nil =>
      intro ys h
      exact (hzero fun i => (h i).symm).symm
  | cons x xs ih =>
      intro ys h
      cases ys with
      | nil => exact hzero h
      | cons y ys =>
          have hhead : x = y := h 0
          rw [List.map_cons, List.map_cons, List.sum_cons, List.sum_cons, hhead,
            ih fun i => h (i + 1)]

lemma countP_eq_sum (p : β → Bool) (xs : List β) :
    xs.countP p = (xs.map fun x => (p x).toNat).sum := by
  induction xs with
  | nil => rfl
  | cons x xs ih =>
      rw [List.countP_cons, List.map_cons, List.sum_cons, ih, add_comm]
      cases p x <;> rfl

end Slots

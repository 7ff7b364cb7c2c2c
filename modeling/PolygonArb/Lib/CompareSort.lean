import Mathlib.Data.List.Perm.Basic
import Mathlib.Data.List.Sort
import Mathlib.Order.Antisymmetrization

/-!
# Sorting by a comparison

A comparison that orders a type up to ties (`Std.TransCmp`) sorts lists: `mergeSort` by it leaves no element
before a smaller one.  The order of tied elements is not determined, but nothing else is: sorted lists
with the same elements up to ties agree place by place up to ties (`forall₂_tied_of_sorted`).
-/

namespace CompareSort

open Std

variable {α β : Type*}

/-- A comparison of images. -/
lemma transCmp_comap (cmp : β → β → Ordering) [TransCmp cmp] (f : α → β) :
    TransCmp fun a b => cmp (f a) (f b) where
  eq_swap := OrientedCmp.eq_swap
  isLE_trans := TransCmp.isLE_trans

variable (cmp : α → α → Ordering)

/-- No element comes before a smaller one. -/
def SortedBy (xs : List α) : Prop := xs.Pairwise fun a b => (cmp a b).isLE

def Tied (a b : α) : Prop := cmp a b = .eq

variable {cmp} [TransCmp cmp]

lemma isLE_trans (a b c : α) (hab : (cmp a b).isLE = true) (hbc : (cmp b c).isLE = true) :
    (cmp a c).isLE = true :=
  TransCmp.isLE_trans hab hbc

lemma isLE_total (a b : α) : ((cmp a b).isLE || (cmp b a).isLE) = true := by
  cases hab : cmp a b with
  | lt => simp
  | eq => simp
  | gt =>
      have hba := OrientedCmp.lt_of_gt hab
      simp [hba]

lemma sortedBy_mergeSort (xs : List α) : SortedBy cmp (xs.mergeSort fun a b => (cmp a b).isLE) :=
  List.pairwise_mergeSort isLE_trans isLE_total xs

omit [TransCmp cmp] in
lemma SortedBy.sublist {xs ys : List α} (h : SortedBy cmp ys) (hsub : xs.Sublist ys) :
    SortedBy cmp xs :=
  List.Pairwise.sublist hsub h

/-- Sorting leaves a sorted part of a list as it is. -/
lemma filter_mergeSort (p : α → Bool) {xs : List α} (h : SortedBy cmp (xs.filter p)) :
    (xs.mergeSort fun a b => (cmp a b).isLE).filter p = xs.filter p := by
  have hsub : (xs.filter p).Sublist (xs.mergeSort fun a b => (cmp a b).isLE) :=
    List.sublist_mergeSort isLE_trans isLE_total h
      List.filter_sublist
  have hfilter : (xs.filter p).Sublist ((xs.mergeSort fun a b => (cmp a b).isLE).filter p) := by
    have hboth := hsub.filter p
    rw [List.filter_filter] at hboth
    simpa using hboth
  have hlength := ((List.mergeSort_perm xs fun a b => (cmp a b).isLE).filter p).length_eq
  exact (hfilter.eq_of_length hlength.symm).symm

/-! ## Ties -/

lemma tied_iff {a b : α} : Tied cmp a b ↔ (cmp a b).isLE ∧ (cmp b a).isLE := by
  constructor
  · intro h
    have h' := OrientedCmp.eq_symm h
    rw [Tied] at h
    simp [h, h']
  · rintro ⟨hab, hba⟩
    exact OrientedCmp.isLE_antisymm hab hba

lemma Tied.symm {a b : α} (h : Tied cmp a b) : Tied cmp b a := OrientedCmp.eq_symm h

lemma Tied.trans {a b c : α} (hab : Tied cmp a b) (hbc : Tied cmp b c) : Tied cmp a c :=
  TransCmp.eq_trans hab hbc

variable (cmp) in
/-- The preorder of a comparison. -/
abbrev comparePreorder : Preorder α where
  le a b := (cmp a b).isLE
  le_refl a := by
    have hself : cmp a a = .eq := ReflCmp.compare_self
    simp [hself]
  le_trans a b c := TransCmp.isLE_trans

/-- Sorted lists with the same keys agree place by place up to ties, if elements with the same key
are tied. -/
theorem forall₂_tied_of_sorted {κ : Type*} [DecidableEq κ] {key : α → κ} {xs ys : List α}
    (hxs : SortedBy cmp xs) (hys : SortedBy cmp ys) (hkeys : (xs.map key).Perm (ys.map key))
    (hties : ∀ x ∈ xs, ∀ y ∈ ys, key x = key y → Tied cmp x y) :
    List.Forall₂ (Tied cmp) xs ys := by
  let order := comparePreorder cmp
  let tie : α → Antisymmetrization α (· ≤ ·) := toAntisymmetrization (· ≤ ·)
  have htie : ∀ {a b}, Tied cmp a b → tie a = tie b := fun h => Quotient.sound (tied_iff.mp h)
  -- the tie of an element only depends on its key
  let rank : κ → Option (Antisymmetrization α (· ≤ ·)) := fun k =>
    (xs.find? fun x => decide (key x = k)).map tie
  have hrank : ∀ a, key a ∈ xs.map key → (∀ x ∈ xs, key x = key a → Tied cmp x a) →
      rank (key a) = some (tie a) := by
    intro a hmem hall
    rcases List.mem_map.mp hmem with ⟨x, hx, hkey⟩
    cases hfind : xs.find? fun x => decide (key x = key a) with
    | none => simpa [hkey] using List.find?_eq_none.mp hfind x hx
    | some x' =>
        have hkey' := List.find?_some hfind
        rw [decide_eq_true_eq] at hkey'
        simp only [rank, hfind, Option.map_some]
        rw [htie (hall x' (List.mem_of_find?_eq_some hfind) hkey')]
  have hmapx : (xs.map tie).map some = (xs.map key).map rank := by
    rw [List.map_map, List.map_map]
    refine List.map_congr_left fun a ha => (hrank a (List.mem_map_of_mem ha) ?_).symm
    intro x hx hkey
    rcases List.mem_map.mp (hkeys.subset (List.mem_map_of_mem (f := key) ha)) with ⟨y, hy, hya⟩
    exact (hties x hx y hy (hkey.trans hya.symm)).trans (hties a ha y hy hya.symm).symm
  have hmapy : (ys.map tie).map some = (ys.map key).map rank := by
    rw [List.map_map, List.map_map]
    refine List.map_congr_left fun b hb => (hrank b ?_ ?_).symm
    · exact hkeys.symm.subset (List.mem_map_of_mem hb)
    · intro x hx hkey
      exact hties x hx b hb hkey
  have hperm : (xs.map tie).Perm (ys.map tie) := by
    rw [← List.map_perm_map_iff (Option.some_injective _), hmapx, hmapy]
    exact hkeys.map rank
  have hsorted : ∀ {zs : List α}, SortedBy cmp zs → (zs.map tie).Pairwise (· ≤ ·) := by
    intro zs hzs
    rw [List.pairwise_map]
    exact List.Pairwise.imp (fun h => toAntisymmetrization_le_toAntisymmetrization_iff.mpr h) hzs
  have heq : xs.map tie = ys.map tie := hperm.eq_of_pairwise' (hsorted hxs) (hsorted hys)
  have hall : List.Forall₂ (fun a b => tie a = tie b) xs ys := by
    have heq₂ : List.Forall₂ (· = ·) (xs.map tie) (ys.map tie) := by
      rw [heq]
      exact List.forall₂_refl _
    rw [List.forall₂_map_left_iff, List.forall₂_map_right_iff] at heq₂
    exact heq₂
  exact hall.imp fun a b h => tied_iff.mpr (Quotient.exact h)

end CompareSort

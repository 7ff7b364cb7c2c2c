import Mathlib.Data.Finset.Card
import Mathlib.Data.List.AList

/-!
# Bulk updates of a finite map

Inserting the rows of one association list into another and erasing a list of keys, with what a lookup
sees afterwards (`lookup_extend`, `lookup_eraseAll`) and the keys that are left.
-/

namespace BulkMap

variable {κ ν : Type*} [DecidableEq κ] {m : AList fun _ : κ => ν} {rows : List (Σ _ : κ, ν)} {k : κ}

/-- The rows inserted in order. -/
def extend (m : AList fun _ : κ => ν) (rows : List (Σ _ : κ, ν)) : AList fun _ : κ => ν :=
  rows.foldl (fun m row => m.insert row.1 row.2) m

def eraseAll (m : AList fun _ : κ => ν) (ks : List κ) : AList fun _ : κ => ν :=
  ks.foldl (fun m k => m.erase k) m

lemma lookup_extend (hrows : rows.NodupKeys) :
    (extend m rows).lookup k = (rows.dlookup k).or (m.lookup k) := by
  induction rows generalizing m with
  | nil => rfl
  | cons row rows ih =>
      rw [List.nodupKeys_cons] at hrows
      have hstep : extend m (row :: rows) = extend (m.insert row.1 row.2) rows := rfl
      rw [hstep, ih hrows.2]
      by_cases hk : k = row.1
      · subst hk
        have hnone : rows.dlookup row.1 = none := List.dlookup_eq_none.mpr hrows.1
        rw [hnone, AList.lookup_insert, Option.none_or, List.dlookup_cons_eq, Option.some_or]
      · rw [AList.lookup_insert_ne hk, List.dlookup_cons_ne _ _ hk]

lemma lookup_eraseAll (ks : List κ) :
    (eraseAll m ks).lookup k = if k ∈ ks then none else m.lookup k := by
  induction ks generalizing m with
  | nil => simp [eraseAll]
  | cons a ks ih =>
      have hstep : eraseAll m (a :: ks) = eraseAll (m.erase a) ks := rfl
      rw [hstep, ih]
      by_cases hk : k = a
      · subst hk
        simp [AList.lookup_erase]
      · simp [hk, AList.lookup_erase_ne hk]

/-- Filtering rows by their key. -/
lemma dlookup_filter (p : κ → Prop) [DecidablePred p] (rows : List (Σ _ : κ, ν)) :
    (rows.filter fun row => p row.1).dlookup k = if p k then rows.dlookup k else none := by
  induction rows with
  | nil => simp
  | cons row rows ih =>
      by_cases hrow : p row.1
      · rw [List.filter_cons_of_pos (by simpa using hrow)]
        by_cases hk : k = row.1
        · subst hk
          rw [List.dlookup_cons_eq, List.dlookup_cons_eq, if_pos hrow]
        · rw [List.dlookup_cons_ne _ _ hk, List.dlookup_cons_ne _ _ hk, ih]
      · rw [List.filter_cons_of_neg (by simpa using hrow), ih]
        by_cases hk : k = row.1
        · subst hk
          rw [if_neg hrow, if_neg hrow]
        · rw [List.dlookup_cons_ne _ _ hk]

lemma mem_keys_iff : k ∈ m.keys ↔ (m.lookup k).isSome = true :=
  AList.mem_keys.symm.trans AList.lookup_isSome.symm

/-- A map has as many rows as keys. -/
lemma length_keys_eq_card {keys : Finset κ} (h : ∀ k, (m.lookup k).isSome = true ↔ k ∈ keys) :
    m.keys.length = keys.card := by
  have hkeys : m.keys.toFinset = keys := by
    ext k
    rw [List.mem_toFinset, mem_keys_iff, h]
  rw [← hkeys, List.toFinset_card_of_nodup m.keys_nodup]

end BulkMap

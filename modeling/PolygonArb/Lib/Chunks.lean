import Mathlib.Data.List.Range
import Mathlib.Data.List.Sort
import Mathlib.Tactic.Common

/-!
# A table in chunks

`count` rows in chunks of `size`, the last one shorter.  Results that come in by chunk number in any order
are put in order by a sort on the number (`mergeSort_indexed`); the row `i` of the table is then the row
`i % size` of the chunk `i / size` (`getElem?_flatMap_chunks`).
-/

namespace Chunks

variable {α β ε : Type*}

/-- The number of chunks, rounded up. -/
def chunkCount (count size : ℕ) : ℕ := (count + size - 1) / size

lemma div_lt_chunkCount {count size i : ℕ} (hi : i < count) (hsize : 0 < size) :
    i / size < chunkCount count size := by
  have hquot := Nat.div_mul_le_self i size
  rw [chunkCount, Nat.lt_iff_add_one_le, Nat.le_div_iff_mul_le hsize]
  rw [Nat.add_mul]
  omega

lemma mul_lt_of_lt_chunkCount {count size c : ℕ} (hc : c < chunkCount count size) (hsize : 0 < size) :
    c * size < count := by
  rw [chunkCount, Nat.lt_iff_add_one_le, Nat.le_div_iff_mul_le hsize, Nat.add_mul] at hc
  omega

/-- A list of fallible results that are all there. -/
lemma mapM_ok {f : α → Except ε β} {xs : List α} {ys : List β} (h : xs.mapM f = .ok ys) :
    List.Forall₂ (fun x y => f x = .ok y) xs ys := by
  induction xs generalizing ys with
  | nil =>
      cases h
      exact .nil
  | cons x xs ih =>
      rw [List.mapM_cons] at h
      cases hx : f x with
      | error e =>
          rw [hx] at h
          cases h
      | ok y =>
          rw [hx] at h
          cases hxs : xs.mapM f with
          | error e =>
              rw [hxs] at h
              cases h
          | ok zs =>
              rw [hxs] at h
              cases h
              exact .cons hx (ih hxs)

lemma mapM_ok_mem {f : α → Except ε β} {xs : List α} {ys : List β} {x : α} (h : xs.mapM f = .ok ys)
    (hx : x ∈ xs) : ∃ y, f x = .ok y := by
  have hrows := mapM_ok h
  clear h
  induction hrows with
  | nil => cases hx
  | cons hrow _ ih =>
      rcases List.mem_cons.mp hx with rfl | hrest
      · exact ⟨_, hrow⟩
      · exact ih hrest

/-- An error among fallible results is the error of one of them. -/
lemma mapM_error {f : α → Except ε β} {xs : List α} {e : ε} (h : xs.mapM f = .error e) :
    ∃ x ∈ xs, f x = .error e := by
  induction xs with
  | nil => cases h
  | cons x xs ih =>
      rw [List.mapM_cons] at h
      cases hx : f x with
      | error e' =>
          rw [hx] at h
          cases h
          exact ⟨x, List.mem_cons_self, hx⟩
      | ok y =>
          rw [hx] at h
          cases hxs : xs.mapM f with
          | error e' =>
              rw [hxs] at h
              cases h
              rcases ih hxs with ⟨z, hz, hfz⟩
              exact ⟨z, List.mem_cons_of_mem _ hz, hfz⟩
          | ok zs =>
              rw [hxs] at h
              cases h

lemma mapM_congr {f g : α → Except ε β} {xs : List α} (h : ∀ x ∈ xs, f x = g x) : xs.mapM f = xs.mapM g := by
  induction xs with
  | nil => rfl
  | cons x xs ih =>
      rw [List.forall_mem_cons] at h
      rw [List.mapM_cons, List.mapM_cons, h.1, ih h.2]

/-- Numbered results, sorted by their numbers. -/
lemma mergeSort_indexed {order : List ℕ} {n : ℕ} (horder : order.Perm (List.range n)) (g : ℕ → α) :
    (order.map fun c => (c, g c)).mergeSort (fun a b => decide (a.1 ≤ b.1)) =
      (List.range n).map fun c => (c, g c) := by
  have hsorted : ((order.map fun c => (c, g c)).mergeSort
      fun a b => decide (a.1 ≤ b.1)).Pairwise fun a b => decide (a.1 ≤ b.1) = true := by
    refine List.pairwise_mergeSort ?_ ?_ _
    · intro a b c hab hbc
      simp only [decide_eq_true_eq] at hab hbc ⊢
      exact hab.trans hbc
    · intro a b
      simpa using Nat.le_total a.1 b.1
  have hperm := List.mergeSort_perm (order.map fun c => (c, g c)) fun a b => decide (a.1 ≤ b.1)
  have hform : ∀ row ∈ (order.map fun c => (c, g c)).mergeSort fun a b => decide (a.1 ≤ b.1),
      row = (row.1, g row.1) := by
    intro row hrow
    rcases List.mem_map.mp (hperm.mem_iff.mp hrow) with ⟨c, -, rfl⟩
    rfl
  have hkeys : ((order.map fun c => (c, g c)).mergeSort
      fun a b => decide (a.1 ≤ b.1)).map Prod.fst = List.range n := by
    refine List.Perm.eq_of_pairwise' (r := (· ≤ ·)) ?_ List.pairwise_le_range ?_
    · exact List.pairwise_map.mpr (hsorted.imp fun h => of_decide_eq_true h)
    · have hfst := hperm.map Prod.fst
      rw [List.map_map] at hfst
      have hid : (order.map (Prod.fst ∘ fun c => (c, g c))) = order := List.map_id order
      rw [hid] at hfst
      exact hfst.trans horder
  rw [← hkeys, List.map_map]
  conv_lhs => rw [← List.map_id ((order.map fun c => (c, g c)).mergeSort _)]
  exact List.map_congr_left hform

/-- Rows of full chunks. -/
lemma length_flatMap_full {g : ℕ → List α} {size : ℕ} : ∀ n : ℕ, (∀ c < n, (g c).length = size) →
    ((List.range n).flatMap g).length = n * size
  | 0, _ => by simp
  | n + 1, hfull => by
      rw [List.range_succ, List.flatMap_append, List.length_append,
        length_flatMap_full n fun c hc => hfull c (Nat.lt_succ_of_lt hc), List.flatMap_cons,
        List.flatMap_nil, List.append_nil, hfull n (Nat.lt_succ_self n), Nat.add_mul, Nat.one_mul]

lemma length_flatMap_chunks {g : ℕ → List α} {size n : ℕ} (hfull : ∀ c < n, (g c).length = size) :
    ((List.range (n + 1)).flatMap g).length = n * size + (g n).length := by
  rw [List.range_succ, List.flatMap_append, List.length_append, length_flatMap_full n hfull,
    List.flatMap_cons, List.flatMap_nil, List.append_nil]

/-- A row of the whole is a row of its chunk. -/
lemma getElem?_flatMap_chunks {g : ℕ → List α} {size i : ℕ} (hsize : 0 < size) :
    ∀ n : ℕ, (∀ c < n, c + 1 < n → (g c).length = size) → (∀ c < n, (g c).length ≤ size) → i / size < n →
      ((List.range n).flatMap g)[i]? = (g (i / size))[i % size]?
  | 0, _, _, hi => absurd hi (Nat.not_lt_zero _)
  | n + 1, hfull, hle, hi => by
      have hlen : ((List.range n).flatMap g).length = n * size :=
        length_flatMap_full n fun c hc => hfull c (by omega) (by omega)
      rw [List.range_succ, List.flatMap_append, List.flatMap_cons, List.flatMap_nil, List.append_nil]
      rcases Nat.lt_or_ge (i / size) n with hbefore | hlast
      · have hin : i < n * size := (Nat.div_lt_iff_lt_mul hsize).mp hbefore
        rw [List.getElem?_append_left (by rw [hlen]; exact hin)]
        refine getElem?_flatMap_chunks hsize n ?_ ?_ hbefore
        · exact fun c hc _ => hfull c (by omega) (by omega)
        · exact fun c hc => hle c (by omega)
      · have hn : i / size = n := by omega
        have hin : n * size ≤ i := hn ▸ Nat.div_mul_le_self i size
        have hrest : i - n * size = i % size := by
          have hdiv := Nat.div_add_mod i size
          rw [hn, Nat.mul_comm] at hdiv
          omega
        rw [List.getElem?_append_right (by rw [hlen]; exact hin), hlen, hrest, hn]

end Chunks

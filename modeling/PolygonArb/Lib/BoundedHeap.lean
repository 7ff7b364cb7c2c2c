import Mathlib.Data.List.Sort
import Mathlib.Order.Nat
import Mathlib.Tactic.Common

/-!
# A bounded heap

Rows are offered one by one to a heap that keeps the `limit` smallest; a full heap gives up its largest
element for a smaller one.  The heap is the sorted list of its elements, and of rows with one key it is open
which are kept.

What is dropped is not smaller than what is kept (`Kept`), so a key is kept if and only if fewer than `limit`
rows have a smaller one (`Kept.mem_iff`).
-/

namespace BoundedHeap

variable {α κ : Type*} [LinearOrder κ] (key : α → κ)

def push (a : α) (heap : List α) : List α := heap.orderedInsert (fun a b => key a ≤ key b) a

def offer (limit : ℕ) (heap : List α) (a : α) : List α :=
  if heap.length < limit then push key a heap
  else
    match heap.getLast? with
    | some worst => if key a < key worst then push key a heap.dropLast else heap
    | none => heap

/-- One more row by sorting all and cutting the rest off. -/
def sortedPush (limit : ℕ) (heap : List α) (a : α) : List α :=
  ((heap ++ [a]).mergeSort fun a b => decide (key a ≤ key b)).take limit

/-- The first rows of all by their keys, sorted and cut off. -/
def firstBy (limit : ℕ) (rows : List α) : List α := (rows.insertionSort fun a b => key a ≤ key b).take limit

/-- The heap after all rows. -/
def heapOf (limit : ℕ) (rows : List α) : List α := rows.foldl (offer key limit) []

/-- The heap is sorted, and the rows it dropped are not smaller than the ones in it. -/
structure Kept (limit : ℕ) (rows heap : List α) : Prop where
  sorted : heap.Pairwise fun a b => key a ≤ key b
  length : heap.length ≤ limit
  dropped : ∃ rest, (heap ++ rest).Perm rows ∧ (∀ x ∈ heap, ∀ y ∈ rest, key x ≤ key y) ∧
    (rest ≠ [] → heap.length = limit)

variable {key} {limit : ℕ} {rows heap : List α} {a : α}

lemma push_perm (a : α) (heap : List α) : (push key a heap).Perm (a :: heap) :=
  List.perm_orderedInsert ..

lemma sorted_push (h : heap.Pairwise fun a b => key a ≤ key b) :
    (push key a heap).Pairwise fun a b => key a ≤ key b := by
  have htrans : IsTrans α fun a b => key a ≤ key b := ⟨fun _ _ _ => le_trans⟩
  have htotal : Std.Total fun a b : α => key a ≤ key b := ⟨fun _ _ => le_total _ _⟩
  exact h.orderedInsert a heap

lemma Kept.offer (h : Kept key limit rows heap) : Kept key limit (rows ++ [a]) (offer key limit heap a) := by
  rcases h with ⟨hsorted, hlength, rest, hperm, hle, hfull⟩
  have hall : (heap ++ a :: rest).Perm (rows ++ [a]) := by
    refine List.perm_middle.trans ?_
    exact ((hperm.cons a).trans (List.perm_append_singleton a rows).symm)
  rw [BoundedHeap.offer]
  split_ifs with hroom
  · -- nothing was dropped before the heap was full
    obtain rfl : rest = [] := by
      by_contra hne
      exact absurd (hfull hne) hroom.ne
    refine ⟨sorted_push hsorted, ?_, [], ?_, ?_, fun hne => absurd rfl hne⟩
    · rw [(push_perm a heap).length_eq, List.length_cons]
      exact hroom
    · rw [List.append_nil]
      exact (push_perm a heap).trans ((List.perm_append_singleton a heap).symm.trans hall)
    · simp
  have hlimit : heap.length = limit := le_antisymm hlength (not_lt.mp hroom)
  rcases List.eq_nil_or_concat heap with rfl | ⟨best, worst, rfl⟩
  · exact ⟨List.Pairwise.nil, hlength, a :: rest, hall, by simp, fun _ => hlimit⟩
  rw [List.concat_eq_append] at *
  have hworst : ∀ x ∈ best, key x ≤ key worst := by
    intro x hx
    exact (List.pairwise_append.mp hsorted).2.2 x hx worst (List.mem_singleton_self _)
  rw [List.getLast?_concat, List.dropLast_concat]
  dsimp only
  split_ifs with hbetter
  · refine ⟨sorted_push (List.pairwise_append.mp hsorted).1, ?_, worst :: rest, ?_, ?_, fun _ => ?_⟩
    · rw [(push_perm a best).length_eq, List.length_cons]
      rwa [List.length_append, List.length_singleton] at hlength
    · refine ((push_perm a best).append_right _).trans (List.Perm.trans ?_ hall)
      have hmiddle := (@List.perm_middle _ a (best ++ [worst]) rest).symm
      rwa [List.append_assoc, List.singleton_append] at hmiddle
    · have hlast : ∀ y ∈ worst :: rest, key worst ≤ key y := by
        refine List.forall_mem_cons.mpr ⟨le_rfl, fun y hy => ?_⟩
        exact hle worst (List.mem_append_right _ (List.mem_singleton_self _)) y hy
      intro x hx y hy
      rcases List.mem_cons.mp ((push_perm a best).mem_iff.mp hx) with rfl | hbest
      · exact hbetter.le.trans (hlast y hy)
      · exact (hworst x hbest).trans (hlast y hy)
    · rw [(push_perm a best).length_eq, List.length_cons]
      rwa [List.length_append, List.length_singleton] at hlimit
  · refine ⟨hsorted, hlength, a :: rest, hall, ?_, fun _ => hlimit⟩
    intro x hx y hy
    rcases List.mem_cons.mp hy with rfl | hrest
    · have hlast : key x ≤ key worst := by
        rcases List.mem_append.mp hx with hbest | hlast
        · exact hworst x hbest
        · rw [List.mem_singleton.mp hlast]
      exact hlast.trans (not_lt.mp hbetter)
    · exact hle x hx y hrest

/-- A step that keeps the heap good for one more row gives a good heap for all rows. -/
lemma kept_foldl {step : List α → α → List α}
    (hstep : ∀ done heap a, Kept key limit done heap → Kept key limit (done ++ [a]) (step heap a)) (rows : List α) :
    Kept key limit rows (rows.foldl step []) := by
  have hrun : ∀ (rest done heap : List α), Kept key limit done heap →
      Kept key limit (done ++ rest) (rest.foldl step heap) := by
    intro rest
    induction rest with
    | nil =>
        intro done heap h
        rwa [List.append_nil]
    | cons a rest ih =>
        intro done heap h
        have hnext := ih (done ++ [a]) _ (hstep done heap a h)
        rwa [List.append_assoc] at hnext
  refine hrun rows [] [] ⟨List.Pairwise.nil, Nat.zero_le _, [], .refl _, ?_, ?_⟩
  · simp
  · simp

theorem kept_firstBy (limit : ℕ) (rows : List α) : Kept key limit rows (firstBy key limit rows) := by
  have htrans : IsTrans α fun a b => key a ≤ key b := ⟨fun _ _ _ => le_trans⟩
  have htotal : Std.Total fun a b : α => key a ≤ key b := ⟨fun _ _ => le_total _ _⟩
  set sorted := rows.insertionSort fun a b => key a ≤ key b with hsorted
  have hpair : sorted.Pairwise fun a b => key a ≤ key b := List.pairwise_insertionSort _ rows
  have hsplit : sorted.take limit ++ sorted.drop limit = sorted := List.take_append_drop limit sorted
  refine ⟨hpair.sublist (List.take_sublist _ _), List.length_take_le _ _, sorted.drop limit, ?_, ?_, ?_⟩
  · show (sorted.take limit ++ sorted.drop limit).Perm rows
    rw [hsplit]
    exact List.perm_insertionSort _ rows
  · rw [← hsplit, List.pairwise_append] at hpair
    exact hpair.2.2
  · intro hne
    have hlong : limit < sorted.length := by simpa using hne
    show (sorted.take limit).length = limit
    rw [List.length_take]
    omega

theorem kept_heapOf (limit : ℕ) (rows : List α) : Kept key limit rows (heapOf key limit rows) :=
  kept_foldl (fun _ _ _ h => h.offer) rows

lemma Kept.length_eq (h : Kept key limit rows heap) : heap.length = min limit rows.length := by
  rcases h with ⟨-, hlength, rest, hperm, -, hfull⟩
  rw [← hperm.length_eq, List.length_append]
  rcases List.eq_nil_or_concat rest with rfl | ⟨_, _, rfl⟩
  · rw [List.length_nil, Nat.add_zero, Nat.min_eq_right hlength]
  · rw [hfull (by simp), Nat.min_eq_left (Nat.le_add_right _ _)]

/-- What is offered is kept, or dropped because it is not smaller than anything kept. -/
lemma Kept.mem_or_le (h : Kept key limit rows heap) (ha : a ∈ rows) :
    a ∈ heap ∨ heap.length = limit ∧ ∀ x ∈ heap, key x ≤ key a := by
  rcases h with ⟨-, -, rest, hperm, hle, hfull⟩
  rcases List.mem_append.mp (hperm.mem_iff.mpr ha) with hheap | hrest
  · exact .inl hheap
  · exact .inr ⟨hfull (List.ne_nil_of_mem hrest), fun x hx => hle x hx a hrest⟩

lemma Kept.subset (h : Kept key limit rows heap) : heap ⊆ rows := by
  rcases h with ⟨-, -, rest, hperm, -, -⟩
  intro x hx
  exact hperm.mem_iff.mp (List.mem_append_left rest hx)

lemma Kept.sortedPush (h : Kept key limit rows heap) :
    Kept key limit (rows ++ [a]) (sortedPush key limit heap a) := by
  rcases h with ⟨-, hlength, rest, hperm, hle, hfull⟩
  set sorted := (heap ++ [a]).mergeSort fun a b => decide (key a ≤ key b) with hsorted
  have hpair : sorted.Pairwise fun a b => key a ≤ key b := by
    have hmerge : sorted.Pairwise fun a b => decide (key a ≤ key b) = true := by
      refine List.pairwise_mergeSort ?_ ?_ (heap ++ [a])
      · intro a b c hab hbc
        simpa using le_trans (of_decide_eq_true hab) (of_decide_eq_true hbc)
      · intro a b
        simpa using le_total (key a) (key b)
    exact hmerge.imp of_decide_eq_true
  have hmerge : sorted.Perm (heap ++ [a]) := List.mergeSort_perm _ _
  have hcount : sorted.length = heap.length + 1 := by simp [hmerge.length_eq]
  have hsplit : sorted.take limit ++ sorted.drop limit = sorted := List.take_append_drop limit sorted
  have hcut : ∀ x ∈ sorted.take limit, ∀ y ∈ sorted.drop limit, key x ≤ key y := by
    rw [← hsplit, List.pairwise_append] at hpair
    exact hpair.2.2
  refine ⟨hpair.sublist (List.take_sublist _ _), List.length_take_le _ _, sorted.drop limit ++ rest, ?_, ?_, ?_⟩
  · show (sorted.take limit ++ (sorted.drop limit ++ rest)).Perm (rows ++ [a])
    rw [← List.append_assoc, hsplit]
    refine (hmerge.append_right rest).trans ?_
    rw [List.append_assoc]
    have hswap : ([a] ++ rest).Perm (rest ++ [a]) := List.perm_append_comm
    refine (hswap.append_left heap).trans ?_
    rw [← List.append_assoc]
    exact hperm.append_right [a]
  · intro x hx y hy
    rcases List.mem_append.mp hy with hcutoff | hrest
    · exact hcut x hx y hcutoff
    have hfullNow := hfull (List.ne_nil_of_mem hrest)
    rcases List.mem_append.mp (hmerge.mem_iff.mp (List.take_subset _ _ hx)) with hheap | hnew
    · exact hle x hheap y hrest
    -- the new row is kept, so that something it does not exceed is cut off
    obtain rfl := List.mem_singleton.mp hnew
    obtain ⟨worst, hworst⟩ : ∃ worst, sorted.drop limit = [worst] := by
      refine List.length_eq_one_iff.mp ?_
      rw [List.length_drop]
      omega
    have hxworst := hcut x hx worst (by simp [hworst])
    have hmem : worst ∈ sorted := List.drop_subset limit sorted (by simp [hworst])
    rcases List.mem_append.mp (hmerge.mem_iff.mp hmem) with hheap | hnew'
    · exact hxworst.trans (hle worst hheap y hrest)
    · obtain rfl := List.mem_singleton.mp hnew'
      have hkept : (sorted.take limit).Perm heap := by
        have hperm' : (sorted.take limit ++ [worst]).Perm (heap ++ [worst]) := by
          have hwhole : sorted.take limit ++ [worst] = sorted := by
            rw [← hworst]
            exact hsplit
          rw [hwhole]
          exact hmerge
        exact (List.perm_append_right_iff _).mp hperm'
      exact hle worst (hkept.mem_iff.mp hx) y hrest
  · intro hne
    have hroom : limit ≤ heap.length := by
      by_contra hshort
      have hnone : rest = [] := by
        by_contra hrest
        exact hshort (hfull hrest).ge
      exact hne (by rw [hnone, List.append_nil, List.drop_eq_nil_of_le (by omega)])
    show (sorted.take limit).length = limit
    rw [List.length_take]
    omega

/-- A row's key is kept if and only if fewer than `limit` rows have a smaller one. -/
theorem Kept.mem_iff (h : Kept key limit rows heap) (ha : a ∈ rows) :
    (∃ x ∈ heap, key x = key a) ↔ rows.countP (fun x => decide (key x < key a)) < limit := by
  rcases h with ⟨hsorted, hlength, rest, hperm, hle, hfull⟩
  rw [← hperm.countP_eq, List.countP_append]
  constructor
  · rintro ⟨x, hx, hkey⟩
    have hrest : rest.countP (fun y => decide (key y < key a)) = 0 := by
      rw [List.countP_eq_zero]
      intro y hy
      simpa [← hkey] using hle x hx y hy
    have hheap : heap.countP (fun y => decide (key y < key a)) < heap.length := by
      refine lt_of_le_of_ne List.countP_le_length fun heq => ?_
      have hself := List.countP_eq_length.mp heq x hx
      rw [decide_eq_true_eq, hkey] at hself
      exact lt_irrefl _ hself
    omega
  · intro hcount
    by_contra hout
    have hmem : a ∈ rest := by
      rcases List.mem_append.mp (hperm.mem_iff.mpr ha) with hheap | hrest
      · exact absurd ⟨a, hheap, rfl⟩ hout
      · exact hrest
    have hall : heap.countP (fun y => decide (key y < key a)) = heap.length := by
      rw [List.countP_eq_length]
      intro y hy
      rw [decide_eq_true_eq]
      exact lt_of_le_of_ne (hle y hy a hmem) fun heq => hout ⟨y, hy, heq⟩
    have hlimit := hfull (List.ne_nil_of_mem hmem)
    omega

end BoundedHeap

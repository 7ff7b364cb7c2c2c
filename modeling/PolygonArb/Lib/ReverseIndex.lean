import Mathlib
import PolygonArb.Lib.Slots

/-!
# Rows and a reverse index of their entries

Entries are kept in rows and addressed by row and place.  A second table of rows lists, for every key,
the positions of the entries with that key.  `Exact` says that it lists each of them once and no other.

Appending an entry to a row keeps the index exact (`Exact.push`), and so does a renumbering of the rows
(`Exact.shift`).  When rows were rearranged or thinned the index is wrong for the keys in them.
`rebuild` lists a set of keys anew from the rows the index knows for them; what it needs is that the
index still knows every row a key is in (`Covers`), whatever it says about the places.
-/

namespace ReverseIndex

variable {α β : Type*}

/-- Row `i`; there is none past the end. -/
def row (rows : List (List β)) (i : ℕ) : List β := (rows[i]?).getD []

/-- Replace row `i`, with empty rows up to it. -/
def setRow (rows : List (List β)) (i : ℕ) (r : List β) : List (List β) := Slots.setSlot [] rows i r

/-- Ascending, without repetitions. -/
def sortDedup (xs : List ℕ) : List ℕ := xs.dedup.mergeSort fun a b => decide (a ≤ b)

/-- The positions in some rows of the entries with a key. -/
def scan (key : α → ℕ) (rows : List (List α)) (k : ℕ) (nodes : List ℕ) : List (ℕ × ℕ) :=
  nodes.flatMap fun i => ((row rows i).zipIdx.filter fun e => key e.1 = k).map fun e => (i, e.2)

/-- List some keys anew, from the rows the index has for any of them. -/
def rebuild (key : α → ℕ) (rows : List (List α)) (index : List (List (ℕ × ℕ))) (keys : List ℕ) :
    List (List (ℕ × ℕ)) :=
  let nodes := sortDedup ((keys.flatMap (row index)).map Prod.fst)
  (List.range (max index.length (keys.foldr (fun k n => max (k + 1) n) 0))).map fun k =>
    if k ∈ keys then scan key rows k nodes else row index k

/-- The index is right about a key. -/
structure ExactAt (key : α → ℕ) (rows : List (List α)) (index : List (List (ℕ × ℕ))) (k : ℕ) :
    Prop where
  nodup : (row index k).Nodup
  mem_iff : ∀ i j, (i, j) ∈ row index k ↔ ∃ a, (row rows i)[j]? = some a ∧ key a = k

def Exact (key : α → ℕ) (rows : List (List α)) (index : List (List (ℕ × ℕ))) : Prop :=
  ∀ k, ExactAt key rows index k

/-- The index knows every row a key is in. -/
def Covers (key : α → ℕ) (rows : List (List α)) (index : List (List (ℕ × ℕ))) (k : ℕ) : Prop :=
  ∀ i, ∀ a ∈ row rows i, key a = k → ∃ j, (i, j) ∈ row index k

/-! ## Rows -/

lemma row_of_length_le {rows : List (List β)} {i : ℕ} (h : rows.length ≤ i) : row rows i = [] := by
  rw [row, List.getElem?_eq_none h, Option.getD_none]

lemma row_eq_getD (rows : List (List β)) (i : ℕ) : row rows i = rows.getD i [] := by
  rw [row, List.getD_eq_getElem?_getD]

lemma row_setRow (rows : List (List β)) (i : ℕ) (r : List β) (i' : ℕ) :
    row (setRow rows i r) i' = if i' = i then r else row rows i' := by
  simp only [row_eq_getD, setRow, Slots.getD_setSlot]

lemma row_mapIdx {f : ℕ → List α → List β} (hf : ∀ i, f i [] = []) (rows : List (List α)) (i : ℕ) :
    row (rows.mapIdx f) i = f i (row rows i) := by
  rw [row, row, List.getElem?_mapIdx]
  cases rows[i]? with
  | none => exact (hf i).symm
  | some r => rfl

lemma forall₂_row {R : List α → List β → Prop} {rows : List (List α)} {rows' : List (List β)}
    (h : List.Forall₂ R rows rows') (hnil : R [] []) (i : ℕ) : R (row rows i) (row rows' i) := by
  by_cases hi : i < rows.length
  · have hi' : i < rows'.length := h.length_eq ▸ hi
    have hget := List.forall₂_iff_get.mp h |>.2 i hi hi'
    simpa [row, hi, hi'] using hget
  · have hi' : ¬ i < rows'.length := h.length_eq ▸ hi
    rw [row_of_length_le (not_lt.mp hi), row_of_length_le (not_lt.mp hi')]
    exact hnil

lemma mem_sortDedup {xs : List ℕ} {x : ℕ} : x ∈ sortDedup xs ↔ x ∈ xs := by
  rw [sortDedup, (List.mergeSort_perm _ _).mem_iff, List.mem_dedup]

lemma nodup_sortDedup (xs : List ℕ) : (sortDedup xs).Nodup :=
  (List.mergeSort_perm _ _).nodup_iff.mpr (List.nodup_dedup xs)

/-! ## Appending an entry -/

section Push

variable {key : α → ℕ} {rows : List (List α)} {index : List (List (ℕ × ℕ))}

/-- A new entry at the end of a row, listed under its key. -/
theorem Exact.push (h : Exact key rows index) (i : ℕ) (a : α) :
    Exact key (setRow rows i (row rows i ++ [a]))
      (setRow index (key a) (row index (key a) ++ [(i, (row rows i).length)])) := by
  have hentry : ∀ (i' j : ℕ) (b : α), (row (setRow rows i (row rows i ++ [a])) i')[j]? = some b ↔
      (row rows i')[j]? = some b ∨ (i' = i ∧ j = (row rows i).length ∧ b = a) := by
    intro i' j b
    rw [row_setRow]
    split_ifs with hi
    · subst hi
      rw [List.getElem?_append]
      split_ifs with hj
      · have hne : j ≠ (row rows i').length := by omega
        simp [hne]
      · rw [List.getElem?_eq_none (not_lt.mp hj)]
        by_cases hlast : j = (row rows i').length
        · simp [hlast, eq_comm]
        · have hpos : j - (row rows i').length ≠ 0 := by omega
          rw [List.getElem?_eq_none (Nat.pos_of_ne_zero hpos)]
          simp [hlast]
    · simp [hi]
  intro k
  have hold := h k
  by_cases hk : k = key a
  · subst hk
    have hnew : (i, (row rows i).length) ∉ row index (key a) := by
      intro hmem
      rcases (hold.mem_iff _ _).mp hmem with ⟨b, hb, -⟩
      rw [List.getElem?_eq_none le_rfl] at hb
      cases hb
    refine ⟨?_, fun i' j => ?_⟩
    · rw [row_setRow, if_pos rfl, List.nodup_append]
      refine ⟨hold.nodup, List.nodup_singleton _, ?_⟩
      rintro p hp q hq rfl
      rw [List.mem_singleton.mp hq] at hp
      exact hnew hp
    · rw [row_setRow, if_pos rfl, List.mem_append, hold.mem_iff, List.mem_singleton, Prod.mk.injEq]
      constructor
      · rintro (⟨b, hb, hkey⟩ | ⟨rfl, rfl⟩)
        · exact ⟨b, (hentry _ _ _).mpr (.inl hb), hkey⟩
        · exact ⟨a, (hentry _ _ _).mpr (.inr ⟨rfl, rfl, rfl⟩), rfl⟩
      · rintro ⟨b, hb, hkey⟩
        rcases (hentry _ _ _).mp hb with hb | ⟨rfl, rfl, rfl⟩
        · exact .inl ⟨b, hb, hkey⟩
        · exact .inr ⟨rfl, rfl⟩
  · refine ⟨?_, fun i' j => ?_⟩
    · rw [row_setRow, if_neg hk]
      exact hold.nodup
    · rw [row_setRow, if_neg hk, hold.mem_iff]
      constructor
      · rintro ⟨b, hb, hkey⟩
        exact ⟨b, (hentry _ _ _).mpr (.inl hb), hkey⟩
      · rintro ⟨b, hb, hkey⟩
        rcases (hentry _ _ _).mp hb with hb | ⟨rfl, rfl, rfl⟩
        · exact ⟨b, hb, hkey⟩
        · exact absurd hkey.symm hk

end Push

/-! ## Renumbering the rows -/

section Shift

variable {key : α → ℕ} {rows rows' : List (List α)} {index : List (List (ℕ × ℕ))} {f : ℕ → ℕ}

/-- Every row moves to its new number, with the keys of its entries. -/
theorem Exact.shift (h : Exact key rows index) (hf : Function.Injective f)
    (hmoved : ∀ i, (row rows' (f i)).map key = (row rows i).map key)
    (hnew : ∀ i', (∀ i, f i ≠ i') → row rows' i' = []) :
    Exact key rows' (index.map fun r => r.map fun p => (f p.1, p.2)) := by
  have hrow : ∀ k, row (index.map fun r => r.map fun p => (f p.1, p.2)) k =
      (row index k).map fun p => (f p.1, p.2) := by
    intro k
    rw [row, row, List.getElem?_map]
    cases index[k]? <;> rfl
  have hinj : Function.Injective fun p : ℕ × ℕ => (f p.1, p.2) := by
    rintro ⟨i, j⟩ ⟨i', j'⟩ heq
    simp only [Prod.mk.injEq] at heq
    rw [hf heq.1, heq.2]
  have hentry : ∀ i j k : ℕ, (∃ a, (row rows' (f i))[j]? = some a ∧ key a = k) ↔
      ∃ a, (row rows i)[j]? = some a ∧ key a = k := by
    intro i j k
    rw [← Option.map_eq_some_iff, ← Option.map_eq_some_iff, ← List.getElem?_map, ← List.getElem?_map,
      hmoved]
  intro k
  refine ⟨?_, fun i' j => ?_⟩
  · rw [hrow]
    exact (h k).nodup.map hinj
  · rw [hrow, List.mem_map]
    constructor
    · rintro ⟨⟨i, j'⟩, hmem, heq⟩
      cases heq
      exact (hentry i j' k).mpr (((h k).mem_iff i j').mp hmem)
    · rintro ⟨a, hget, hkey⟩
      by_cases hold : ∃ i, f i = i'
      · rcases hold with ⟨i, rfl⟩
        exact ⟨(i, j), ((h k).mem_iff i j).mpr ((hentry i j k).mp ⟨a, hget, hkey⟩), rfl⟩
      · rw [hnew i' fun i hi => hold ⟨i, hi⟩] at hget
        cases hget

end Shift

/-! ## Rebuilding -/

section Rebuild

variable {key : α → ℕ} {rows rows' : List (List α)} {index : List (List (ℕ × ℕ))} {keys : List ℕ}
  {k : ℕ}

lemma lt_foldr_max (h : k ∈ keys) : k < keys.foldr (fun k n => max (k + 1) n) 0 := by
  induction keys with
  | nil => cases h
  | cons k' keys ih =>
      rw [List.foldr_cons]
      rcases List.mem_cons.mp h with rfl | h
      · exact lt_of_lt_of_le (Nat.lt_succ_self _) (le_max_left _ _)
      · exact lt_of_lt_of_le (ih h) (le_max_right _ _)

lemma row_rebuild (rows : List (List α)) (index : List (List (ℕ × ℕ))) (keys : List ℕ) (k : ℕ) :
    row (rebuild key rows index keys) k =
      if k ∈ keys then scan key rows k (sortDedup ((keys.flatMap (row index)).map Prod.fst))
      else row index k := by
  by_cases hlt : k < max index.length (keys.foldr (fun k n => max (k + 1) n) 0)
  · simp only [row, rebuild, List.getElem?_map, List.getElem?_range hlt, Option.map_some,
      Option.getD_some]
  · have hkey : k ∉ keys := fun hmem => hlt (lt_max_of_lt_right (lt_foldr_max hmem))
    have hout : index.length ≤ k := not_lt.mp fun h => hlt (lt_max_of_lt_left h)
    rw [if_neg hkey, row_of_length_le hout, row_of_length_le]
    rw [rebuild, List.length_map, List.length_range]
    exact not_lt.mp hlt

lemma mem_scan {nodes : List ℕ} {i j : ℕ} :
    (i, j) ∈ scan key rows k nodes ↔ i ∈ nodes ∧ ∃ a, (row rows i)[j]? = some a ∧ key a = k := by
  simp only [scan, List.mem_flatMap, List.mem_map, List.mem_filter, decide_eq_true_eq, Prod.exists,
    Prod.mk.injEq]
  constructor
  · rintro ⟨i', hi', a, j', ⟨hmem, hkey⟩, rfl, rfl⟩
    exact ⟨hi', a, List.mk_mem_zipIdx_iff_getElem?.mp hmem, hkey⟩
  · rintro ⟨hi, a, hget, hkey⟩
    exact ⟨i, hi, a, j, ⟨List.mk_mem_zipIdx_iff_getElem?.mpr hget, hkey⟩, rfl, rfl⟩

lemma nodup_scan {nodes : List ℕ} (hnodes : nodes.Nodup) : (scan key rows k nodes).Nodup := by
  rw [scan, List.nodup_flatMap]
  refine ⟨fun i _ => List.Nodup.of_map Prod.snd ?_, hnodes.imp fun {i i'} hne => ?_⟩
  · rw [List.map_map]
    refine List.Nodup.sublist (List.filter_sublist.map _) ?_
    show ((row rows i).zipIdx.map Prod.snd).Nodup
    rw [List.zipIdx_map_snd]
    exact List.nodup_range'
  · rintro p hmem hmem'
    rcases List.mem_map.mp hmem with ⟨e, -, rfl⟩
    rcases List.mem_map.mp hmem' with ⟨e', -, heq⟩
    exact hne (congrArg Prod.fst heq).symm

/-- A key that is listed anew is right if the index knows its rows. -/
theorem exactAt_rebuild (hk : k ∈ keys) (hcovers : Covers key rows index k) :
    ExactAt key rows (rebuild key rows index keys) k := by
  refine ⟨?_, fun i j => ?_⟩
  · rw [row_rebuild, if_pos hk]
    exact nodup_scan (nodup_sortDedup _)
  · rw [row_rebuild, if_pos hk, mem_scan]
    refine ⟨And.right, fun h => ⟨?_, h⟩⟩
    rcases h with ⟨a, hget, hkey⟩
    rcases hcovers i a (List.mem_of_getElem? hget) hkey with ⟨j', hj'⟩
    exact mem_sortDedup.mpr (List.mem_map.mpr ⟨(i, j'), List.mem_flatMap.mpr ⟨k, hk, hj'⟩, rfl⟩)

/-- The other keys are as they were. -/
theorem ExactAt.rebuild (h : ExactAt key rows index k) (hk : k ∉ keys) :
    ExactAt key rows (rebuild key rows index keys) k := by
  refine ⟨?_, fun i j => ?_⟩
  · rw [row_rebuild, if_neg hk]
    exact h.nodup
  · rw [row_rebuild, if_neg hk]
    exact h.mem_iff i j

/-- A key is right after a rebuild if it was listed anew, or else right before. -/
theorem exactAt_rebuild_of (hcovers : Covers key rows index k)
    (hkeep : k ∉ keys → ExactAt key rows index k) : ExactAt key rows (rebuild key rows index keys) k := by
  by_cases hk : k ∈ keys
  · exact exactAt_rebuild hk hcovers
  · exact (hkeep hk).rebuild hk

theorem ExactAt.covers (h : ExactAt key rows index k) : Covers key rows index k := by
  intro i a ha hkey
  rcases List.mem_iff_getElem?.mp ha with ⟨j, hj⟩
  exact ⟨j, (h.mem_iff i j).mpr ⟨a, hj, hkey⟩⟩

/-- Rebuilding other keys does not lose the rows of a key. -/
theorem Covers.rebuild (h : Covers key rows index k) : Covers key rows (rebuild key rows index keys) k := by
  by_cases hk : k ∈ keys
  · exact (exactAt_rebuild hk h).covers
  · intro i a ha hkey
    rw [row_rebuild, if_neg hk]
    exact h i a ha hkey

/-- Rows that have no more keys than before are still known. -/
theorem Covers.mono (h : Covers key rows index k)
    (hsub : ∀ i, ∀ a ∈ row rows' i, key a = k → ∃ b ∈ row rows i, key b = k) :
    Covers key rows' index k := by
  intro i a ha hkey
  rcases hsub i a ha hkey with ⟨b, hb, hkey'⟩
  exact h i b hb hkey'

/-- The index only reads keys. -/
theorem ExactAt.congr (h : ExactAt key rows index k)
    (hrows : ∀ i, (∃ a ∈ row rows i, key a = k) ∨ (∃ a ∈ row rows' i, key a = k) →
      (row rows' i).map key = (row rows i).map key) :
    ExactAt key rows' index k := by
  refine ⟨h.nodup, fun i j => ?_⟩
  rw [h.mem_iff]
  have hlift : ∀ {r r' : List (List α)}, (row r' i).map key = (row r i).map key →
      (∃ a, (row r i)[j]? = some a ∧ key a = k) → ∃ a, (row r' i)[j]? = some a ∧ key a = k := by
    rintro r r' heq ⟨a, hget, hkey⟩
    have hmap : ((row r' i).map key)[j]? = some k := by
      rw [heq, List.getElem?_map, hget, Option.map_some, hkey]
    rw [List.getElem?_map] at hmap
    exact Option.map_eq_some_iff.mp hmap
  constructor
  · rintro ⟨a, hget, hkey⟩
    exact hlift (hrows i (.inl ⟨a, List.mem_of_getElem? hget, hkey⟩)) ⟨a, hget, hkey⟩
  · rintro ⟨a, hget, hkey⟩
    exact hlift (hrows i (.inr ⟨a, List.mem_of_getElem? hget, hkey⟩)).symm ⟨a, hget, hkey⟩

end Rebuild

/-! ## Counting through the index -/

section Count

variable {key : α → ℕ} {rows : List (List α)} {index : List (List (ℕ × ℕ))} {k : ℕ} {q : α → Bool}

lemma countP_scan (nodes : List ℕ) :
    (scan key rows k nodes).countP (fun p => ((row rows p.1)[p.2]?).any q) =
      (nodes.map fun i => (row rows i).countP fun a => decide (key a = k) && q a).sum := by
  rw [scan, List.countP_flatMap]
  refine congrArg List.sum (List.map_congr_left fun i _ => ?_)
  have hpoint : ∀ e ∈ (row rows i).zipIdx, ((row rows i)[e.2]?).any q = q e.1 := by
    rintro ⟨a, j⟩ he
    rw [List.mk_mem_zipIdx_iff_getElem?.mp he, Option.any_some]
  calc (((row rows i).zipIdx.filter fun e => key e.1 = k).map fun e => (i, e.2)).countP
        (fun p => ((row rows p.1)[p.2]?).any q)
      = (row rows i).zipIdx.countP fun e => ((row rows i)[e.2]?).any q && decide (key e.1 = k) := by
        rw [List.countP_map, List.countP_filter]
        rfl
    _ = (row rows i).zipIdx.countP fun e => decide (key e.1 = k) && q e.1 := by
        refine List.countP_congr fun e he => ?_
        rw [hpoint e he, Bool.and_comm]
    _ = (row rows i).countP fun a => decide (key a = k) && q a := by
        conv_rhs => rw [← List.zipIdx_map_fst 0 (row rows i), List.countP_map]
        rfl

lemma countP_flatten_eq_sum {n : ℕ} (h : rows.length ≤ n) :
    rows.flatten.countP q = ((List.range n).map fun i => (row rows i).countP q).sum := by
  have hrows : (List.range rows.length).map (fun i => (row rows i).countP q) =
      rows.map (List.countP q) := by
    refine List.ext_getElem (by simp) fun i hi _ => ?_
    have hlt : i < rows.length := by simpa using hi
    simp [row, hlt]
  have hpast : ((List.range (n - rows.length)).map
      fun i => (row rows (rows.length + i)).countP q).sum = 0 := by
    refine List.sum_eq_zero fun c hc => ?_
    rcases List.mem_map.mp hc with ⟨i, -, rfl⟩
    rw [row_of_length_le (Nat.le_add_right _ i), List.countP_nil]
  rw [List.countP_flatten, ← Nat.add_sub_cancel' h, List.range_add, List.map_append, List.sum_append,
    hrows, List.map_map]
  exact (Nat.add_eq_left.mpr hpast).symm

/-- The index of a key finds as many entries as the rows have. -/
theorem ExactAt.countP (h : ExactAt key rows index k) :
    (row index k).countP (fun p => ((row rows p.1)[p.2]?).any q) =
      rows.flatten.countP fun a => decide (key a = k) && q a := by
  have hperm : (row index k).Perm (scan key rows k (List.range rows.length)) := by
    refine (List.perm_ext_iff_of_nodup h.nodup (nodup_scan List.nodup_range)).mpr ?_
    rintro ⟨i, j⟩
    rw [h.mem_iff, mem_scan, List.mem_range]
    refine ⟨fun hentry => ⟨?_, hentry⟩, And.right⟩
    rcases hentry with ⟨a, hget, -⟩
    by_contra hout
    rw [row_of_length_le (not_lt.mp hout)] at hget
    cases hget
  rw [hperm.countP_eq, countP_scan, countP_flatten_eq_sum le_rfl]

end Count

end ReverseIndex

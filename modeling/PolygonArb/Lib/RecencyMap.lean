import Mathlib.Data.List.Basic
import Mathlib.Data.List.Induction
import Mathlib.Data.List.Nodup
import Mathlib.Logic.Function.Basic
import Mathlib.Order.Defs.LinearOrder
import Mathlib.Order.MinMax
import Mathlib.Tactic.Common

/-!
# A bounded map with a recency queue

A map of at most `cap` keys and a queue of its keys, oldest first.  Recording a value for a key that is
there blends it into the stored one and moves the key to the back; for a new key it makes room at the
front and starts over with the value.

The queue is determined by the recorded keys alone: it holds the last `cap` different ones in the order
of their last recording (`residents`).  A stored value lies between two values recorded for its key since
the key came in (`sinceInserted`), as far as the blend does (`tracks_recordAll`).
-/

structure RecencyMap (κ ν : Type*) where
  map : κ → Option ν
  order : List κ

namespace RecencyMap

variable {κ ν : Type*}

def empty : RecencyMap κ ν := ⟨fun _ => none, []⟩

variable [DecidableEq κ]

/-- Keys leave at the front until one more fits. -/
def makeRoom (cap : ℕ) : (κ → Option ν) → List κ → RecencyMap κ ν
  | map, [] => ⟨map, []⟩
  | map, old :: rest =>
      if cap ≤ (old :: rest).length then makeRoom cap (Function.update map old none) rest
      else ⟨map, old :: rest⟩

def touch (k : κ) (order : List κ) : List κ := if k ∈ order then order.erase k ++ [k] else order

def record (cap : ℕ) (blend : ν → ν → ν) (m : RecencyMap κ ν) (k : κ) (v : ν) : RecencyMap κ ν :=
  match m.map k with
  | some old => ⟨Function.update m.map k (some (blend old v)), touch k m.order⟩
  | none =>
      let kept := makeRoom cap m.map m.order
      ⟨Function.update kept.map k (some v), kept.order ++ [k]⟩

/-- The calls in order, from the empty map. -/
def recordAll (cap : ℕ) (blend : ν → ν → ν) (calls : List (κ × ν)) : RecencyMap κ ν :=
  calls.foldl (fun m call => m.record cap blend call.1 call.2) empty

/-! ## What a log of recordings determines

A log lists the recordings newest first. -/

/-- The keys of a log, most recent first, each once. -/
def recency : List κ → List κ
  | [] => []
  | k :: ks => k :: (recency ks).filter (· ≠ k)

/-- The last `cap` different keys, oldest first. -/
def residents (cap : ℕ) (ks : List κ) : List κ := ((recency ks).take cap).reverse

/-- The values of a key since it was last brought in. -/
def sinceInserted (cap : ℕ) : List (κ × ν) → κ → List ν
  | [], _ => []
  | (k, v) :: log, x =>
      if x = k then
        if k ∈ residents cap (log.map Prod.fst) then v :: sinceInserted cap log x else [v]
      else sinceInserted cap log x

section Recency

variable {cap n : ℕ} {k x : κ} {ks keys : List κ}

@[simp] lemma recency_nil : recency ([] : List κ) = [] := rfl

@[simp] lemma recency_cons : recency (k :: ks) = k :: (recency ks).filter (· ≠ k) := rfl

@[simp] lemma residents_nil : residents cap ([] : List κ) = [] := by simp [residents]

lemma nodup_recency (ks : List κ) : (recency ks).Nodup := by
  induction ks with
  | nil => simp
  | cons k ks ih => simp [ih.filter]

lemma nodup_residents (cap : ℕ) (ks : List κ) : (residents cap ks).Nodup :=
  List.nodup_reverse.mpr ((nodup_recency ks).sublist (List.take_sublist _ _))

lemma length_residents_le (cap : ℕ) (ks : List κ) : (residents cap ks).length ≤ cap := by
  simp [residents]

/-- Without a key among the first ones, one place less is left of them. -/
lemma filter_take_of_mem (hnodup : keys.Nodup) (hk : k ∈ keys.take (n + 1)) :
    (keys.take (n + 1)).filter (· ≠ k) = (keys.filter (· ≠ k)).take n := by
  induction keys generalizing n with
  | nil => simp
  | cons a keys ih =>
      rw [List.nodup_cons] at hnodup
      by_cases ha : a = k
      · subst ha
        have hrest : ∀ x ∈ keys, decide (x ≠ a) = true := by
          intro x hx
          simp only [decide_eq_true_eq]
          rintro rfl
          exact hnodup.1 hx
        simp only [List.take_succ_cons, List.filter_cons, ne_eq, not_true, decide_false,
          Bool.false_eq_true, if_false]
        rw [List.filter_eq_self.mpr hrest,
          List.filter_eq_self.mpr fun x hx => hrest x (List.mem_of_mem_take hx)]
      · have hmem : k ∈ keys.take n := by
          simpa [Ne.symm ha] using hk
        cases n with
        | zero => simp at hmem
        | succ n => simpa [ha] using ih hnodup.2 hmem

lemma take_filter_of_notMem (hk : k ∉ keys.take n) : (keys.filter (· ≠ k)).take n = keys.take n := by
  induction keys generalizing n with
  | nil => simp
  | cons a keys ih =>
      cases n with
      | zero => simp
      | succ n =>
          simp only [List.take_succ_cons, List.mem_cons, not_or] at hk
          simpa [Ne.symm hk.1] using ih hk.2

/-- One more recording puts its key last. -/
lemma residents_cons (n : ℕ) (k : κ) (ks : List κ) :
    residents (n + 1) (k :: ks) = (((recency ks).filter (· ≠ k)).take n).reverse ++ [k] := by
  simp [residents]

/-- A key that is there moves to the back. -/
lemma touch_residents (hk : k ∈ residents (n + 1) ks) :
    touch k (residents (n + 1) ks) = residents (n + 1) (k :: ks) := by
  have hmem : k ∈ (recency ks).take (n + 1) := List.mem_reverse.mp hk
  rw [touch, if_pos hk, residents_cons, (nodup_residents (n + 1) ks).erase_eq_filter, residents,
    List.filter_reverse, ← filter_take_of_mem (nodup_recency ks) hmem]
  simp [bne, Bool.beq_eq_decide_eq]

/-- A new key takes the place of the oldest once all places are taken. -/
lemma drop_residents (hk : k ∉ residents (n + 1) ks) :
    (residents (n + 1) ks).drop ((residents (n + 1) ks).length + 1 - (n + 1)) ++ [k] =
      residents (n + 1) (k :: ks) := by
  have hmem : k ∉ (recency ks).take (n + 1) := fun h => hk (List.mem_reverse.mpr h)
  have hshort : k ∉ (recency ks).take n :=
    fun h => hmem ((List.take_subset_take_left _ (Nat.le_succ n)) h)
  rw [residents_cons, take_filter_of_notMem hshort, residents, List.drop_reverse, List.take_take,
    List.length_reverse]
  refine congrArg (fun kept => List.reverse kept ++ [k]) ?_
  rw [List.length_take]
  rcases Nat.lt_or_ge (recency ks).length (n + 1) with hlt | hge
  · rw [List.take_of_length_le (by omega), List.take_of_length_le (by omega)]
  · congr 1
    omega

end Recency

/-! ## What a map holds -/

section Holds

variable {cap n : ℕ} {blend : ν → ν → ν} {m : RecencyMap κ ν} {log : List (κ × ν)} {k x : κ} {v : ν}

lemma order_makeRoom (cap : ℕ) (order : List κ) : ∀ map : κ → Option ν,
    (makeRoom cap map order).order = order.drop (order.length + 1 - cap) := by
  induction order with
  | nil =>
      intro map
      simp [makeRoom]
  | cons old rest ih =>
      intro map
      rw [makeRoom]
      split_ifs with hfull
      · have hlen : (old :: rest).length + 1 - cap = (rest.length + 1 - cap) + 1 := by
          rw [List.length_cons] at hfull ⊢
          omega
        rw [ih, hlen, List.drop_succ_cons]
      · have hlen : (old :: rest).length + 1 - cap = 0 := by omega
        rw [hlen, List.drop_zero]

lemma map_makeRoom (cap : ℕ) (order : List κ) : ∀ map : κ → Option ν,
    (makeRoom cap map order).map x =
      if x ∈ order.take (order.length + 1 - cap) then none else map x := by
  induction order with
  | nil =>
      intro map
      simp [makeRoom]
  | cons old rest ih =>
      intro map
      rw [makeRoom]
      split_ifs with hfull hmem hmem
      · have hlen : (old :: rest).length + 1 - cap = (rest.length + 1 - cap) + 1 := by
          rw [List.length_cons] at hfull ⊢
          omega
        rw [hlen, List.take_succ_cons, List.mem_cons] at hmem
        rw [ih]
        rcases hmem with rfl | hmem
        · simp
        · rw [if_pos hmem]
      · have hlen : (old :: rest).length + 1 - cap = (rest.length + 1 - cap) + 1 := by
          rw [List.length_cons] at hfull ⊢
          omega
        rw [hlen, List.take_succ_cons, List.mem_cons, not_or] at hmem
        rw [ih, if_neg hmem.2, Function.update_of_ne hmem.1]
      · have hlen : (old :: rest).length + 1 - cap = 0 := by omega
        rw [hlen, List.take_zero] at hmem
        cases hmem
      · rfl

variable [LinearOrder ν]

/-- Blending a value in stays between it and what was there. -/
def BlendsWithin (blend : ν → ν → ν) (v : ν) : Prop :=
  ∀ old, min old v ≤ blend old v ∧ blend old v ≤ max old v

/-- The map and the queue of a log. -/
structure Tracks (cap : ℕ) (m : RecencyMap κ ν) (log : List (κ × ν)) : Prop where
  order : m.order = residents cap (log.map Prod.fst)
  keys : ∀ k, (m.map k).isSome = true ↔ k ∈ m.order
  within : ∀ k v, m.map k = some v →
    (∃ lo ∈ sinceInserted cap log k, lo ≤ v) ∧ ∃ hi ∈ sinceInserted cap log k, v ≤ hi

lemma tracks_empty (cap : ℕ) : Tracks cap (empty : RecencyMap κ ν) [] where
  order := by simp [empty]
  keys k := by simp [empty]
  within k v h := by cases h

lemma Tracks.record_of_mem (h : Tracks (n + 1) m log) (hv : BlendsWithin blend v)
    (hk : k ∈ m.order) : Tracks (n + 1) (m.record (n + 1) blend k v) ((k, v) :: log) := by
  rcases Option.isSome_iff_exists.mp ((h.keys k).mpr hk) with ⟨old, hold⟩
  have horder : (m.record (n + 1) blend k v).order = touch k m.order := by rw [record, hold]
  have hmap : (m.record (n + 1) blend k v).map = Function.update m.map k (some (blend old v)) := by
    rw [record, hold]
  have hresident : k ∈ residents (n + 1) (log.map Prod.fst) := h.order ▸ hk
  refine ⟨?_, fun x => ?_, fun x w hw => ?_⟩
  · rw [horder, h.order, touch_residents hresident]
    rfl
  · rw [horder, hmap, touch, if_pos hk]
    by_cases hx : x = k
    · subst hx
      simp
    · rw [Function.update_of_ne hx, h.keys]
      simp [List.mem_erase_of_ne hx, hx]
  · rw [hmap] at hw
    by_cases hx : x = k
    · subst hx
      rw [Function.update_self, Option.some.injEq] at hw
      rcases h.within x old hold with ⟨⟨lo, hlo, hle⟩, hi, hhi, hge⟩
      have hblend := hv old
      rw [hw] at hblend
      rw [sinceInserted, if_pos rfl, if_pos hresident]
      constructor
      · rcases min_le_iff.mp hblend.1 with hmin | hmin
        · exact ⟨lo, List.mem_cons_of_mem _ hlo, hle.trans hmin⟩
        · exact ⟨v, List.mem_cons_self, hmin⟩
      · rcases le_max_iff.mp hblend.2 with hmax | hmax
        · exact ⟨hi, List.mem_cons_of_mem _ hhi, hmax.trans hge⟩
        · exact ⟨v, List.mem_cons_self, hmax⟩
    · rw [Function.update_of_ne hx] at hw
      rw [sinceInserted, if_neg hx]
      exact h.within x w hw

lemma Tracks.record_of_notMem (h : Tracks (n + 1) m log) (hk : k ∉ m.order) :
    Tracks (n + 1) (m.record (n + 1) blend k v) ((k, v) :: log) := by
  have hnone : m.map k = none := by
    rw [← Option.not_isSome_iff_eq_none, h.keys]
    exact hk
  have hresident : k ∉ residents (n + 1) (log.map Prod.fst) := h.order ▸ hk
  have hnodup : m.order.Nodup := h.order ▸ nodup_residents _ _
  have horder : (m.record (n + 1) blend k v).order =
      m.order.drop (m.order.length + 1 - (n + 1)) ++ [k] := by
    rw [record, hnone, ← order_makeRoom]
  have hmap : ∀ x ≠ k, (m.record (n + 1) blend k v).map x =
      if x ∈ m.order.take (m.order.length + 1 - (n + 1)) then none else m.map x := by
    intro x hx
    rw [record, hnone, ← map_makeRoom]
    exact Function.update_of_ne hx _ _
  have hself : (m.record (n + 1) blend k v).map k = some v := by
    rw [record, hnone]
    exact Function.update_self _ _ _
  refine ⟨?_, fun x => ?_, fun x w hw => ?_⟩
  · rw [horder, h.order, drop_residents hresident]
    rfl
  · rw [horder]
    by_cases hx : x = k
    · subst hx
      simp [hself]
    · rw [hmap x hx]
      have hsplit := List.take_append_drop (m.order.length + 1 - (n + 1)) m.order
      have hdisjoint := List.disjoint_of_nodup_append (hsplit.symm ▸ hnodup)
      have hmem : x ∈ m.order ↔ x ∈ m.order.take (m.order.length + 1 - (n + 1)) ∨
          x ∈ m.order.drop (m.order.length + 1 - (n + 1)) := by
        rw [← List.mem_append, hsplit]
      rw [List.mem_append, List.mem_singleton, or_iff_left hx]
      split_ifs with hdropped
      · exact iff_of_false (by simp) (hdisjoint hdropped)
      · rw [h.keys, hmem, or_iff_right hdropped]
  · by_cases hx : x = k
    · subst hx
      rw [hself, Option.some.injEq] at hw
      subst hw
      rw [sinceInserted, if_pos rfl, if_neg hresident]
      simp
    · rw [hmap x hx] at hw
      split_ifs at hw with hdropped
      rw [sinceInserted, if_neg hx]
      exact h.within x w hw

/-- After any calls the map holds what their log determines. -/
theorem tracks_recordAll (n : ℕ) {calls : List (κ × ν)}
    (hcalls : ∀ call ∈ calls, BlendsWithin blend call.2) :
    Tracks (n + 1) (recordAll (n + 1) blend calls) calls.reverse := by
  induction calls using List.reverseRecOn with
  | nil => exact tracks_empty _
  | append_singleton calls call ih =>
      have hbefore := ih fun c hc => hcalls c (List.mem_append_left _ hc)
      have hcall := hcalls call (by simp)
      rw [recordAll, List.foldl_append, List.reverse_append]
      by_cases hk : call.1 ∈ (recordAll (n + 1) blend calls).order
      · exact hbefore.record_of_mem hcall hk
      · exact hbefore.record_of_notMem hk

/-- A call sends away nothing but the oldest key. -/
lemma Tracks.head_of_lost (h : Tracks (n + 1) m log) (hx : x ∈ m.order)
    (hlost : x ∉ (m.record (n + 1) blend k v).order) : m.order.head? = some x := by
  cases hmap : m.map k with
  | some old =>
      rw [record, hmap] at hlost
      refine absurd ?_ hlost
      rw [touch]
      split_ifs
      · by_cases hxk : x = k
        · simp [hxk]
        · simp [List.mem_erase_of_ne hxk, hx]
      · exact hx
  | none =>
      have horder : (m.record (n + 1) blend k v).order =
          m.order.drop (m.order.length + 1 - (n + 1)) ++ [k] := by
        rw [record, hmap, ← order_makeRoom]
      rw [horder, List.mem_append, not_or] at hlost
      have hlen : m.order.length ≤ n + 1 := h.order ▸ length_residents_le _ _
      have hle : m.order.length + 1 - (n + 1) ≤ 1 := by omega
      cases hcut : m.order.length + 1 - (n + 1) with
      | zero =>
          rw [hcut, List.drop_zero] at hlost
          exact absurd hx hlost.1
      | succ j =>
          have hj : j = 0 := by omega
          cases horder : m.order with
          | nil =>
              rw [horder] at hx
              cases hx
          | cons oldest rest =>
              rw [hcut, hj, horder] at hlost
              rw [horder] at hx
              rcases List.mem_cons.mp hx with rfl | hrest
              · rfl
              · exact absurd hrest hlost.1

end Holds

end RecencyMap

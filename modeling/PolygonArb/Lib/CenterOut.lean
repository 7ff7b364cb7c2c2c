import Mathlib.Algebra.Order.Group.Int
import Mathlib.Algebra.Order.Group.Nat
import Mathlib.Data.List.Basic
import Mathlib.Tactic.Common

/-!
# From the centre outwards

The blocks of an ascending sequence of numbers are visited from the middle one outwards, the lower neighbour
before the upper one (`centerOut`), and the numbers visited are cut off after the first `budget`.

Between a centre in the middle block and a number that is kept no number is missing if and only if the cut
does not fall into a lower block, nor into the middle one below the centre (`noHole_iff`): a block is visited
upwards, so above the centre the numbers nearest to it come first, below it the ones farthest off.
-/

namespace CenterOut

/-- `mid`, then at each distance the lower and the upper place, where they exist. -/
def centerOut (count : ℕ) : List ℕ :=
  if count = 0 then []
  else
    count / 2 :: (List.range (max (count / 2) (count - (count / 2 + 1)))).flatMap fun k =>
      (if k + 1 ≤ count / 2 then [count / 2 - (k + 1)] else []) ++
        if count / 2 + (k + 1) < count then [count / 2 + (k + 1)] else []

/-- When a place is visited. -/
def visit (mid i : ℕ) : ℕ := if i < mid then 2 * (mid - i) - 1 else 2 * (i - mid)

lemma visit_inj {mid i j : ℕ} (h : visit mid i = visit mid j) : i = j := by
  rw [visit, visit] at h
  split_ifs at h <;> omega

lemma visit_le_of_le {mid i j : ℕ} (hij : i ≤ j) (hj : j ≤ mid) : visit mid j ≤ visit mid i := by
  rw [visit, visit]
  split_ifs <;> omega

lemma visit_le_of_ge {mid i j : ℕ} (hj : mid ≤ j) (hji : j ≤ i) : visit mid j ≤ visit mid i := by
  rw [visit, visit]
  split_ifs <;> omega

lemma mem_centerOut {count i : ℕ} : i ∈ centerOut count ↔ i < count := by
  rw [centerOut]
  split_ifs with hzero
  · simp [hzero]
  · rw [List.mem_cons, List.mem_flatMap]
    constructor
    · rintro (rfl | ⟨k, -, hk⟩)
      · omega
      · rcases List.mem_append.mp hk with hlow | hhigh
        · split_ifs at hlow with hin
          · rw [List.mem_singleton] at hlow
            omega
          · cases hlow
        · split_ifs at hhigh with hin
          · rw [List.mem_singleton] at hhigh
            omega
          · cases hhigh
    · intro hi
      rcases lt_trichotomy i (count / 2) with hlow | hmid | hhigh
      · refine Or.inr ⟨count / 2 - i - 1, List.mem_range.mpr (by omega), List.mem_append_left _ ?_⟩
        rw [if_pos (by omega), List.mem_singleton]
        omega
      · exact Or.inl hmid
      · refine Or.inr ⟨i - count / 2 - 1, List.mem_range.mpr (by omega), List.mem_append_right _ ?_⟩
        rw [if_pos (by omega), List.mem_singleton]
        omega

/-- The places stand in the order of their visits. -/
lemma sorted_centerOut (count : ℕ) :
    (centerOut count).Pairwise fun i j => visit (count / 2) i < visit (count / 2) j := by
  rw [centerOut]
  split_ifs with hzero
  · exact List.Pairwise.nil
  · have hring : ∀ k j, j ∈ (if k + 1 ≤ count / 2 then [count / 2 - (k + 1)] else []) ++
        (if count / 2 + (k + 1) < count then [count / 2 + (k + 1)] else []) →
        visit (count / 2) j = 2 * k + 1 ∨ visit (count / 2) j = 2 * k + 2 := by
      intro k j hj
      rw [visit]
      rcases List.mem_append.mp hj with hlow | hhigh
      · split_ifs at hlow with hin
        · rw [List.mem_singleton] at hlow
          rw [if_pos (by omega)]
          omega
        · cases hlow
      · split_ifs at hhigh with hin
        · rw [List.mem_singleton] at hhigh
          rw [if_neg (by omega)]
          omega
        · cases hhigh
    rw [List.pairwise_cons, List.pairwise_flatMap]
    refine ⟨?_, ?_, ?_⟩
    · intro j hj
      rcases List.mem_flatMap.mp hj with ⟨k, -, hk⟩
      have hmid : visit (count / 2) (count / 2) = 0 := by simp [visit]
      rcases hring k j hk with h | h <;> omega
    · intro k _
      split_ifs with hlow hhigh
      · rw [List.singleton_append, List.pairwise_pair, visit, visit, if_pos (by omega), if_neg (by omega)]
        omega
      · simp
      · simp
      · simp
    · refine List.pairwise_lt_range.imp ?_
      intro k k' hlt i hi j hj
      rcases hring k i hi with h | h <;> rcases hring k' j hj with h' | h' <;> omega

/-- Every place is visited once. -/
lemma perm_centerOut (count : ℕ) : (centerOut count).Perm (List.range count) := by
  have hnodup : (centerOut count).Nodup :=
    (sorted_centerOut count).imp fun {i j} hlt heq => by rw [heq] at hlt; exact lt_irrefl _ hlt
  refine (List.perm_ext_iff_of_nodup hnodup List.nodup_range).mpr fun i => ?_
  rw [mem_centerOut, List.mem_range]

/-! ## Ascending lists -/

section Ascending

variable {l : List ℤ} {k : ℕ} {m t cur : ℤ}

lemma take_countP (h : l.Pairwise (· < ·)) (cur : ℤ) :
    l.take (l.countP fun a => a ≤ cur) = l.filter fun a => a ≤ cur := by
  induction l with
  | nil => rfl
  | cons a l ih =>
      rw [List.pairwise_cons] at h
      rcases le_or_gt a cur with hle | hgt
      · rw [List.countP_cons_of_pos (by simpa using hle), List.take_succ_cons, ih h.2,
          List.filter_cons_of_pos (by simpa using hle)]
      · have hnone : l.filter (fun a => a ≤ cur) = [] := by
          refine List.filter_eq_nil_iff.mpr fun b hb => ?_
          have hab := h.1 b hb
          simp only [decide_eq_true_eq]
          omega
        rw [List.filter_cons_of_neg (by simpa using hgt), hnone, List.countP_eq_length_filter,
          List.filter_cons_of_neg (by simpa using hgt), hnone]
        rfl

lemma mem_take_of_le (h : l.Pairwise (· < ·)) (ht : t ∈ l.take k) (hm : m ∈ l) (hle : m ≤ t) :
    m ∈ l.take k := by
  rw [← List.take_append_drop k l] at h hm
  rcases List.mem_append.mp hm with hkept | hcut
  · exact hkept
  · have hlt := (List.pairwise_append.mp h).2.2 t ht m hcut
    omega

end Ascending

/-! ## The cut -/

section Cut

variable {block : ℕ → List ℤ} {order : List ℕ} {budget mid : ℕ} {cur : ℤ}

/-- Everything is kept, or the cut falls into one block. -/
lemma take_flatMap (block : ℕ → List ℤ) (order : List ℕ) (budget : ℕ) :
    (order.flatMap block).length ≤ budget ∨
      ∃ pre o post, order = pre ++ o :: post ∧ (pre.flatMap block).length ≤ budget ∧
        budget < (pre.flatMap block).length + (block o).length ∧
        (order.flatMap block).take budget =
          pre.flatMap block ++ (block o).take (budget - (pre.flatMap block).length) := by
  induction order generalizing budget with
  | nil => exact Or.inl (Nat.zero_le _)
  | cons i order ih =>
      rw [List.flatMap_cons]
      rcases Nat.lt_or_ge budget (block i).length with hhere | hpast
      · refine Or.inr ⟨[], i, order, rfl, Nat.zero_le _, ?_, ?_⟩
        · simpa using hhere
        · rw [List.take_append_of_le_length hhere.le]
          rfl
      · rcases ih (budget - (block i).length) with hall | ⟨pre, o, post, horder, hle, hlt, htake⟩
        · left
          rw [List.length_append]
          omega
        · refine Or.inr ⟨i :: pre, o, post, by rw [horder]; rfl, ?_, ?_, ?_⟩
          · rw [List.flatMap_cons, List.length_append]
            omega
          · rw [List.flatMap_cons, List.length_append]
            omega
          · rw [List.take_append, List.take_of_length_le hpast, htake, List.flatMap_cons,
              List.length_append, List.append_assoc, Nat.sub_sub]

/-- The blocks ascend, and the centre is in the middle one. -/
structure Ordered (block : ℕ → List ℤ) (mid : ℕ) (cur : ℤ) : Prop where
  ascending : ∀ i, (block i).Pairwise (· < ·)
  apart : ∀ i j, i < j → ∀ a ∈ block i, ∀ b ∈ block j, a < b
  below : ∀ i < mid, ∀ a ∈ block i, a < cur
  above : ∀ i, mid < i → ∀ a ∈ block i, cur < a

/-- Between the centre and a number that is kept, all are kept. -/
def NoHole (cur : ℤ) (all kept : List ℤ) : Prop :=
  ∀ t ∈ kept, ∀ m ∈ all, (t ≤ m ∧ m ≤ cur) ∨ (cur ≤ m ∧ m ≤ t) → m ∈ kept

/-- How many numbers are visited ahead of a block. -/
def before (block : ℕ → List ℤ) (mid : ℕ) (order : List ℕ) (o : ℕ) : ℕ :=
  ((order.filter fun i => visit mid i < visit mid o).flatMap block).length

lemma before_eq {pre post : List ℕ} {o : ℕ}
    (h : (pre ++ o :: post).Pairwise fun i j => visit mid i < visit mid j) :
    before block mid (pre ++ o :: post) o = (pre.flatMap block).length := by
  rw [List.pairwise_append, List.pairwise_cons] at h
  rcases h with ⟨-, ⟨hpost, -⟩, hpre⟩
  have hkeep : pre.filter (fun i => visit mid i < visit mid o) = pre :=
    List.filter_eq_self.mpr fun i hi => by simpa using hpre i hi o List.mem_cons_self
  have hdrop : post.filter (fun i => visit mid i < visit mid o) = [] :=
    List.filter_eq_nil_iff.mpr fun i hi => by simpa using (hpost i hi).le
  rw [before, List.filter_append, hkeep, List.filter_cons_of_neg (by simp), hdrop, List.append_nil]

/-- Where the cut falls decides alone: only the block it falls into can be torn at or below the centre. -/
lemma torn_iff {pre post : List ℕ} {o : ℕ}
    (h : (pre ++ o :: post).Pairwise fun i j => visit mid i < visit mid j)
    (hle : (pre.flatMap block).length ≤ budget)
    (hlt : budget < (pre.flatMap block).length + (block o).length) :
    (∀ i ∈ pre ++ o :: post, ¬(before block mid (pre ++ o :: post) i < budget ∧
        budget < before block mid (pre ++ o :: post) i + (block i).countP fun a => a ≤ cur)) ↔
      ¬((pre.flatMap block).length < budget ∧
        budget < (pre.flatMap block).length + (block o).countP fun a => a ≤ cur) := by
  constructor
  · intro hall
    have ho := hall o (List.mem_append_right _ List.mem_cons_self)
    rwa [before_eq h] at ho
  · intro ho i hi
    have hcount : (block i).countP (fun a => a ≤ cur) ≤ (block i).length := List.countP_le_length
    rcases List.mem_append.mp hi with hpre | hrest
    · obtain ⟨a, b, rfl⟩ := List.append_of_mem hpre
      have hsplit : (a ++ i :: b) ++ o :: post = a ++ i :: (b ++ o :: post) := by simp
      rw [hsplit] at h ⊢
      rw [before_eq h]
      simp only [List.flatMap_append, List.flatMap_cons, List.length_append] at hle
      omega
    · rcases List.mem_cons.mp hrest with rfl | hpost
      · rwa [before_eq h]
      · obtain ⟨a, b, rfl⟩ := List.append_of_mem hpost
        have hsplit : pre ++ o :: (a ++ i :: b) = (pre ++ o :: a) ++ i :: b := by simp
        rw [hsplit] at h ⊢
        rw [before_eq h]
        simp only [List.flatMap_append, List.flatMap_cons, List.length_append]
        omega

/-- A number towards the centre is in a block visited no later. -/
lemma visit_le_of_between (h : Ordered block mid cur) {i j : ℕ} {t m : ℤ} (ht : t ∈ block i)
    (hm : m ∈ block j) (hbetween : (t ≤ m ∧ m ≤ cur) ∨ (cur ≤ m ∧ m ≤ t)) :
    visit mid j ≤ visit mid i := by
  rcases hbetween with ⟨htm, hcur⟩ | ⟨hcur, hmt⟩
  · have hij : i ≤ j := by
      by_contra hlt
      have := h.apart j i (by omega) m hm t ht
      omega
    have hj : j ≤ mid := by
      by_contra hlt
      have := h.above j (by omega) m hm
      omega
    exact visit_le_of_le hij hj
  · have hji : j ≤ i := by
      by_contra hlt
      have := h.apart i j (by omega) t ht m hm
      omega
    have hj : mid ≤ j := by
      by_contra hlt
      have := h.below j (by omega) m hm
      omega
    exact visit_le_of_ge hj hji

/-- Of a block that is torn at or below the centre the first number is kept and a later one is not. -/
lemma hole_of_torn (h : Ordered block mid cur) {pre : List ℕ} {o : ℕ}
    (hpre : ∀ i ∈ pre, visit mid i < visit mid o) (hstart : (pre.flatMap block).length < budget)
    (hcut : budget < (pre.flatMap block).length + (block o).countP fun a => a ≤ cur) :
    ∃ t ∈ (block o).take (budget - (pre.flatMap block).length), ∃ m ∈ block o, t ≤ m ∧ m ≤ cur ∧
      m ∉ pre.flatMap block ++ (block o).take (budget - (pre.flatMap block).length) := by
  have hbound : (block o).countP (fun a => a ≤ cur) ≤ (block o).length := List.countP_le_length
  have hzero : 0 < (block o).length := by omega
  have hk : budget - (pre.flatMap block).length < (block o).length := by omega
  have hat : (block o)[budget - (pre.flatMap block).length] ≤ cur := by
    have hmem : (block o)[budget - (pre.flatMap block).length] ∈
        (block o).take ((block o).countP fun a => a ≤ cur) :=
      List.mem_take_iff_getElem.mpr ⟨_, by omega, rfl⟩
    rw [take_countP (h.ascending o) cur] at hmem
    simpa using (List.mem_filter.mp hmem).2
  have hasc := List.pairwise_iff_getElem.mp (h.ascending o)
  have hup := hasc 0 (budget - (pre.flatMap block).length) hzero hk (by omega)
  refine ⟨(block o)[0], List.mem_take_iff_getElem.mpr ⟨0, by omega, rfl⟩, _, List.getElem_mem hk, hup.le, hat, ?_⟩
  intro hkept
  rcases List.mem_append.mp hkept with hearlier | htaken
  · rcases List.mem_flatMap.mp hearlier with ⟨i, hi, hmem⟩
    have hvisit := hpre i hi
    rcases lt_trichotomy i o with hio | rfl | hoi
    · have := h.apart i o hio _ hmem _ (List.getElem_mem hk)
      omega
    · omega
    · have := h.apart o i hoi _ (List.getElem_mem hk) _ hmem
      omega
  · rcases List.mem_take_iff_getElem.mp htaken with ⟨k, hklt, hkeq⟩
    have := hasc k _ (by omega) hk (by omega)
    omega

/-- If the block the cut falls into is not torn there, what is between the centre and a number kept is in a block
ahead of the cut, or in that block ahead of it. -/
lemma noHole_of_not_torn (h : Ordered block mid cur) {pre post : List ℕ} {o : ℕ}
    (horder : (pre ++ o :: post).Pairwise fun i j => visit mid i < visit mid j)
    (htorn : ¬((pre.flatMap block).length < budget ∧
      budget < (pre.flatMap block).length + (block o).countP fun a => a ≤ cur)) :
    NoHole cur ((pre ++ o :: post).flatMap block)
      (pre.flatMap block ++ (block o).take (budget - (pre.flatMap block).length)) := by
  intro t ht m hm hbetween
  rcases List.mem_flatMap.mp hm with ⟨j, hj, hmj⟩
  have hkeep : ∀ i, t ∈ block i → visit mid i ≤ visit mid o → j ∉ pre → j = o ∧ i = o := by
    intro i hi hvisit hjpre
    have hlow := visit_le_of_between h hi hmj hbetween
    have hhigh : visit mid o ≤ visit mid j := by
      rcases List.mem_append.mp hj with hin | hin
      · exact absurd hin hjpre
      · rcases List.mem_cons.mp hin with rfl | hpost
        · exact le_rfl
        · exact ((List.pairwise_cons.mp (List.pairwise_append.mp horder).2.1).1 j hpost).le
    exact ⟨visit_inj (by omega : visit mid j = visit mid o), visit_inj (by omega : visit mid i = visit mid o)⟩
  by_cases hjpre : j ∈ pre
  · exact List.mem_append_left _ (List.mem_flatMap.mpr ⟨j, hjpre, hmj⟩)
  · refine List.mem_append_right _ ?_
    rcases List.mem_append.mp ht with hpre | htaken
    · rcases List.mem_flatMap.mp hpre with ⟨i, hi, hti⟩
      have hvisit : visit mid i < visit mid o :=
        (List.pairwise_append.mp horder).2.2 i hi o List.mem_cons_self
      obtain ⟨-, rfl⟩ := hkeep i hti hvisit.le hjpre
      exact absurd hvisit (lt_irrefl _)
    · obtain ⟨rfl, -⟩ := hkeep o (List.mem_of_mem_take htaken) le_rfl hjpre
      rcases hbetween with ⟨-, hcur⟩ | ⟨-, hmt⟩
      · have hcount : (block j).countP (fun a => a ≤ cur) ≤ budget - (pre.flatMap block).length := by
          have hsome : budget - (pre.flatMap block).length ≠ 0 := by
            intro hnone
            rw [hnone] at htaken
            cases htaken
          omega
        have hmem : m ∈ (block j).take ((block j).countP fun a => a ≤ cur) := by
          rw [take_countP (h.ascending j)]
          exact List.mem_filter.mpr ⟨hmj, by simpa using hcur⟩
        exact (List.take_sublist_take_left hcount).subset hmem
      · exact mem_take_of_le (h.ascending j) htaken hmj hmt

/-- No hole is left if and only if the cut does not tear the part of a block at or below the centre. -/
theorem noHole_iff (h : Ordered block mid cur)
    (horder : order.Pairwise fun i j => visit mid i < visit mid j) :
    NoHole cur (order.flatMap block) ((order.flatMap block).take budget) ↔
      ∀ o ∈ order, ¬(before block mid order o < budget ∧
        budget < before block mid order o + (block o).countP fun a => a ≤ cur) := by
  rcases take_flatMap block order budget with hall | ⟨pre, o, post, rfl, hle, hlt, htake⟩
  · rw [List.take_of_length_le hall]
    refine ⟨fun _ o ho => ?_, fun _ t _ m hm _ => hm⟩
    obtain ⟨pre, post, rfl⟩ := List.append_of_mem ho
    have hcount : (block o).countP (fun a => a ≤ cur) ≤ (block o).length := List.countP_le_length
    rw [before_eq horder]
    simp only [List.flatMap_append, List.flatMap_cons, List.length_append] at hall
    omega
  · rw [torn_iff horder hle hlt, htake]
    constructor
    · rintro hno ⟨hstart, hcut⟩
      have hpre : ∀ i ∈ pre, visit mid i < visit mid o := fun i hi =>
        (List.pairwise_append.mp horder).2.2 i hi o List.mem_cons_self
      rcases hole_of_torn h hpre hstart hcut with ⟨t, ht, m, hm, htm, hcur, hmissing⟩
      exact hmissing (hno t (List.mem_append_right _ ht) m (by simp [hm]) (Or.inl ⟨htm, hcur⟩))
    · exact noHole_of_not_torn h horder

end Cut

end CenterOut

import Mathlib.Data.List.Basic
import Mathlib.Order.Nat
import Mathlib.Order.RelClasses

/-!
# The best few of a list

`rank` counts what comes before an element in a strict order, and the best `k` of a list are the
elements of rank less than `k`.

Leaving elements out of the list can only move the others forward.  It leaves the best `k` as they
are exactly when none of them is left out (`best_filter_iff`).
-/

namespace TopRanked

variable {α : Type*} (r : α → α → Prop) [DecidableRel r] {l : List α} {a b : α} {k : ℕ}
  {keep : α → Bool}

/-- How many elements of the list come before an element. -/
def rank (l : List α) (a : α) : ℕ := l.countP fun x => r x a

variable {r}

lemma rank_filter_le (keep : α → Bool) (l : List α) (a : α) : rank r (l.filter keep) a ≤ rank r l a :=
  List.filter_sublist.countP_le

/-- A lower rank among the others: one that comes before was left out. -/
lemma exists_of_rank_filter_lt (h : rank r (l.filter keep) a < rank r l a) :
    ∃ x ∈ l, keep x = false ∧ r x a := by
  by_contra hnone
  refine absurd h (not_lt.mpr (le_of_eq ?_))
  rw [rank, rank, List.countP_filter]
  refine List.countP_congr fun x hx => ?_
  simp only [Bool.and_eq_true, decide_eq_true_eq]
  constructor
  · intro hr
    refine ⟨hr, ?_⟩
    by_contra hkeep
    exact hnone ⟨x, hx, by simpa using hkeep, hr⟩
  · exact And.left

section Order

variable [IsStrictOrder α r]

lemma rank_le (h : r b a) (l : List α) : rank r l b ≤ rank r l a := by
  refine List.countP_mono_left fun x _ hx => ?_
  rw [decide_eq_true_eq] at hx ⊢
  exact IsTrans.trans x b a hx h

lemma rank_lt (hmem : b ∈ l) (h : r b a) : rank r l b < rank r l a := by
  induction l with
  | nil => cases hmem
  | cons x l ih =>
      simp only [rank, List.countP_cons]
      by_cases hx : x = b
      · subst hx
        have hle := rank_le h l
        have hself : ¬ r x x := Std.Irrefl.irrefl x
        simp only [rank] at hle
        simp [h, hself]
        omega
      · have hlt := ih (List.mem_of_ne_of_mem (Ne.symm hx) hmem)
        have himp : r x b → r x a := fun hxb => IsTrans.trans x b a hxb h
        simp only [rank] at hlt
        simp only [decide_eq_true_eq]
        split_ifs with hb ha ha
        · omega
        · exact absurd (himp hb) ha
        · omega
        · omega

lemma rank_lt_length (h : a ∈ l) : rank r l a < l.length := by
  refine lt_of_le_of_ne List.countP_le_length fun heq => ?_
  have hself := List.countP_eq_length.mp heq a h
  exact Std.Irrefl.irrefl a (of_decide_eq_true hself)

/-- Of those left out, one of least rank has all that come before it in the list that is left. -/
lemma rank_filter_eq_of_least (hleast : ∀ x ∈ l, keep x = false → r x a → rank r l a ≤ rank r l x) :
    rank r (l.filter keep) a = rank r l a := by
  refine le_antisymm (rank_filter_le keep l a) (not_lt.mp fun hlt => ?_)
  rcases exists_of_rank_filter_lt hlt with ⟨x, hx, hkeep, hr⟩
  exact absurd (rank_lt hx hr) (not_lt.mpr (hleast x hx hkeep hr))

lemma rank_lt_of_rank_filter_lt (hout : ∀ x ∈ l, keep x = false → k ≤ rank r l x)
    (h : rank r (l.filter keep) a < k) : rank r l a < k := by
  by_contra hge
  rcases exists_of_rank_filter_lt (h.trans_le (not_lt.mp hge)) with ⟨x, hx, hkeep, hr⟩
  -- the first of those that come before `a` and were left out
  have hsome : ∃ n, ∃ x ∈ l, keep x = false ∧ r x a ∧ rank r l x = n := ⟨_, x, hx, hkeep, hr, rfl⟩
  rcases Nat.find_spec hsome with ⟨y, hy, hykeep, hyr, hrank⟩
  have heq : rank r (l.filter keep) y = rank r l y := by
    refine rank_filter_eq_of_least fun z hz hzkeep hzr => ?_
    rw [hrank]
    exact Nat.find_min' hsome ⟨z, hz, hzkeep, IsTrans.trans z y a hzr hyr, rfl⟩
  have hle := rank_le hyr (l.filter keep)
  have hk := hout y hy hykeep
  omega

/-- The best `k` stay the best `k` if and only if none of them is left out. -/
theorem best_filter_iff :
    (∀ a ∈ l, rank r l a < k ↔ keep a = true ∧ rank r (l.filter keep) a < k) ↔
      ∀ a ∈ l, keep a = false → k ≤ rank r l a := by
  constructor
  · intro h a ha hkeep
    by_contra hlt
    have hkept := ((h a ha).mp (not_le.mp hlt)).1
    rw [hkeep] at hkept
    cases hkept
  · intro h a ha
    constructor
    · intro hlt
      refine ⟨?_, (rank_filter_le keep l a).trans_lt hlt⟩
      by_contra hkeep
      exact absurd hlt (not_lt.mpr (h a ha (by simpa using hkeep)))
    · rintro ⟨-, hlt⟩
      exact rank_lt_of_rank_filter_lt h hlt

end Order

end TopRanked

import Mathlib.Order.Basic

/-!
# Strictly unimodal functions

A function rises strictly up to its peak and falls strictly after it.  A search for the peak compares the
function at two points and drops one end of its bracket: the part left of the first point when the function
is greater at the second, the part right of the second point otherwise.  `keeps_peak_iff` says when that keeps
the peak: the points are in order, or they coincide and the peak is not to their right.
-/

namespace Unimodal

variable {α β : Type*} [LE α] [LT α] [Std.IsLinearOrder α] [Std.LawfulOrderLT α]
  [LE β] [LT β] [Std.IsLinearOrder β] [Std.LawfulOrderLT β]

/-- Strictly rising from `lo` to `peak`, strictly falling from `peak` to `hi`. -/
structure StrictUnimodal (f : α → β) (lo hi peak : α) : Prop where
  lo_le : lo ≤ peak
  le_hi : peak ≤ hi
  rises : ∀ x y, lo ≤ x → x < y → y ≤ peak → f x < f y
  falls : ∀ x y, peak ≤ x → x < y → y ≤ hi → f y < f x

variable {f : α → β} {lo hi peak x y : α}

/-- The function is greater further right, so the first point is before the peak. -/
lemma StrictUnimodal.lt_peak (h : StrictUnimodal f lo hi peak) (hxy : x < y) (hy : y ≤ hi)
    (hle : f x ≤ f y) : x < peak := by
  refine Std.not_le.mp fun hpeak => ?_
  have hfall := h.falls x y hpeak hxy hy
  exact Std.not_le.mpr hfall hle

/-- The function is not greater further right, so the second point is after the peak. -/
lemma StrictUnimodal.peak_lt (h : StrictUnimodal f lo hi peak) (hx : lo ≤ x) (hxy : x < y)
    (hle : f y ≤ f x) : peak < y := by
  refine Std.not_le.mp fun hpeak => ?_
  have hrise := h.rises x y hx hxy hpeak
  exact Std.not_le.mpr hrise hle

/-- The peak is the only maximum. -/
lemma StrictUnimodal.eq_peak (h : StrictUnimodal f lo hi peak) (hlo : lo ≤ x) (hhi : x ≤ hi)
    (hle : f peak ≤ f x) : x = peak := by
  refine Std.le_antisymm (Std.not_lt.mp fun hlt => ?_) (Std.not_lt.mp fun hlt => ?_)
  · exact Std.not_le.mpr (h.falls peak x (Std.le_refl peak) hlt hhi) hle
  · exact Std.not_le.mpr (h.rises x peak hlo hlt (Std.le_refl peak)) hle

/-- Dropping an end keeps the peak only if the two points are in order, or coincide at or after it. -/
theorem StrictUnimodal.keeps_peak_iff [DecidableLT β] (h : StrictUnimodal f lo hi peak)
    (hx : lo ≤ x) (hx' : x ≤ hi) (hy : lo ≤ y) (hy' : y ≤ hi) :
    (if f x < f y then x ≤ peak else peak ≤ y) ↔ x < y ∨ x = y ∧ peak ≤ y := by
  by_cases hlt : f x < f y
  · rw [if_pos hlt]
    constructor
    · intro hpeak
      refine .inl (Std.not_le.mp fun hyx => ?_)
      -- crossed points: the peak is left of the first one
      have hne : y ≠ x := by
        rintro rfl
        exact Std.lt_irrefl hlt
      have hlt' := h.peak_lt hy (Std.lt_of_le_of_ne hyx hne) (Std.le_of_lt hlt)
      exact Std.not_le.mpr hlt' hpeak
    · rintro (hxy | ⟨rfl, -⟩)
      · exact Std.le_of_lt (h.lt_peak hxy hy' (Std.le_of_lt hlt))
      · exact absurd hlt Std.lt_irrefl
  · rw [if_neg hlt]
    have hle := Std.not_lt.mp hlt
    constructor
    · intro hpeak
      by_cases hxy : x < y
      · exact .inl hxy
      · refine .inr ⟨?_, hpeak⟩
        by_contra hne
        have hyx := Std.lt_of_le_of_ne (Std.not_lt.mp hxy) (Ne.symm hne)
        exact Std.not_le.mpr (h.lt_peak hyx hx' hle) hpeak
    · rintro (hxy | ⟨-, hpeak⟩)
      · exact Std.le_of_lt (h.peak_lt hx hxy hle)
      · exact hpeak

end Unimodal

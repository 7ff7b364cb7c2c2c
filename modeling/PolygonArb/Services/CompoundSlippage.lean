import PolygonArb.Lib.Compounding
import PolygonArb.Services.Profit

/-!
# Compounded slippage

`compound_slippage_bps` of `services/execution/profit.rs`: the slippage of every hop, compounded over the hops.
What is retained is rounded down hop by hop, so the slippage is never below the exact one
(`compoundSlippage_conservative`).

Basis points and hop counts are natural numbers: the arithmetic stays far below the width of the source's types.
-/

namespace PolygonArb

open Compounding

/-- The loop over the hops; none once nothing is retained. -/
def retainedAfter (complement : ℕ) : ℕ → ℕ → Option ℕ
  | 0, retained => some retained
  | hops + 1, retained =>
      let retained := retained * complement / 10000
      if retained = 0 then none else retainedAfter complement hops retained

/-- Slippage of a route with the same slippage on every hop (`compound_slippage_bps`). -/
def compoundSlippageBps (perHopBps hopCount : ℕ) : ℕ :=
  if 10000 ≤ perHopBps then 10000
  else if hopCount ≤ 1 ∨ perHopBps = 0 then perHopBps
  else
    match retainedAfter (10000 - perHopBps) hopCount 10000 with
    | none => 9999
    | some retained => min (10000 - if retained < 2 ^ 64 then retained else 0) 9999

example : compoundSlippageBps 50 4 = 200 := by decide

section Compound

variable {perHopBps hopCount : ℕ}

lemma retainedAfter_eq (complement hops retained : ℕ) (h : retained ≠ 0) :
    retainedAfter complement hops retained =
      if keep 10000 complement hops retained = 0 then none
      else some (keep 10000 complement hops retained) := by
  induction hops generalizing retained with
  | zero => rw [retainedAfter, keep, if_neg h]
  | succ hops ih =>
      rw [retainedAfter, keep]
      by_cases hnone : retained * complement / 10000 = 0
      · rw [if_pos hnone, hnone, keep_nothing, if_pos rfl]
      · rw [if_neg hnone, ih _ hnone]

/-- Below the whole amount the slippage is what is not kept, with a cap; no hop counts as one. -/
lemma compoundSlippageBps_eq (h : perHopBps < 10000) : compoundSlippageBps perHopBps hopCount =
    min (10000 - keep 10000 (10000 - perHopBps) (max hopCount 1) 10000) 9999 := by
  rw [compoundSlippageBps, if_neg (by omega)]
  split_ifs with hshort
  · rcases hshort with hone | rfl
    · have hkept : keep 10000 (10000 - perHopBps) 1 10000 = 10000 - perHopBps := by
        rw [keep, keep, Nat.mul_div_cancel_left _ (by norm_num)]
      rw [max_eq_right hone, hkept]
      omega
    · have hall : ∀ n, keep 10000 10000 n 10000 = 10000 := by
        intro n
        induction n with
        | zero => rfl
        | succ n ih => rw [keep, Nat.mul_div_cancel _ (by norm_num), ih]
      rw [Nat.sub_zero, hall]
      rfl
  · have hle : keep 10000 (10000 - perHopBps) hopCount 10000 ≤ 10000 := keep_le_self (by omega) _ _
    rw [max_eq_left (by omega), retainedAfter_eq _ _ _ (by norm_num)]
    split_ifs with hnone
    · rw [hnone]
      rfl
    · dsimp only
      rw [if_pos (by omega)]

/-- What a hop leaves, as a part of the amount. -/
lemma complement_eq (h : perHopBps < 10000) :
    ((10000 - perHopBps : ℕ) / (10000 : ℕ) : ℚ) = 1 - perHopBps / 10000 := by
  rw [Nat.cast_sub h.le, sub_div]
  norm_num

lemma lossless_le (h : perHopBps < 10000) :
    (0 : ℚ) ≤ 1 - perHopBps / 10000 ∧ (1 : ℚ) - perHopBps / 10000 ≤ 1 := by
  rw [← complement_eq h]
  have hle : ((10000 - perHopBps : ℕ) : ℚ) ≤ (10000 : ℕ) := by exact_mod_cast Nat.sub_le _ _
  exact ⟨by positivity, div_le_one_of_le₀ hle (by positivity)⟩

/-- The slippage is at least the exact compounded loss, or it is capped. -/
lemma exactLoss_le (perHopBps hopCount : ℕ) :
    (10000 : ℚ) * (1 - (1 - perHopBps / 10000) ^ hopCount) ≤ compoundSlippageBps perHopBps hopCount ∨
      compoundSlippageBps perHopBps hopCount = 9999 ∨
      10000 ≤ perHopBps ∧ compoundSlippageBps perHopBps hopCount = 10000 := by
  rcases lt_or_ge perHopBps 10000 with h | h
  · rw [compoundSlippageBps_eq h]
    rcases lt_or_ge 9999 (10000 - keep 10000 (10000 - perHopBps) (max hopCount 1) 10000) with hcap | hfree
    · exact Or.inr (Or.inl (min_eq_right hcap.le))
    · left
      have hkept := @keep_le 10000 (10000 - perHopBps) (max hopCount 1) 10000
      have hle : keep 10000 (10000 - perHopBps) (max hopCount 1) 10000 ≤ 10000 := keep_le_self (by omega) _ _
      rcases lossless_le h with ⟨hpos, hone⟩
      have hpow := pow_le_pow_of_le_one hpos hone (le_max_left hopCount 1)
      rw [complement_eq h] at hkept
      rw [min_eq_left hfree, Nat.cast_sub hle]
      push_cast at hkept ⊢
      linarith
  · exact Or.inr (Or.inr ⟨h, if_pos h⟩)

lemma compoundSlippageBps_mono {perHopBps' hopCount' : ℕ} (hbps : perHopBps ≤ perHopBps')
    (hhops : hopCount ≤ hopCount') :
    compoundSlippageBps perHopBps hopCount ≤ compoundSlippageBps perHopBps' hopCount' := by
  rcases lt_or_ge perHopBps' 10000 with h' | h'
  · rw [compoundSlippageBps_eq (by omega), compoundSlippageBps_eq h']
    have hmore : keep 10000 (10000 - perHopBps') (max hopCount' 1) 10000 ≤
        keep 10000 (10000 - perHopBps) (max hopCount 1) 10000 :=
      calc keep 10000 (10000 - perHopBps') (max hopCount' 1) 10000
          ≤ keep 10000 (10000 - perHopBps') (max hopCount 1) 10000 :=
            keep_antitone (by omega) 10000 (max_le_max_right 1 hhops)
        _ ≤ keep 10000 (10000 - perHopBps) (max hopCount 1) 10000 := keep_mono (by omega) le_rfl _
    omega
  · have hwhole : compoundSlippageBps perHopBps' hopCount' = 10000 := if_pos h'
    rw [hwhole]
    rcases lt_or_ge perHopBps 10000 with h | h
    · rw [compoundSlippageBps_eq h]
      omega
    · exact (if_pos h).le

/-- A slippage below the whole of a hop is never understated by rounding, and grows with the slippage of the hops
and with their number. -/
theorem compoundSlippage_conservative :
    (∀ perHopBps hopCount : ℕ,
      (10000 : ℚ) * (1 - (1 - perHopBps / 10000) ^ hopCount) ≤ compoundSlippageBps perHopBps hopCount ∨
        compoundSlippageBps perHopBps hopCount = 9999 ∨
        10000 ≤ perHopBps ∧ compoundSlippageBps perHopBps hopCount = 10000) ∧
      (∀ hopCount : ℕ, Monotone fun perHopBps => compoundSlippageBps perHopBps hopCount) ∧
      ∀ perHopBps : ℕ, Monotone fun hopCount => compoundSlippageBps perHopBps hopCount :=
  ⟨exactLoss_le, fun _ _ _ h => compoundSlippageBps_mono h le_rfl,
    fun _ _ _ h => compoundSlippageBps_mono le_rfl h⟩

/-- A hop that loses more than everything. -/
theorem compoundSlippage_aboveWhole :
    ¬((10000 : ℚ) * (1 - (1 - (20000 : ℕ) / 10000) ^ 1) ≤ compoundSlippageBps 20000 1 ∨
      compoundSlippageBps 20000 1 = 9999) := by
  have hwhole : compoundSlippageBps 20000 1 = 10000 := if_pos (by norm_num)
  rw [hwhole]
  norm_num

end Compound

/-! ## Routes -/

end PolygonArb

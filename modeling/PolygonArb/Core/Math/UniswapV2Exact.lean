import PolygonArb.Core.Math.UniswapV2

/-!
# When a constant-product quote is exact

`get_amount_out` chooses between two widths by the size of the three amounts, and both paths wrap.  The
fast path takes amounts below 128 bits for safe, "128 + 128 + 14 bits", which is more than a word.

A path whose denominator fits is exact if and only if its numerator fits: wrapping the numerator takes at
least one whole denominator off, so at least one off the quotient (`wrapped_div_lt`).
-/

namespace PolygonArb

open Word

/-- What the guards of `getAmountOut` let through. -/
structure Quotable (amountIn reserveIn reserveOut feeNumerator feeDenom : U256) : Prop where
  amountNe : amountIn ≠ 0
  reserveInNe : reserveIn ≠ 0
  reserveOutNe : reserveOut ≠ 0
  feeNe : feeNumerator ≠ 0
  denomNe : feeDenom ≠ 0
  feeLt : feeNumerator < feeDenom

/-- The modulus of the path that is taken. -/
def quoteModulus (amountIn reserveIn reserveOut : U256) : ℕ :=
  if amountIn.toNat < 2 ^ 128 ∧ reserveIn.toNat < 2 ^ 128 ∧ reserveOut.toNat < 2 ^ 128 then 2 ^ 256
  else 2 ^ 512

def exactNumerator (amountIn reserveOut feeNumerator : U256) : ℕ :=
  amountIn.toNat * feeNumerator.toNat * reserveOut.toNat

def exactDenominator (amountIn reserveIn feeNumerator feeDenom : U256) : ℕ :=
  reserveIn.toNat * feeDenom.toNat + amountIn.toNat * feeNumerator.toNat

/-- The quote over the unbounded integers. -/
def v2ExactAmountOut (amountIn reserveIn reserveOut feeNumerator feeDenom : U256) : ℕ :=
  exactNumerator amountIn reserveOut feeNumerator /
    exactDenominator amountIn reserveIn feeNumerator feeDenom

/-- A numerator that wraps loses a denominator at least. -/
lemma wrapped_div_lt {n d w : ℕ} (hd : 0 < d) (hdw : d < w) (hn : w ≤ n) : n % w / d < n / d := by
  have hsplit := Nat.mod_add_div n w
  have hwraps : 1 ≤ n / w := (Nat.one_le_div_iff (by omega)).mpr hn
  have hle : n % w + d ≤ n := by
    calc n % w + d ≤ n % w + w * (n / w) :=
          Nat.add_le_add_left (hdw.le.trans (Nat.le_mul_of_pos_right w hwraps)) _
      _ = n := hsplit
  calc n % w / d < n % w / d + 1 := Nat.lt_succ_self _
    _ = (n % w + d) / d := (Nat.add_div_right _ hd).symm
    _ ≤ n / d := Nat.div_le_div_right hle

lemma wrapped_div_eq_iff {n d w : ℕ} (hd : 0 < d) (hdw : d < w) : n % w / d = n / d ↔ n < w := by
  constructor
  · intro h
    by_contra hn
    exact absurd h (wrapped_div_lt hd hdw (not_lt.mp hn)).ne
  · intro h
    rw [Nat.mod_eq_of_lt h]

section Quotes

variable {amountIn reserveIn reserveOut feeNumerator feeDenom : U256}

lemma Quotable.guards (h : Quotable amountIn reserveIn reserveOut feeNumerator feeDenom) :
    ¬ (amountIn = 0 ∨ reserveIn = 0 ∨ reserveOut = 0 ∨ feeNumerator = 0 ∨ feeDenom = 0
      ∨ feeDenom ≤ feeNumerator) := by
  rintro (h0 | h0 | h0 | h0 | h0 | h0)
  · exact h.amountNe h0
  · exact h.reserveInNe h0
  · exact h.reserveOutNe h0
  · exact h.feeNe h0
  · exact h.denomNe h0
  · exact absurd (lt_iff.mp h.feeLt) (not_lt.mpr (le_iff.mp h0))

lemma Quotable.denominator_pos (h : Quotable amountIn reserveIn reserveOut feeNumerator feeDenom) :
    0 < exactDenominator amountIn reserveIn feeNumerator feeDenom := by
  have hreserve : 0 < reserveIn.toNat := Nat.pos_of_ne_zero fun h0 => h.reserveInNe (eq_zero_iff.mpr h0)
  have hfee : 0 < feeDenom.toNat := Nat.pos_of_ne_zero fun h0 => h.denomNe (eq_zero_iff.mpr h0)
  exact Nat.add_pos_left (Nat.mul_pos hreserve hfee) _

/-- The input with its fee is a part of the denominator, so the quotient is below the reserve. -/
lemma v2ExactAmountOut_le :
    v2ExactAmountOut amountIn reserveIn reserveOut feeNumerator feeDenom ≤ reserveOut.toNat := by
  refine Nat.div_le_of_le_mul ?_
  exact Nat.mul_le_mul_right _ (Nat.le_add_left _ _)

/-- What a path computes when its denominator fits. -/
lemma getAmountOut_eq (h : Quotable amountIn reserveIn reserveOut feeNumerator feeDenom)
    (hden : exactDenominator amountIn reserveIn feeNumerator feeDenom <
      quoteModulus amountIn reserveIn reserveOut) :
    ∃ q, getAmountOut amountIn reserveIn reserveOut feeNumerator feeDenom = some q ∧
      q.toNat = exactNumerator amountIn reserveOut feeNumerator %
        quoteModulus amountIn reserveIn reserveOut /
          exactDenominator amountIn reserveIn feeNumerator feeDenom := by
  have hpos := h.denominator_pos
  rw [getAmountOut, if_neg h.guards]
  unfold quoteModulus at hden ⊢
  split_ifs with hsmall
  · rw [if_pos hsmall] at hden
    have hdenominator : (reserveIn * feeDenom + amountIn * feeNumerator).toNat =
        exactDenominator amountIn reserveIn feeNumerator feeDenom := by
      rw [BitVec.toNat_add, BitVec.toNat_mul, BitVec.toNat_mul, ← Nat.add_mod]
      exact Nat.mod_eq_of_lt hden
    have hnumerator : (amountIn * feeNumerator * reserveOut).toNat =
        exactNumerator amountIn reserveOut feeNumerator % 2 ^ 256 := by
      rw [BitVec.toNat_mul, BitVec.toNat_mul, Nat.mod_mul_mod]
      rfl
    refine ⟨_, checkedDiv_eq_some.mpr ⟨?_, rfl⟩, ?_⟩
    · rw [ne_eq, eq_zero_iff, hdenominator]
      exact hpos.ne'
    · rw [BitVec.toNat_udiv, hnumerator, hdenominator]
  · rw [if_neg hsmall] at hden
    have hwrap : wrap512 (reserveIn.toNat * feeDenom.toNat + amountIn.toNat * feeNumerator.toNat) =
        exactDenominator amountIn reserveIn feeNumerator feeDenom := Nat.mod_eq_of_lt hden
    dsimp only
    rw [hwrap, if_neg hpos.ne']
    refine ⟨_, rfl, ?_⟩
    rw [truncate256, BitVec.toNat_ofNat]
    refine Nat.mod_eq_of_lt (lt_of_le_of_lt ?_ (toNat_lt reserveOut))
    exact (Nat.div_le_div_right (Nat.mod_le _ _)).trans v2ExactAmountOut_le

/-- A quote is the floor of the exact quotient, by a path that does not wrap its denominator, if and only
if the numerator and the denominator fit the words of the path. -/
theorem getAmountOut_exact_iff (h : Quotable amountIn reserveIn reserveOut feeNumerator feeDenom) :
    ((∃ q, getAmountOut amountIn reserveIn reserveOut feeNumerator feeDenom = some q ∧
        q.toNat = v2ExactAmountOut amountIn reserveIn reserveOut feeNumerator feeDenom) ∧
      exactDenominator amountIn reserveIn feeNumerator feeDenom <
        quoteModulus amountIn reserveIn reserveOut) ↔
    exactNumerator amountIn reserveOut feeNumerator < quoteModulus amountIn reserveIn reserveOut ∧
      exactDenominator amountIn reserveIn feeNumerator feeDenom <
        quoteModulus amountIn reserveIn reserveOut := by
  refine and_congr_left fun hden => ?_
  rcases getAmountOut_eq h hden with ⟨q, hq, hvalue⟩
  rw [hq, ← wrapped_div_eq_iff h.denominator_pos hden, ← hvalue]
  constructor
  · rintro ⟨q', hq', hexact⟩
    cases hq'
    exact hexact
  · intro hexact
    exact ⟨q, rfl, hexact⟩

/-- A thousand units into equal reserves of a million, at thirty basis points. -/
theorem getAmountOut_exact_iff_million :
    (∃ q, getAmountOut 1000 1000000 1000000 997 1000 = some q ∧
        q.toNat = v2ExactAmountOut 1000 1000000 1000000 997 1000) ∧
      exactDenominator 1000 1000000 997 1000 < quoteModulus 1000 1000000 1000000 :=
  (getAmountOut_exact_iff ⟨by decide, by decide, by decide, by decide, by decide, by decide⟩).mpr
    ⟨by decide, by decide⟩

/-- At thirty basis points and amounts of 2 ^ 127, all below 128 bits, a thousandth of what is due is
quoted. -/
theorem getAmountOut_wraps :
    Quotable (2 ^ 127) (2 ^ 127) (2 ^ 127) 997 1000 ∧
      getAmountOut (2 ^ 127) (2 ^ 127) (2 ^ 127) 997 1000 =
        some 85198389314205924752973111525229897 ∧
      v2ExactAmountOut (2 ^ 127) (2 ^ 127) (2 ^ 127) 997 1000 =
        84942794146263306978714192190654208017 := by
  refine ⟨⟨?_, ?_, ?_, ?_, ?_, ?_⟩, ?_, ?_⟩ <;> decide +kernel

end Quotes

end PolygonArb

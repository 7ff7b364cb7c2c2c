import PolygonArb.Core.Math.Balancer

/-!
# Whom the weighted quote favours

With equal weights the power of a weighted quote has exponent `ONE`, and `powDown` returns its base as it
is.  The base `balance_in * ONE / (balance_in + amount_in)` is rounded down, so its complement is rounded up
and the output with it: every rounding before the last one favours the trader.  The stable quote of the same
file rounds the other way, by `divRoundingUpOrZero` and one unit off.

The last floor makes up for it when what the base lost, times the balance out, stays below the room that
floor has: `balancer_weighted_product_iff`.
-/

namespace PolygonArb

open Word

/-- Two legs of equal weight, no fee, scaling factors of one.  Normalized weights sum to `ONE`, far below
where `weight * ONE` leaves a word. -/
structure EqualWeightPair (state : BalancerPoolState) (inIdx outIdx : ℕ)
    (balIn balOut weight : U256) : Prop where
  inBalance : state.balances[inIdx]? = some balIn
  outBalance : state.balances[outIdx]? = some balOut
  inWeight : state.weights[inIdx]? = some weight
  outWeight : state.weights[outIdx]? = some weight
  noFee : state.fee = 0
  unscaled : state.scalingFactors = List.replicate state.balances.length one18
  weightFits : weight.toNat * one18.toNat < 2 ^ 256

/-- The guards of a quote: something is sold, at most the vault's share of the balance, to a pool with two
balances that fit the fixed point. -/
structure WeightedQuoted (amountIn balIn balOut weight : U256) : Prop where
  amountNe : amountIn ≠ 0
  outNe : balOut ≠ 0
  weightNe : weight ≠ 0
  withinRatio : exceedsBalancerMaxInRatio amountIn balIn = false
  inFits : balIn.toNat * one18.toNat < 2 ^ 256
  outFits : balOut.toNat * one18.toNat < 2 ^ 256

/-- What the base is rounded down by, times the balance out, against the room of the last floor. -/
def RoundingAbsorbed (amountIn balIn balOut : U256) : Prop :=
  balOut.toNat * (balIn.toNat * one18.toNat % (balIn.toNat + amountIn.toNat)) <
    one18.toNat * (balIn.toNat + amountIn.toNat -
      balOut.toNat * amountIn.toNat % (balIn.toNat + amountIn.toNat))

/-- The output of a quote at exponent one, over the naturals. -/
def weightedOut (amountIn balIn balOut : ℕ) : ℕ :=
  balOut * (one18.toNat - balIn * one18.toNat / (balIn + amountIn)) / one18.toNat

lemma one18_two : 2 ≤ one18.toNat := by decide

lemma one18_pos : 0 < one18.toNat := lt_of_lt_of_le two_pos one18_two

/-- The room of the last floor, over any unit. -/
lemma roundedOut_le_iff {balIn amountIn balOut unit : ℕ} (hsum : 0 < balIn + amountIn)
    (hunit : 0 < unit) :
    balOut * (unit - balIn * unit / (balIn + amountIn)) / unit * (balIn + amountIn) ≤
        balOut * amountIn ↔
      balOut * (balIn * unit % (balIn + amountIn)) <
        unit * (balIn + amountIn - balOut * amountIn % (balIn + amountIn)) := by
  set d := balIn + amountIn with hd
  set c := unit - balIn * unit / d
  have hbase : balIn * unit / d ≤ unit := by
    refine Nat.div_le_of_le_mul ?_
    exact Nat.mul_le_mul_right _ (Nat.le_add_right _ _)
  -- the complement of the base, multiplied out: the exact share and what the base lost
  have hcomplement : c * d = amountIn * unit + balIn * unit % d := by
    have hsplit := Nat.div_add_mod (balIn * unit) d
    have hwhole : unit * d = balIn * unit + amountIn * unit := by rw [hd]; ring
    have hproduct : c * d = unit * d - d * (balIn * unit / d) := by
      rw [Nat.sub_mul, Nat.mul_comm d]
    omega
  have hmod : balOut * amountIn % d < d := Nat.mod_lt _ hsum
  have hleft : balOut * c * d = balOut * amountIn * unit + balOut * (balIn * unit % d) := by
    rw [Nat.mul_assoc, hcomplement]
    ring
  have hright : (balOut * amountIn / d + 1) * unit * d =
      balOut * amountIn * unit + unit * (d - balOut * amountIn % d) := by
    have hroom : (balOut * amountIn / d + 1) * d =
        balOut * amountIn + (d - balOut * amountIn % d) := by
      have hsplit := Nat.div_add_mod (balOut * amountIn) d
      rw [Nat.add_mul, Nat.mul_comm (balOut * amountIn / d)]
      omega
    calc (balOut * amountIn / d + 1) * unit * d
        = unit * ((balOut * amountIn / d + 1) * d) := by ring
      _ = balOut * amountIn * unit + unit * (d - balOut * amountIn % d) := by rw [hroom]; ring
  calc balOut * c / unit * d ≤ balOut * amountIn
      ↔ balOut * c / unit ≤ balOut * amountIn / d := (Nat.le_div_iff_mul_le hsum).symm
    _ ↔ balOut * c / unit < balOut * amountIn / d + 1 := Nat.lt_succ_iff.symm
    _ ↔ balOut * c < (balOut * amountIn / d + 1) * unit := Nat.div_lt_iff_lt_mul hunit
    _ ↔ balOut * c * d < (balOut * amountIn / d + 1) * unit * d :=
        (Nat.mul_lt_mul_right hsum).symm
    _ ↔ balOut * (balIn * unit % d) < unit * (d - balOut * amountIn % d) := by
        rw [hleft, hright, Nat.add_lt_add_iff_left]

/-- Keeping the product of the balances, as a bound on what is paid. -/
lemma product_le_iff {balIn amountIn balOut out : ℕ} (hout : out ≤ balOut) :
    balIn * balOut ≤ (balIn + amountIn) * (balOut - out) ↔
      out * (balIn + amountIn) ≤ balOut * amountIn := by
  have hpaid : out * (balIn + amountIn) ≤ balOut * (balIn + amountIn) :=
    Nat.mul_le_mul_right _ hout
  have hkept : (balIn + amountIn) * (balOut - out) =
      balOut * (balIn + amountIn) - out * (balIn + amountIn) := by
    rw [Nat.mul_comm, Nat.sub_mul]
  have hsum : balOut * (balIn + amountIn) = balIn * balOut + balOut * amountIn := by ring
  omega

lemma scaleChecked_one {a : U256} (h : a.toNat * one18.toNat < 2 ^ 256) :
    scaleChecked a one18 = some a := by
  rcases exists_toNat_eq h with ⟨product, hproduct⟩
  rw [scaleChecked, checkedMul_eq_some.mpr hproduct, Option.map_some, Option.some.injEq,
    ← BitVec.toNat_inj, BitVec.toNat_udiv, hproduct]
  exact Nat.mul_div_cancel _ one18_pos

lemma scaleChecked_none {a : U256} (h : ¬ a.toNat * one18.toNat < 2 ^ 256) :
    scaleChecked a one18 = none := by
  rw [scaleChecked, checkedMul_eq_none.mpr (not_lt.mp h)]
  rfl

/-- A sale within the vault's ratio is below its balance. -/
lemma le_of_withinRatio {amountIn balIn : U256}
    (h : exceedsBalancerMaxInRatio amountIn balIn = false) :
    0 < balIn.toNat ∧ amountIn.toNat ≤ balIn.toNat := by
  simp only [exceedsBalancerMaxInRatio, Bool.or_eq_false_iff, decide_eq_false_iff_not] at h
  rcases h with ⟨hpos, hratio⟩
  refine ⟨Nat.pos_of_ne_zero fun h0 => hpos (eq_zero_iff.mpr h0), ?_⟩
  cases hlimit : checkedMul balIn maxInRatio with
  | none =>
      rw [hlimit] at hratio
      cases hratio
  | some limit =>
      rw [hlimit] at hratio
      simp only [decide_eq_false_iff_not, lt_iff, not_lt, BitVec.toNat_udiv,
        checkedMul_eq_some.mp hlimit] at hratio
      refine hratio.trans (Nat.div_le_of_le_mul ?_)
      rw [Nat.mul_comm]
      exact Nat.mul_le_mul_right _ (by decide)

section Quote

variable {amountIn balIn balOut weight : U256}

/-- Equal weights have exponent one. -/
lemma equalWeights_exponent (hweight : weight ≠ 0)
    (hfits : weight.toNat * one18.toNat < 2 ^ 256) : weight * one18 / weight = one18 := by
  have hpos : 0 < weight.toNat := Nat.pos_of_ne_zero fun h0 => hweight (eq_zero_iff.mpr h0)
  rw [← BitVec.toNat_inj, BitVec.toNat_udiv, toNat_mul_of_lt hfits]
  exact Nat.mul_div_cancel_left _ hpos

lemma weightedOut_le (amountIn balIn balOut : ℕ) : weightedOut amountIn balIn balOut ≤ balOut := by
  refine Nat.div_le_of_le_mul ?_
  rw [Nat.mul_comm]
  exact Nat.mul_le_mul_right _ (Nat.sub_le _ _)

lemma complement_zero : complement 0 = one18 := by decide

/-- The base of a quote that passes its guards: no product of it wraps, and it lies between zero and
`ONE`. -/
lemma weightedBase_toNat (h : WeightedQuoted amountIn balIn balOut weight) :
    (balIn * one18 / (balIn + amountIn)).toNat =
        balIn.toNat * one18.toNat / (balIn.toNat + amountIn.toNat) ∧
      (balIn + amountIn).toNat = balIn.toNat + amountIn.toNat := by
  have hratio := le_of_withinRatio h.withinRatio
  have hsmall : balIn.toNat * 2 < 2 ^ 256 :=
    lt_of_le_of_lt (Nat.mul_le_mul_left _ one18_two) h.inFits
  have hsum : (balIn + amountIn).toNat = balIn.toNat + amountIn.toNat := toNat_add_of_lt (by omega)
  have hscaled : (balIn * one18).toNat = balIn.toNat * one18.toNat := toNat_mul_of_lt h.inFits
  exact ⟨by rw [BitVec.toNat_udiv, hscaled, hsum], hsum⟩

lemma weightedBase_pos (h : WeightedQuoted amountIn balIn balOut weight) :
    0 < balIn.toNat * one18.toNat / (balIn.toNat + amountIn.toNat) := by
  have hratio := le_of_withinRatio h.withinRatio
  refine Nat.div_pos ?_ (by omega)
  calc balIn.toNat + amountIn.toNat ≤ balIn.toNat * 2 := by omega
    _ ≤ balIn.toNat * one18.toNat := Nat.mul_le_mul_left _ one18_two

lemma weightedBase_le (balIn amountIn : ℕ) :
    balIn * one18.toNat / (balIn + amountIn) ≤ one18.toNat :=
  Nat.div_le_of_le_mul (Nat.mul_le_mul_right _ (Nat.le_add_right _ _))

/-- The end of a quote: a floor by `ONE`, nothing when it is zero, and the cap never bites. -/
lemma scaledOut_toNat {share : U256} (hfits : balOut.toNat * one18.toNat < 2 ^ 256)
    (hshare : share.toNat ≤ one18.toNat) :
    (((do
      let scaledAmountOut ← scaleChecked balOut share
      if scaledAmountOut = 0 then none
      else some (capAtBalance (scaledAmountOut * one18 / one18) balOut)) : Option U256).getD 0).toNat =
      balOut.toNat * share.toNat / one18.toNat := by
  have hproductFits : balOut.toNat * share.toNat < 2 ^ 256 :=
    lt_of_le_of_lt (Nat.mul_le_mul_left _ hshare) hfits
  rcases exists_toNat_eq hproductFits with ⟨product, hproduct⟩
  have hout : (product / one18).toNat = balOut.toNat * share.toNat / one18.toNat := by
    rw [BitVec.toNat_udiv, hproduct]
  have hcap : (product / one18).toNat ≤ balOut.toNat := by
    rw [hout]
    refine Nat.div_le_of_le_mul ?_
    rw [Nat.mul_comm]
    exact Nat.mul_le_mul_right _ hshare
  have hback : product / one18 * one18 / one18 = product / one18 := by
    rw [← BitVec.toNat_inj, BitVec.toNat_udiv,
      toNat_mul_of_lt (lt_of_le_of_lt (Nat.mul_le_mul_right _ hcap) hfits)]
    exact Nat.mul_div_cancel _ one18_pos
  rw [scaleChecked, checkedMul_eq_some.mpr hproduct, Option.map_some]
  simp only [Option.bind_eq_bind, Option.bind_some]
  split_ifs with hzero
  · rw [← hout, hzero]
    rfl
  · rw [Option.getD_some, hback, capAtBalance, if_neg, hout]
    rintro (h0 | hlt)
    · exact hzero h0
    · exact absurd (lt_iff.mp hlt) (not_lt.mpr hcap)

/-- A quote that passes its guards pays `weightedOut`. -/
lemma weightedQuote_toNat (h : WeightedQuoted amountIn balIn balOut weight)
    (hfits : weight.toNat * one18.toNat < 2 ^ 256) :
    ((weightedQuote amountIn balIn balOut weight weight one18 one18 0).getD 0).toNat =
      weightedOut amountIn.toNat balIn.toNat balOut.toNat := by
  have hratio := le_of_withinRatio h.withinRatio
  have hamountFits : amountIn.toNat * one18.toNat < 2 ^ 256 :=
    lt_of_le_of_lt (Nat.mul_le_mul_right _ hratio.2) h.inFits
  have hsum := (weightedBase_toNat h).2
  have hbase := (weightedBase_toNat h).1
  have hexponent := equalWeights_exponent h.weightNe hfits
  set base := balIn * one18 / (balIn + amountIn) with hbaseDef
  have hbaseLe : base.toNat ≤ one18.toNat := hbase ▸ weightedBase_le _ _
  have hcomplement : (one18 - base).toNat = one18.toNat - base.toNat := toNat_sub_of_le hbaseLe
  have hdenominator : balIn + amountIn ≠ 0 := by
    rw [ne_eq, eq_zero_iff, hsum]
    omega
  have hguard : ¬ (base = 0 ∨ one18 < base ∨ one18 = 0) := by
    rintro (h0 | hlt | h0)
    · exact absurd (eq_zero_iff.mp h0) (hbase ▸ weightedBase_pos h).ne'
    · exact absurd (lt_iff.mp hlt) (not_lt.mpr hbaseLe)
    · exact absurd (eq_zero_iff.mp h0) one18_pos.ne'
  rw [weightedQuote, complement_zero, scaleChecked_one hamountFits, Option.bind_eq_bind,
    Option.bind_some, scaleChecked_one hamountFits]
  rw [Option.bind_some, if_neg h.amountNe, scaleChecked_one h.inFits, Option.bind_some,
    scaleChecked_one h.outFits, Option.bind_some]
  dsimp only
  rw [if_neg hdenominator, ← hbaseDef, hexponent, if_neg hguard, powDown, if_pos rfl]
  rw [if_neg fun hlt => hguard (.inr (.inl hlt))]
  have hshare : (one18 - base).toNat ≤ one18.toNat := by
    rw [hcomplement]
    exact Nat.sub_le _ _
  refine (scaledOut_toNat h.outFits hshare).trans ?_
  rw [hcomplement, hbase, weightedOut]

/-- A quote that fails a guard pays nothing. -/
lemma weightedQuote_none (hratio : exceedsBalancerMaxInRatio amountIn balIn = false)
    (hout : balOut ≠ 0) (hweight : weight ≠ 0)
    (h : ¬ WeightedQuoted amountIn balIn balOut weight) :
    weightedQuote amountIn balIn balOut weight weight one18 one18 0 = none := by
  rw [weightedQuote, complement_zero]
  by_cases hamountFits : amountIn.toNat * one18.toNat < 2 ^ 256
  swap
  · rw [scaleChecked_none hamountFits]
    rfl
  rw [scaleChecked_one hamountFits, Option.bind_eq_bind, Option.bind_some,
    scaleChecked_one hamountFits, Option.bind_some]
  by_cases hamount : amountIn = 0
  · rw [if_pos hamount]
  rw [if_neg hamount]
  by_cases hin : balIn.toNat * one18.toNat < 2 ^ 256
  swap
  · rw [scaleChecked_none hin]
    rfl
  by_cases hfits : balOut.toNat * one18.toNat < 2 ^ 256
  swap
  · rw [scaleChecked_one hin, Option.bind_some, scaleChecked_none hfits]
    rfl
  exact absurd ⟨hamount, hout, hweight, hratio, hin, hfits⟩ h

end Quote

section Pool

variable {state : BalancerPoolState} {inIdx outIdx : ℕ} {balIn balOut weight amountIn : U256}

/-- The quote of a pair of equal weights, its table lookups done. -/
lemma EqualWeightPair.amountOut_eq
    (h : EqualWeightPair state inIdx outIdx balIn balOut weight) :
    getBalancerWeightedAmountOut state amountIn inIdx outIdx =
      if balIn = 0 ∨ balOut = 0 ∨ weight = 0 ∨ weight = 0 then 0
      else if one18 ≤ 0 ∨ exceedsBalancerMaxInRatio amountIn balIn then 0
      else (weightedQuote amountIn balIn balOut weight weight one18 one18 0).getD 0 := by
  have hin := (List.getElem?_eq_some_iff.mp h.inBalance).1
  have hout := (List.getElem?_eq_some_iff.mp h.outBalance).1
  have hinWeight := (List.getElem?_eq_some_iff.mp h.inWeight).1
  have houtWeight := (List.getElem?_eq_some_iff.mp h.outWeight).1
  have hindices : ¬ (state.balances.length ≤ inIdx ∨ state.balances.length ≤ outIdx ∨
      state.weights.length ≤ inIdx ∨ state.weights.length ≤ outIdx) := by omega
  have hscaleIn : state.scalingFactors.getD inIdx 0 = one18 := by
    rw [h.unscaled, List.getD_eq_getElem?_getD, List.getElem?_replicate, if_pos hin,
      Option.getD_some]
  have hscaleOut : state.scalingFactors.getD outIdx 0 = one18 := by
    rw [h.unscaled, List.getD_eq_getElem?_getD, List.getElem?_replicate, if_pos hout,
      Option.getD_some]
  have hlength : ¬ state.scalingFactors.length ≠ state.balances.length := by
    rw [h.unscaled, List.length_replicate]
    exact not_not.mpr rfl
  have hscale : ¬ (one18 = 0 ∨ one18 = 0) := by decide
  have hfee : resolveSwapFee state.fee = 0 := by
    rw [h.noFee]
    decide
  rw [getBalancerWeightedAmountOut, if_neg hindices, if_neg hlength]
  simp only [hscaleIn, hscaleOut, hfee, if_neg hscale, List.getD_eq_getElem?_getD, h.inBalance,
    h.outBalance, h.inWeight, h.outWeight, Option.getD_some, complement_zero]
  rw [if_neg (c := one18 = 0) fun h0 => hscale (.inl h0)]

/-- A quote on equal weights pays `weightedOut` past its guards and nothing otherwise. -/
lemma EqualWeightPair.amountOut_toNat
    (h : EqualWeightPair state inIdx outIdx balIn balOut weight) :
    (WeightedQuoted amountIn balIn balOut weight →
      (getBalancerWeightedAmountOut state amountIn inIdx outIdx).toNat =
        weightedOut amountIn.toNat balIn.toNat balOut.toNat) ∧
    (¬ WeightedQuoted amountIn balIn balOut weight →
      getBalancerWeightedAmountOut state amountIn inIdx outIdx = 0) := by
  have hone : ¬ one18 ≤ 0 := by decide
  rw [h.amountOut_eq]
  constructor
  · intro hquoted
    have hpos := (le_of_withinRatio hquoted.withinRatio).1
    rw [if_neg, if_neg, weightedQuote_toNat hquoted h.weightFits]
    · rintro (h0 | h0)
      · exact hone h0
      · rw [hquoted.withinRatio] at h0
        cases h0
    · rintro (h0 | h0 | h0 | h0)
      · exact hpos.ne' (eq_zero_iff.mp h0)
      · exact hquoted.outNe h0
      · exact hquoted.weightNe h0
      · exact hquoted.weightNe h0
  · intro hquoted
    split_ifs with hzero hratio
    · rfl
    · rfl
    · rw [weightedQuote_none]
      · rfl
      · exact Bool.eq_false_of_not_eq_true fun h0 => hratio (.inr h0)
      · exact fun h0 => hzero (.inr (.inl h0))
      · exact fun h0 => hzero (.inr (.inr (.inl h0)))
      · exact hquoted

/-- A quote on equal weights keeps the product of the balances if and only if it is refused or its last
floor absorbs what the base was rounded down by. -/
theorem balancer_weighted_product_iff
    (h : EqualWeightPair state inIdx outIdx balIn balOut weight) :
    balIn.toNat * balOut.toNat ≤ (balIn.toNat + amountIn.toNat) *
        (balOut.toNat - (getBalancerWeightedAmountOut state amountIn inIdx outIdx).toNat) ↔
      (WeightedQuoted amountIn balIn balOut weight → RoundingAbsorbed amountIn balIn balOut) := by
  by_cases hquoted : WeightedQuoted amountIn balIn balOut weight
  · have hpos := (le_of_withinRatio hquoted.withinRatio).1
    rw [h.amountOut_toNat.1 hquoted, product_le_iff (weightedOut_le _ _ _), weightedOut,
      roundedOut_le_iff (Nat.add_pos_left hpos _) one18_pos]
    exact ⟨fun habsorbed _ => habsorbed, fun habsorbed => habsorbed hquoted⟩
  · rw [h.amountOut_toNat.2 hquoted]
    refine iff_of_true ?_ fun h0 => absurd h0 hquoted
    rw [show (0 : U256).toNat = 0 from rfl, Nat.sub_zero]
    exact Nat.mul_le_mul_right _ (Nat.le_add_right _ _)

/-- A pool of two legs at weight one half each. -/
def evenWeightPool (balIn balOut : U256) : BalancerPoolState where
  poolId := none
  tokens := [1, 2]
  balances := [balIn, balOut]
  weights := [500000000000000000, 500000000000000000]
  scalingFactors := [one18, one18]
  amp := 0
  ampPrecision := 0
  fee := 0
  poolType := .weighted
  linear := none
  bptIndex := none
  isUpdating := false
  lastChangeBlock := 0

/-- Four units against seven, one sold: the base, four fifths, is exact, and the product is kept. -/
theorem balancer_weighted_product_iff_fifths :
    (4000000000000000000 : U256).toNat * (7000000000000000000 : U256).toNat ≤
      ((4000000000000000000 : U256).toNat + (1000000000000000000 : U256).toNat) *
        ((7000000000000000000 : U256).toNat -
          (getBalancerWeightedAmountOut (evenWeightPool 4000000000000000000 7000000000000000000)
            1000000000000000000 0 1).toNat) :=
  (@balancer_weighted_product_iff _ 0 1 _ _ 500000000000000000 _
    ⟨rfl, rfl, rfl, rfl, rfl, rfl, by decide⟩).mpr fun _ => by
      rw [RoundingAbsorbed]
      decide

/-- A thousand units on each side, one sold: the quote is a unit of the fifteenth decimal too much, and the
product falls. -/
theorem balancer_weighted_product_falls :
    getBalancerWeightedAmountOut (evenWeightPool 1000000000000000000000 1000000000000000000000)
        1000000000000000000 0 1 = 999000999001000000 ∧
      ¬ (1000000000000000000000 : U256).toNat * (1000000000000000000000 : U256).toNat ≤
        ((1000000000000000000000 : U256).toNat + (1000000000000000000 : U256).toNat) *
          ((1000000000000000000000 : U256).toNat -
            (getBalancerWeightedAmountOut
              (evenWeightPool 1000000000000000000000 1000000000000000000000)
              1000000000000000000 0 1).toNat) := by
  constructor <;> decide

end Pool

end PolygonArb

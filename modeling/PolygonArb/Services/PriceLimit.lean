import PolygonArb.Pipeline.ExecutionQuote
import PolygonArb.Services.RouteEncoding

/-!
# The tight price limit

`derive_tight_v3_price_limit` of `quote.rs` against the swap it is derived from: a limit that is
returned lies inside the price range and does not stop the swap before the price it was simulated to
(`deriveTightV3PriceLimit_fills_iff`).

The one exception is a tickless pool at the lowest price.  There the branch for tickless pools answers
with the end of the range, one above the pool's own price, without asking whether the price moved.
-/

namespace PolygonArb

open Word Loop Encode V3SwapContext

/-! ## The walk of a tickless pool -/

section Tickless

variable {s : ConcentratedLiquidityPoolState} {z : Bool} {fee a : U256}

lemma nextTick_synthetic {cx : V3SwapContext} (hticks : cx.ticks = []) (tick : ℤ) :
    (cx.nextTick tick).2 = true := by
  simp [V3SwapContext.nextTick, nextInitializedTickWithNet, hticks, V3SwapContext.hasTicks]

/-- Without ticks every walk is over after one iteration: its bound is synthetic. -/
lemma walk_tickless_price (hticks : s.ticks = []) (ha : a ≠ 0) :
    (repeatLoop (swapContext s z fee).walkStep maxIterations (initialWalk s a)).sqrtPriceX96 =
      (((swapContext s z fee).swapStep (initialWalk s a)).map
        SwapStepResult.sqrtRatioNextX96).getD s.sqrtPriceX96 := by
  have hremaining : (initialWalk s a).amountRemaining ≠ 0 := ha
  cases hstep : (swapContext s z fee).swapStep (initialWalk s a) with
  | none =>
      rcases walkStep_of_none hremaining hstep with ⟨w, hw, hprice, -⟩
      rw [maxIterations, repeatLoop_of_break hw, hprice]
      rfl
  | some st =>
      have hover : ¬ GoesOn (swapContext s z fee) (initialWalk s a) st := by
        rintro ⟨-, hreal, -⟩
        rw [nextTick_synthetic hticks] at hreal
        cases hreal
      rcases afterStep_of_not_goesOn hover with ⟨w, hw⟩
      have hprice := (afterStep_state (swapContext s z fee) (initialWalk s a) st).1
      rw [hw] at hprice
      rw [maxIterations, repeatLoop_of_break ((walkStep_of_some hremaining hstep).trans hw)]
      exact hprice

/-- The price a tickless walk heads for. -/
abbrev ticklessTarget (s : ConcentratedLiquidityPoolState) (z : Bool) (fee : U256) : U256 :=
  (swapContext s z fee).sqrtRatioTargetX96 s.tick

lemma lt_ticklessTarget (hz : z = true) : minSqrtRatio.toNat < (ticklessTarget s z fee).toNat := by
  have hlimit : sqrtPriceLimitZeroForOne.toNat = minSqrtRatio.toNat + 1 := by decide
  subst hz
  rw [ticklessTarget, V3SwapContext.sqrtRatioTargetX96, if_pos (by rfl), toNat_max]
  change minSqrtRatio.toNat < max _ sqrtPriceLimitZeroForOne.toNat
  omega

lemma ticklessTarget_lt (hz : z = false) : (ticklessTarget s z fee).toNat < maxSqrtRatio.toNat := by
  have hlimit : maxSqrtRatioExclusive.toNat + 1 = maxSqrtRatio.toNat := by decide
  subst hz
  rw [ticklessTarget, V3SwapContext.sqrtRatioTargetX96, if_neg (by simp [swapContext]), toNat_min]
  change min _ maxSqrtRatioExclusive.toNat < maxSqrtRatio.toNat
  omega

lemma toNat_initialLiquidity (hd : swapDisabled s fee = false) :
    (BitVec.ofNat 256 (max (initialWalk s a).liquidity 0).toNat).toNat = s.liquidity := by
  simp only [swapDisabled, Bool.or_eq_false_iff, decide_eq_false_iff_not, not_le] at hd
  rw [BitVec.toNat_ofNat]
  simp only [initialWalk]
  rw [max_eq_left (by omega), Int.toNat_natCast, Nat.mod_eq_of_lt (by omega)]

lemma swap_inRange (hd : swapDisabled s fee = false) :
    LiquidityInRange (BitVec.ofNat 256 (max (initialWalk s a).liquidity 0).toNat) ∧
      InRange s.sqrtPriceX96 ∧ InRange (ticklessTarget s z fee) ∧ fee.toNat < 1000000 :=
  ⟨(walkOk_initialWalk hd).liquidityInRange, (walkOk_initialWalk (a := 0) hd).price,
    inRange_target (valid_swapContext hd) s.tick, (valid_swapContext (z := z) hd).fee⟩

/-- The walk ends between the pool's price and the one it heads for. -/
lemma walk_tickless_onTheWay (hticks : s.ticks = []) (ha : a ≠ 0) (hd : swapDisabled s fee = false) :
    OnTheWay s.sqrtPriceX96
      (repeatLoop (swapContext s z fee).walkStep maxIterations (initialWalk s a)).sqrtPriceX96
      (ticklessTarget s z fee) := by
  rw [walk_tickless_price hticks ha]
  rcases swap_inRange (a := a) (z := z) hd with ⟨hl, hp, ht, hfee⟩
  cases hstep : (swapContext s z fee).swapStep (initialWalk s a) with
  | none =>
      rw [Option.map_none, Option.getD_none, OnTheWay]
      split_ifs with h <;> rw [le_iff] at h <;> omega
  | some st => exact computeSwapStep_onTheWay hl hp ht hfee ha hstep

/-- A step upward stays where it is when what is left after the fee is worth less than one price
step. -/
lemma computeSwapStep_stuck_iff {p t l r : U256} (hl : LiquidityInRange l) (hp : InRange p)
    (ht : InRange t) (hfee : fee.toNat < 1000000) (hr : r ≠ 0) (hup : p.toNat < t.toNat) :
    ((computeSwapStep p t l r fee).map SwapStepResult.sqrtRatioNextX96).getD p = p ↔
      lessFee fee r * 2 ^ 96 < l.toNat := by
  have hup' : ¬ t ≤ p := by
    rw [le_iff]
    omega
  rcases Nat.eq_zero_or_pos (lessFee fee r) with hzero | hpos
  · have hnone : computeSwapStep p t l r fee = none := by
      cases hstep : computeSwapStep p t l r fee with
      | none => rfl
      | some st =>
          have := lessFee_pos hfee hr hstep
          omega
    rw [hnone, hzero, Nat.zero_mul]
    exact iff_of_true rfl hl.1
  · rcases Nat.lt_or_ge (lessFee fee r) (stepAmountIn p t l) with hshort | hreach
    · rcases computeSwapStep_short hl hp ht hfee hr hpos hshort with ⟨st, hstep, hprice, -, -, -⟩
      rw [hstep, Option.map_some, Option.getD_some, ← BitVec.toNat_inj, hprice]
      simp only [stepPrice, hup', decide_false, Bool.false_eq_true, if_false]
      rw [Nat.add_eq_left, Nat.div_eq_zero_iff_lt hl.1]
    · rcases computeSwapStep_reached hl hp ht hfee with ⟨st, hprice, -, hall⟩
      rw [hall r hr hpos hreach, Option.map_some, Option.getD_some, hprice]
      refine iff_of_false (fun h => by rw [h] at hup; omega) ?_
      rw [stepAmountIn, if_neg (by omega), amount1Ceil, ge_iff_le,
        ceilDiv_le_iff_le_mul (by norm_num)] at hreach
      have hone : l.toNat * 1 ≤ l.toNat * (t.toNat - p.toNat) := Nat.mul_le_mul_left _ (by omega)
      omega

/-- At the lowest price a zero-for-one walk would have to turn round, and dust leaves it there. -/
lemma walk_tickless_stuck_iff (hticks : s.ticks = []) (ha : a ≠ 0) (hd : swapDisabled s fee = false)
    (hfloor : s.sqrtPriceX96 = minSqrtRatio) :
    (repeatLoop (swapContext s true fee).walkStep maxIterations (initialWalk s a)).sqrtPriceX96 =
        minSqrtRatio ↔ lessFee fee a * 2 ^ 96 < s.liquidity := by
  rcases swap_inRange (a := a) (z := true) hd with ⟨hl, hp, ht, hfee⟩
  have hup : s.sqrtPriceX96.toNat < (ticklessTarget s true fee).toNat := by
    rw [hfloor]
    exact lt_ticklessTarget rfl
  rw [walk_tickless_price hticks ha, ← hfloor, ← toNat_initialLiquidity (a := a) hd]
  exact computeSwapStep_stuck_iff hl hp ht hfee ha hup

end Tickless

/-! ## The limit -/

/-- A limit inside the price range that a swap to `after` does not reach before it is done. -/
structure Fills (zeroForOne : Bool) (after limit : U256) : Prop where
  above : minSqrtRatio < limit
  below : limit < maxSqrtRatio
  beyond : if zeroForOne then limit ≤ after else after ≤ limit

/-- Dust sold zero-for-one into a tickless pool at the lowest price, where the walk stays. -/
structure StuckAtFloor (s : ConcentratedLiquidityPoolState) (zeroForOne : Bool) (fee a : U256) :
    Prop where
  zeroForOne : zeroForOne = true
  tickless : s.ticks = []
  floor : s.sqrtPriceX96 = minSqrtRatio
  amount : a ≠ 0
  enabled : swapDisabled s fee = false
  dust : lessFee fee a * 2 ^ 96 < s.liquidity

section Limit

variable {state : ConcentratedLiquidityPoolState} {amountIn quotedOut limit : U256} {zeroForOne : Bool}
  {edgeFeeBps : ℕ} {slippageBps : BitVec 64} {explicitFeePips : Option ℕ} {allowZeroPoolFee : Bool}
  {sim : V3SwapResult}

@[simp] lemma ticks_limitPool : (limitPool state explicitFeePips).ticks = state.ticks := by
  cases explicitFeePips <;> rfl

@[simp] lemma sqrtPriceX96_limitPool :
    (limitPool state explicitFeePips).sqrtPriceX96 = state.sqrtPriceX96 := by
  cases explicitFeePips <;> rfl

/-- The end of the price range in the swap's direction. -/
def fullRangeLimit (zeroForOne : Bool) : U256 :=
  if zeroForOne then minSqrtRatio + 1#256 else maxSqrtRatioExclusive

/-- The simulated price moved on by half the slippage, cut to the range. -/
def slippedLimit (zeroForOne : Bool) (slippageBps : BitVec 64) (after : U256) : U256 :=
  if zeroForOne then
    max (after * (20000#256 - slippageBps.setWidth 256) / 20000#256) (minSqrtRatio + 1#256)
  else min (after * (20000#256 + slippageBps.setWidth 256) / 20000#256) maxSqrtRatioExclusive

/-- The price moved in the direction of the swap, and stayed inside the range. -/
def MovedInside (zeroForOne : Bool) (before after : U256) : Prop :=
  if zeroForOne then after < before ∧ minSqrtRatio < after
  else before < after ∧ after < maxSqrtRatio

/-- The two ways a limit is returned. -/
lemma deriveTightV3PriceLimit_returns
    (hsim : simulateV3Swap (limitPool state explicitFeePips) amountIn zeroForOne
      (limitEdgeFee edgeFeeBps explicitFeePips) allowZeroPoolFee = some sim)
    (hquoted : quotedOut ≠ 0) :
    Returns (deriveTightV3PriceLimit state amountIn quotedOut zeroForOne edgeFeeBps slippageBps
        explicitFeePips allowZeroPoolFee) limit ↔
      (sim.shallow = true ∧ state.ticks = [] ∧ fullRangeLimit zeroForOne = limit) ∨
      (sim.shallow = false ∧ sim.synthetic = false ∧
        ¬ (sim.sqrtPriceX96After < minSqrtRatio ∨ maxSqrtRatio ≤ sim.sqrtPriceX96After) ∧
        MovedInside zeroForOne state.sqrtPriceX96 sim.sqrtPriceX96After ∧
        slippedLimit zeroForOne slippageBps sim.sqrtPriceX96After = limit) := by
  have hlift : ∀ r, Returns (ExceptT.lift (simulateV3Swap (limitPool state explicitFeePips) amountIn
      zeroForOne (limitEdgeFee edgeFeeBps explicitFeePips) allowZeroPoolFee)) r ↔ sim = r := by
    intro r
    rw [returns_lift, hsim, Option.some_inj]
  rw [deriveTightV3PriceLimit, returns_bind]
  simp only [hlift, exists_eq_left']
  cases hshallow : sim.shallow with
  | true =>
      simp only [if_true, Bool.true_eq_false, false_and, or_false, true_and]
      cases hticks : state.ticks with
      | nil =>
          rw [List.isEmpty_nil, Bool.true_and, if_pos (decide_eq_true hquoted), returns_pure]
          simp [fullRangeLimit]
      | cons tick ticks => simp
  | false =>
      simp only [Bool.false_eq_true, if_false, false_and, false_or, true_and, returns_guard,
        Bool.not_eq_true, hquoted, ne_eq, not_false_eq_true, and_true, MovedInside, slippedLimit]
      cases zeroForOne <;> simp

lemma movedInside_iff_toNat {before after : U256} :
    MovedInside zeroForOne before after ↔
      if zeroForOne then after.toNat < before.toNat ∧ minSqrtRatio.toNat < after.toNat
      else before.toNat < after.toNat ∧ after.toNat < maxSqrtRatio.toNat := by
  cases zeroForOne <;> simp [MovedInside, lt_iff]

lemma toNat_slippage (slippageBps : BitVec 64) :
    (slippageBps.setWidth 256).toNat = slippageBps.toNat :=
  toNat_widen (by norm_num) slippageBps

/-- Half the slippage below a price, and not below the range. -/
lemma toNat_slippedLimit_down {after : U256} (hslip : slippageBps.toNat < 10000)
    (hafter : after.toNat < 2 ^ 160) :
    (slippedLimit true slippageBps after).toNat =
      max (after.toNat * (20000 - slippageBps.toNat) / 20000) (minSqrtRatio.toNat + 1) := by
  have hslip_eq := toNat_slippage slippageBps
  have hfloor : (minSqrtRatio + 1#256).toNat = minSqrtRatio.toNat + 1 := by decide
  have hfactor : (20000#256 - slippageBps.setWidth 256).toNat = 20000 - slippageBps.toNat := by
    rw [toNat_sub_of_le (by rw [hslip_eq]; simp; omega), hslip_eq]
    rfl
  have hprod : after.toNat * (20000 - slippageBps.toNat) < 2 ^ 256 :=
    calc after.toNat * (20000 - slippageBps.toNat)
        ≤ 2 ^ 160 * 20000 := Nat.mul_le_mul hafter.le (Nat.sub_le _ _)
      _ < 2 ^ 256 := by norm_num
  rw [slippedLimit, if_pos rfl, toNat_max, BitVec.toNat_udiv, toNat_mul_of_lt (by rwa [hfactor]),
    hfactor, hfloor]
  rfl

/-- Half the slippage above a price, and not above the range. -/
lemma toNat_slippedLimit_up {after : U256} (hslip : slippageBps.toNat < 10000)
    (hafter : after.toNat < 2 ^ 160) :
    (slippedLimit false slippageBps after).toNat =
      min (after.toNat * (20000 + slippageBps.toNat) / 20000) maxSqrtRatioExclusive.toNat := by
  have hslip_eq := toNat_slippage slippageBps
  have hfactor : (20000#256 + slippageBps.setWidth 256).toNat = 20000 + slippageBps.toNat := by
    rw [BitVec.toNat_add, hslip_eq]
    simp only [BitVec.toNat_ofNat]
    omega
  have hprod : after.toNat * (20000 + slippageBps.toNat) < 2 ^ 256 :=
    calc after.toNat * (20000 + slippageBps.toNat)
        ≤ 2 ^ 160 * 30000 := Nat.mul_le_mul hafter.le (by omega)
      _ < 2 ^ 256 := by norm_num
  rw [slippedLimit, if_neg (by simp), toNat_min, BitVec.toNat_udiv,
    toNat_mul_of_lt (by rwa [hfactor]), hfactor]
  rfl

/-- Half the slippage moves a limit away from the price, and the cut brings it back inside the range. -/
lemma fills_slippedLimit {before after : U256} (hslip : slippageBps.toNat < 10000)
    (hbefore : minSqrtRatio.toNat ≤ before.toNat ∧ before.toNat < maxSqrtRatio.toNat)
    (hmoved : MovedInside zeroForOne before after) :
    Fills zeroForOne after (slippedLimit zeroForOne slippageBps after) := by
  rw [movedInside_iff_toNat] at hmoved
  have hceiling : maxSqrtRatioExclusive.toNat + 1 = maxSqrtRatio.toNat := by decide
  have hmax : maxSqrtRatio.toNat < 2 ^ 160 := by decide
  cases zeroForOne with
  | true =>
      simp only [if_true] at hmoved
      have hlimit := @toNat_slippedLimit_down slippageBps after hslip (by omega)
      have hquot : after.toNat * (20000 - slippageBps.toNat) / 20000 ≤ after.toNat := by
        refine Nat.div_le_of_le_mul ?_
        rw [Nat.mul_comm 20000]
        exact Nat.mul_le_mul_left _ (Nat.sub_le _ _)
      refine ⟨?_, ?_, ?_⟩
      · rw [lt_iff, hlimit]
        omega
      · rw [lt_iff, hlimit]
        omega
      · rw [if_pos rfl, le_iff, hlimit]
        omega
  | false =>
      simp only [Bool.false_eq_true, if_false] at hmoved
      have hlimit := @toNat_slippedLimit_up slippageBps after hslip (by omega)
      have hquot : after.toNat ≤ after.toNat * (20000 + slippageBps.toNat) / 20000 := by
        rw [Nat.le_div_iff_mul_le (by norm_num)]
        exact Nat.mul_le_mul_left _ (Nat.le_add_right _ _)
      refine ⟨?_, ?_, ?_⟩
      · rw [lt_iff, hlimit]
        omega
      · rw [lt_iff, hlimit]
        omega
      · rw [if_neg (by simp), le_iff, hlimit]
        omega

/-- A swap that is enabled starts inside the price range. -/
lemma price_mem_of_enabled {s : ConcentratedLiquidityPoolState} {fee : U256}
    (hd : swapDisabled s fee = false) :
    minSqrtRatio.toNat ≤ s.sqrtPriceX96.toNat ∧ s.sqrtPriceX96.toNat < maxSqrtRatio.toNat := by
  simp only [swapDisabled, Bool.or_eq_false_iff, decide_eq_false_iff_not, not_le, not_lt, lt_iff,
    le_iff] at hd
  omega

/-- The end of the range is beyond every tickless walk but one that is stuck at the other end. -/
lemma fills_fullRangeLimit {s : ConcentratedLiquidityPoolState} {fee a : U256} (hticks : s.ticks = [])
    (ha : a ≠ 0) (hd : swapDisabled s fee = false) (hfree : ¬ StuckAtFloor s zeroForOne fee a) :
    Fills zeroForOne
      (repeatLoop (swapContext s zeroForOne fee).walkStep maxIterations (initialWalk s a)).sqrtPriceX96
      (fullRangeLimit zeroForOne) := by
  have hway := walk_tickless_onTheWay (z := zeroForOne) hticks ha hd
  have hprice := price_mem_of_enabled hd
  have hfloor : (minSqrtRatio + 1#256).toNat = minSqrtRatio.toNat + 1 := by decide
  have hceiling : maxSqrtRatioExclusive.toNat + 1 = maxSqrtRatio.toNat := by decide
  simp only [OnTheWay, le_iff] at hway
  cases zeroForOne with
  | true =>
      refine ⟨by decide, by decide, ?_⟩
      rw [if_pos rfl, fullRangeLimit, if_pos rfl, le_iff, hfloor]
      have htarget : minSqrtRatio.toNat < (ticklessTarget s true fee).toNat := lt_ticklessTarget rfl
      by_cases hedge : s.sqrtPriceX96 = minSqrtRatio
      · have hmoves : (repeatLoop (swapContext s true fee).walkStep maxIterations
            (initialWalk s a)).sqrtPriceX96 ≠ minSqrtRatio := by
          intro hstuck
          exact hfree ⟨rfl, hticks, hedge, ha, hd, (walk_tickless_stuck_iff hticks ha hd hedge).mp hstuck⟩
        rw [Ne, ← BitVec.toNat_inj] at hmoves
        rw [hedge, if_neg (by omega)] at hway
        omega
      · rw [← BitVec.toNat_inj] at hedge
        split_ifs at hway <;> omega
  | false =>
      refine ⟨by decide, by decide, ?_⟩
      rw [if_neg (by simp), fullRangeLimit, if_neg (by simp), le_iff]
      have htarget : (ticklessTarget s false fee).toNat < maxSqrtRatio.toNat := ticklessTarget_lt rfl
      split_ifs at hway <;> omega

end Limit

section Claim

variable (state : ConcentratedLiquidityPoolState) (amountIn quotedOut : U256) (zeroForOne : Bool)
  (edgeFeeBps : ℕ) (slippageBps : BitVec 64) (explicitFeePips : Option ℕ) (allowZeroPoolFee : Bool)

/-- A limit that is returned lies inside the price range and leaves the simulated swap its whole way,
unless dust is sold zero-for-one into a tickless pool at the lowest price. -/
theorem deriveTightV3PriceLimit_fills_iff (hslip : slippageBps.toNat < 10000) (hquoted : quotedOut ≠ 0) :
    (∀ sim limit, simulateV3Swap (limitPool state explicitFeePips) amountIn zeroForOne
          (limitEdgeFee edgeFeeBps explicitFeePips) allowZeroPoolFee = some sim →
        Returns (deriveTightV3PriceLimit state amountIn quotedOut zeroForOne edgeFeeBps slippageBps
          explicitFeePips allowZeroPoolFee) limit →
        Fills zeroForOne sim.sqrtPriceX96After limit) ↔
      ∀ fee, swapFeePips (limitPool state explicitFeePips) zeroForOne
          (limitEdgeFee edgeFeeBps explicitFeePips) allowZeroPoolFee = some fee →
        ¬ StuckAtFloor (limitPool state explicitFeePips) zeroForOne fee amountIn := by
  constructor
  · intro hfills fee hfee hstuck
    have hrun : ∃ sim, simulateV3Swap (limitPool state explicitFeePips) amountIn zeroForOne
        (limitEdgeFee edgeFeeBps explicitFeePips) allowZeroPoolFee = some sim := by
      rw [simulateV3Swap, hfee]
      simp only [Option.bind_eq_bind, Option.bind_some]
      split_ifs <;> exact ⟨_, rfl⟩
    rcases hrun with ⟨sim, hsim⟩
    rcases simulateV3Swap_eq_some hsim with ⟨fee', hfee', ⟨hidle, -⟩ | ⟨-, -, w, rfl, hafter, -, hshallow⟩⟩
    · rw [hfee] at hfee'
      cases hfee'
      rcases hidle with hzero | hdisabled
      · exact hstuck.amount hzero
      · rw [hstuck.enabled] at hdisabled
        cases hdisabled
    · rw [hfee] at hfee'
      cases hfee'
      have hbeyond := (hfills sim (fullRangeLimit zeroForOne) hsim
        ((deriveTightV3PriceLimit_returns hsim hquoted).mpr
          (.inl ⟨by rw [hshallow, hstuck.tickless]; rfl, by simpa using hstuck.tickless, rfl⟩))).beyond
      rcases hstuck with ⟨rfl, hticks, hedge, ha, hd, hdust⟩
      rw [hafter, (walk_tickless_stuck_iff hticks ha hd hedge).mpr hdust] at hbeyond
      exact absurd hbeyond (by decide)
  · intro hfree sim limit hsim hlimit
    rcases simulateV3Swap_eq_some hsim with ⟨fee, hfee, ⟨-, rfl⟩ | ⟨ha, hd, w, rfl, hafter, -, -⟩⟩
    · rcases (deriveTightV3PriceLimit_returns hsim hquoted).mp hlimit with
        ⟨hshallow, -, -⟩ | ⟨-, -, -, hmoved, -⟩
      · cases hshallow
      · -- nothing moved
        rw [movedInside_iff_toNat, sqrtPriceX96_limitPool] at hmoved
        dsimp only at hmoved
        split_ifs at hmoved <;> omega
    · rcases (deriveTightV3PriceLimit_returns hsim hquoted).mp hlimit with
        ⟨-, hticks, rfl⟩ | ⟨-, -, -, hmoved, rfl⟩
      · rw [hafter]
        exact fills_fullRangeLimit (by simpa using hticks) ha hd (hfree fee hfee)
      · refine fills_slippedLimit hslip ?_ hmoved
        simpa using price_mem_of_enabled hd

end Claim

/-- A pool whose ticks are loaded, with half a percent of slippage: the limit is a quarter of a percent
below the price the swap ends at. -/
theorem deriveTightV3PriceLimit_fills_loaded :
    Fills true 79228083523865064300074843162#256 79030013315055401639324656054#256 := by
  have hsim : (simulateV3Swap (limitPool (poolAtPriceOne 0 [⟨-60, 10, 10⟩, ⟨60, 10, -10⟩]) (some 3000))
      1000000#256 true (limitEdgeFee 30 (some 3000)) false).map V3SwapResult.sqrtPriceX96After =
        some 79228083523865064300074843162#256 := by
    decide
  rcases Option.map_eq_some_iff.mp hsim with ⟨sim, hsim, hafter⟩
  rw [← hafter]
  refine (deriveTightV3PriceLimit_fills_iff _ 1000000#256 996999#256 true 30 50#64 (some 3000) false
    (by decide) (by decide)).mpr ?_ sim _ hsim rfl
  intro fee _ hstuck
  exact absurd hstuck.tickless (by decide)

/-- A tickless pool at the lowest price. -/
def floorPool : ConcentratedLiquidityPoolState :=
  { poolAtPriceOne minTick [] with
    sqrtPriceX96 := minSqrtRatio
    liquidity := 2 ^ 100 }

/-- Ten units do not move the pool, and the limit is one above its price. -/
theorem deriveTightV3PriceLimit_floor :
    ∃ sim, simulateV3Swap (limitPool floorPool (some 3000)) 10#256 true (limitEdgeFee 30 (some 3000))
        false = some sim ∧
      sim.sqrtPriceX96After = 4295128739#256 ∧
      Returns (deriveTightV3PriceLimit floorPool 10#256 1#256 true 30 50#64 (some 3000) false)
        4295128740#256 ∧
      ¬ Fills true sim.sqrtPriceX96After 4295128740#256 := by
  have hsim : (simulateV3Swap (limitPool floorPool (some 3000)) 10#256 true
      (limitEdgeFee 30 (some 3000)) false).map V3SwapResult.sqrtPriceX96After =
        some 4295128739#256 := by
    decide
  rcases Option.map_eq_some_iff.mp hsim with ⟨sim, hsim, hafter⟩
  refine ⟨sim, hsim, hafter, rfl, fun hfills => ?_⟩
  have hbeyond := hfills.beyond
  rw [hafter] at hbeyond
  exact absurd hbeyond (by decide)

end PolygonArb

import PolygonArb.Services.Profit

/-!
# The profit gate over the unbounded integers

What a route earns, with no word size: `exactTokenNet` in start tokens, `exactPreTipNet` and
`exactNetMatic` in MATIC wei.  `ExecutionSound` is what an executed route is promised, and
`assessProfit_sound` says that the gate keeps the promise.

Each operation of the gate gets one lemma that gives its value over the naturals.  The saturating
operations are harmless with one exception, the sum of profit and input: for a slippage of 9999
basis points the clamped sum survives the checked product that follows.
-/

namespace PolygonArb

open Word

/-! ## Exact figures -/

/-- Flash premium: Balancer rounds up, Aave rounds half up. -/
def exactFlashFee (fees : FlashFees) (source : FlashLoanSource) (amount : ℕ) : ℕ :=
  match source with
  | .balancer => (amount * fees.balancerFlashLoanFeePct1e18.toNat) ⌈/⌉ 10 ^ 18
  | .aaveV3 => (amount * fees.aaveFlashLoanFeeBps.toNat + 5000) / 10000
  | .dodo => 0
  | .direct => 0

def exactAdjustedOut (input : AssessProfitInput) : ℕ :=
  (input.grossProfit.toNat + input.amountIn.toNat) * (10000 - input.slippageBps.toNat) / 10000

def exactGasCost (input : AssessProfitInput) : ℕ :=
  input.gasUnits.toNat * input.gasPriceWei.toNat

/-- Start tokens left after slippage, repayment, flash fee and gas rounded up. -/
def exactTokenNet (fees : FlashFees) (input : AssessProfitInput) : ℤ :=
  exactAdjustedOut input - input.amountIn.toNat
    - exactFlashFee fees input.flashLoanSource input.amountIn.toNat
    - ((exactGasCost input * 10 ^ input.tokenDecimals.toNat) ⌈/⌉ input.tokenToMaticRate.toNat : ℕ)

/-- MATIC net after the flash fee and the gas, before the tip. -/
def exactPreTipNet (fees : FlashFees) (input : AssessProfitInput) : ℤ :=
  (exactAdjustedOut input - input.amountIn.toNat) * input.tokenToMaticRate.toNat
      / 10 ^ input.tokenDecimals.toNat
    - ((exactFlashFee fees input.flashLoanSource input.amountIn.toNat
        * input.tokenToMaticRate.toNat) ⌈/⌉ 10 ^ input.tokenDecimals.toNat : ℕ)
    - exactGasCost input

/-- The tip is a share of the net, at most 200 gwei per gas; only what exceeds the charged tip
counts. -/
def exactUplift (net alphaBps gasUnits charged : ℕ) : ℕ :=
  (min (net * alphaBps / 10000 / gasUnits) 200000000000 - max charged 25000000000) * gasUnits

def exactNetMatic (fees : FlashFees) (input : AssessProfitInput) : ℤ :=
  exactPreTipNet fees input
    - exactUplift (exactPreTipNet fees input).toNat input.profitPriorityAlphaBps.toNat
        input.gasUnits.toNat input.chargedPriorityFeePerGas.toNat

/-- What an executed route is promised. -/
structure ExecutionSound (fees : FlashFees) (input : AssessProfitInput) : Prop where
  tokenNet_pos : 0 < exactTokenNet fees input
  min_le : (max input.minProfitMaticWei.toNat 1 : ℤ) ≤ exactNetMatic fees input
  le_cap : exactNetMatic fees input ≤ 10 ^ 18
  floor_le : ((exactGasCost input * input.safetyMultiplierBps.toNat / 10000 : ℕ) : ℤ) ≤
    exactPreTipNet fees input

/-! ## The operations over the naturals -/

lemma toNat_bpsScale : bpsScale.toNat = 10000 := rfl

lemma bind_ok {α β : Type} {x : Except String α} {k : α → Except String β} {b : β}
    (h : (x >>= k) = .ok b) : ∃ a, x = .ok a ∧ k a = .ok b := by
  cases x with
  | error reason => cases h
  | ok a => exact ⟨a, rfl, h⟩

lemma orReject_ok {α : Type} {x : Option α} {reason : String} {a : α}
    (h : orReject x reason = .ok a) : x = some a := by
  cases x with
  | none => cases h
  | some b => rw [Except.ok.inj h]

lemma toNat_tenPowU256 {d : ℕ} (h : d ≤ 30) : (tenPowU256 d).toNat = 10 ^ d := by
  rw [tenPowU256, BitVec.toNat_ofNat]
  apply Nat.mod_eq_of_lt
  calc 10 ^ d ≤ 10 ^ 30 := Nat.pow_le_pow_right (by norm_num) h
    _ < 2 ^ 256 := by norm_num

/-- The increment of the quotient never saturates: it happens for divisors from two on. -/
lemma ceilDiv_toNat {a b c : U256} (h : ceilDiv a b = some c) : c.toNat = a.toNat ⌈/⌉ b.toNat := by
  rw [ceilDiv] at h
  split at h
  · cases h
  · rename_i hb
    have hpos : 0 < b.toNat := Nat.pos_of_ne_zero fun h0 => hb (eq_zero_iff.2 h0)
    have hdiv := Nat.div_add_mod' a.toNat b.toNat
    have hmod := Nat.mod_lt a.toNat hpos
    have ha := toNat_lt a
    rw [Nat.ceilDiv_eq_add_pred_div, ← Option.some.inj h]
    symm
    split
    · rename_i hr
      have hr0 : a.toNat % b.toNat = 0 := by
        rw [← BitVec.toNat_umod]
        exact eq_zero_iff.1 hr
      rw [BitVec.toNat_udiv]
      refine Nat.div_eq_of_lt_le (by omega) ?_
      rw [add_mul]
      omega
    · rename_i hr
      have hr0 : 0 < a.toNat % b.toNat := by
        rw [← BitVec.toNat_umod]
        exact Nat.pos_of_ne_zero fun h0 => hr (eq_zero_iff.2 h0)
      have hq : a.toNat / b.toNat * 2 ≤ a.toNat / b.toNat * b.toNat :=
        Nat.mul_le_mul_left _ (by omega)
      rw [toNat_saturatingAdd, BitVec.toNat_udiv, min_eq_left (by norm_num; omega)]
      refine Nat.div_eq_of_lt_le ?_ ?_ <;> rw [add_mul] <;> norm_num
      · omega
      · rw [add_mul]
        omega

lemma balancerMulUp_toNat {amount pct fee : U256} (h : balancerMulUp amount pct = some fee) :
    fee.toNat = (amount.toNat * pct.toNat) ⌈/⌉ 10 ^ 18 := by
  rw [balancerMulUp] at h
  split at h
  · rename_i h0
    rw [← Option.some.inj h]
    rcases h0 with rfl | rfl <;> simp
  · rename_i h0
    rw [Option.map_eq_some_iff] at h
    rcases h with ⟨product, hp, rfl⟩
    have hp := checkedMul_eq_some.1 hp
    have hlt := toNat_lt product
    have hpos : 0 < product.toNat := by
      rw [hp]
      apply Nat.mul_pos <;> apply Nat.pos_of_ne_zero <;> intro hz
      · exact h0 (Or.inl (eq_zero_iff.2 hz))
      · exact h0 (Or.inr (eq_zero_iff.2 hz))
    rw [← hp, Nat.ceilDiv_eq_add_pred_div, BitVec.toNat_add, BitVec.toNat_udiv,
      toNat_sub_of_le (show (1#256).toNat ≤ product.toNat from hpos)]
    change ((product.toNat - 1) / 10 ^ 18 + 1) % 2 ^ 256 = _
    omega

lemma aavePercentMul_toNat {value fee : U256} {bps : BitVec 64}
    (h : aavePercentMul value bps = some fee) :
    fee.toNat = (value.toNat * bps.toNat + 5000) / 10000 := by
  rw [aavePercentMul] at h
  split at h
  · rename_i h0
    rw [← Option.some.inj h, h0]
    simp
  · simp only [Option.bind_eq_bind, Option.bind_eq_some_iff, Option.map_eq_some_iff] at h
    rcases h with ⟨product, hp, sum, hs, rfl⟩
    rw [BitVec.toNat_udiv, checkedAdd_eq_some.1 hs, checkedMul_eq_some.1 hp,
      toNat_widen (by norm_num)]
    rfl

lemma flashLoanFeeAmount_toNat {fees : FlashFees} {source : FlashLoanSource} {amount fee : U256}
    (h : flashLoanFeeAmount fees source amount = some fee) :
    fee.toNat = exactFlashFee fees source amount.toNat := by
  cases source with
  | balancer =>
      rw [balancerMulUp_toNat h, toNat_widen (by norm_num)]
      rfl
  | aaveV3 => exact aavePercentMul_toNat h
  | dodo =>
      rw [← Option.some.inj h]
      rfl
  | direct =>
      rw [← Option.some.inj h]
      rfl

/-- The product saturates only far above the cap of the tip, so the tip is exact. -/
lemma profitPriorityTipPerGas_toNat (net : U256) (alpha : BitVec 64) (gas : BitVec 32) :
    (profitPriorityTipPerGas net alpha gas).toNat =
      min (net.toNat * alpha.toNat / 10000 / gas.toNat) 200000000000 := by
  rw [profitPriorityTipPerGas]
  split
  · rename_i h0
    rcases h0 with rfl | rfl | rfl <;> simp
  · rename_i h0
    have hgas := gas.isLt
    have hpos : 0 < gas.toNat :=
      Nat.pos_of_ne_zero fun hz => h0 (Or.inr (Or.inl (BitVec.eq_of_toNat_eq hz)))
    change (min _ maxProfitPriorityFeeWei).toNat = _
    rw [toNat_min, BitVec.toNat_udiv, BitVec.toNat_udiv, toNat_saturatingMul, toNat_bpsScale,
      toNat_widen (by norm_num), toNat_widen (by norm_num)]
    change min _ 200000000000 = _
    rcases le_or_gt (net.toNat * alpha.toNat) (2 ^ 256 - 1) with hle | hgt
    · rw [min_eq_left hle]
    · rw [min_eq_right hgt.le]
      have hsat : 200000000000 ≤ (2 ^ 256 - 1) / 10000 / gas.toNat :=
        (show 200000000000 ≤ (2 ^ 256 - 1) / 10000 / 2 ^ 32 by norm_num).trans
          (Nat.div_le_div_left hgas.le hpos)
      rw [min_eq_right hsat, min_eq_right (hsat.trans
        (Nat.div_le_div_right (Nat.div_le_div_right hgt.le)))]

lemma profitPriorityUpliftWei_toNat (net : U256) (alpha : BitVec 64) (gas : BitVec 32)
    (charged : U256) :
    (profitPriorityUpliftWei net alpha gas charged).toNat =
      exactUplift net.toNat alpha.toNat gas.toNat charged.toNat := by
  have hgas := gas.isLt
  change (saturatingMul (saturatingSub _ _) _).toNat = _
  rw [toNat_saturatingMul, toNat_saturatingSub, profitPriorityTipPerGas_toNat, toNat_max,
    toNat_widen (by norm_num)]
  apply min_eq_left
  calc _ ≤ 200000000000 * 2 ^ 32 := by
        apply Nat.mul_le_mul _ hgas.le
        omega
    _ ≤ 2 ^ 256 - 1 := by norm_num

lemma exactUplift_le (net alpha gas charged : ℕ) :
    exactUplift net alpha gas charged ≤ 200000000000 * gas := by
  rw [exactUplift]
  apply Nat.mul_le_mul_right
  omega

/-- A floor below the largest scaled word has not saturated. -/
lemma safetyFloorMaticWei_toNat {penalty : U256} {bps : BitVec 64}
    (h : (safetyFloorMaticWei penalty bps).toNat < (2 ^ 256 - 1) / 10000) :
    (safetyFloorMaticWei penalty bps).toNat = penalty.toNat * bps.toNat / 10000 := by
  rw [safetyFloorMaticWei] at h ⊢
  split at h
  · rename_i h0
    rw [if_pos h0, h0]
    simp
  · rename_i h0
    rw [if_neg h0]
    rw [BitVec.toNat_udiv, toNat_saturatingMul, toNat_bpsScale, toNat_widen (by norm_num)] at h ⊢
    omega

lemma adjustedOut_ok {input : AssessProfitInput} {out : U256} (h : adjustedOut input = .ok out) :
    input.slippageBps.toNat < 10000 ∧
      slippageAdjusted (saturatingAdd input.grossProfit input.amountIn) input.slippageBps =
        some out := by
  rw [adjustedOut] at h
  split at h
  · cases h
  · rename_i hslip
    rw [BitVec.le_def, not_le] at hslip
    exact ⟨hslip, orReject_ok h⟩

/-- Past the slippage check the sum of profit and input has not saturated, unless the slippage
leaves a single basis point: any larger factor overflows the product of a clamped sum. -/
lemma adjustedOut_toNat {input : AssessProfitInput} {out : U256}
    (hfit : input.grossProfit.toNat + input.amountIn.toNat < 2 ^ 256 ∨
      input.slippageBps.toNat ≠ 9999)
    (h : adjustedOut input = .ok out) : out.toNat = exactAdjustedOut input := by
  rcases adjustedOut_ok h with ⟨hslip, hadj⟩
  have hfactor : (bpsScale - input.slippageBps.setWidth 256).toNat =
      10000 - input.slippageBps.toNat := by
    rw [toNat_sub_of_le] <;> rw [toNat_widen (by norm_num), toNat_bpsScale]
    exact hslip.le
  rw [slippageAdjusted] at hadj
  split at hadj
  · cases hadj
  · rcases Option.bind_eq_some_iff.1 hadj with ⟨product, hp, hadj⟩
    have hp := checkedMul_eq_some.1 hp
    have hlt := toNat_lt product
    rw [hfactor, toNat_saturatingAdd] at hp
    have hout : out = product / bpsScale := by
      dsimp only at hadj
      split at hadj
      · cases hadj
      · exact (Option.some.inj hadj).symm
    rw [hout, BitVec.toNat_udiv, hp, exactAdjustedOut, toNat_bpsScale]
    rcases le_or_gt (input.grossProfit.toNat + input.amountIn.toNat) (2 ^ 256 - 1) with hle | hgt
    · rw [min_eq_left hle]
    · rw [min_eq_right hgt.le] at hp
      have hsat : (2 ^ 256 - 1) * 2 ≤ (2 ^ 256 - 1) * (10000 - input.slippageBps.toNat) :=
        Nat.mul_le_mul_left _ (by omega)
      omega

/-! ## From the figures to the exact figures -/

variable {fees : FlashFees} {input : AssessProfitInput} {f : ProfitFigures} {cost scale v : U256}

lemma gasCostTokens_ok (hr : rateOk input = true) (h : gasCostTokens input cost scale = .ok v) :
    v.toNat = (cost.toNat * scale.toNat) ⌈/⌉ input.tokenToMaticRate.toNat := by
  rw [gasCostTokens, if_pos hr] at h
  rcases Option.bind_eq_some_iff.1 (orReject_ok h) with ⟨scaled, hs, hv⟩
  rw [ceilDiv_toNat hv, checkedMul_eq_some.1 hs]

lemma grossProfitMatic_ok (hr : rateOk input = true)
    (h : grossProfitMatic input cost scale = .ok v) :
    v.toNat = cost.toNat * input.tokenToMaticRate.toNat / scale.toNat := by
  rw [grossProfitMatic, if_pos hr] at h
  rcases Option.map_eq_some_iff.1 (orReject_ok h) with ⟨native, hn, rfl⟩
  rw [BitVec.toNat_udiv, checkedMul_eq_some.1 hn]

lemma flashFeeMatic_ok (hr : rateOk input = true) (h : flashFeeMatic input cost scale = .ok v) :
    v.toNat = (cost.toNat * input.tokenToMaticRate.toNat) ⌈/⌉ scale.toNat := by
  rw [flashFeeMatic, if_pos hr] at h
  rcases Option.bind_eq_some_iff.1 (orReject_ok h) with ⟨scaled, hs, hv⟩
  rw [ceilDiv_toNat hv, checkedMul_eq_some.1 hs]

/-- The figures as naturals, every difference still truncated at zero. -/
structure FiguresSpec (fees : FlashFees) (input : AssessProfitInput) (f : ProfitFigures) : Prop where
  gasCost : f.gasCostWei.toNat = exactGasCost input
  afterGas : f.netProfitAfterGas.toNat =
    exactAdjustedOut input - input.amountIn.toNat
      - exactFlashFee fees input.flashLoanSource input.amountIn.toNat
      - (exactGasCost input * 10 ^ input.tokenDecimals.toNat) ⌈/⌉ input.tokenToMaticRate.toNat
  preTip : f.netProfitAfterGasMaticWei.toNat =
    (exactAdjustedOut input - input.amountIn.toNat) * input.tokenToMaticRate.toNat
        / 10 ^ input.tokenDecimals.toNat
      - (exactFlashFee fees input.flashLoanSource input.amountIn.toNat
          * input.tokenToMaticRate.toNat) ⌈/⌉ 10 ^ input.tokenDecimals.toNat
      - exactGasCost input
  uplift : f.priorityUplift.toNat =
    exactUplift f.netProfitAfterGasMaticWei.toNat input.profitPriorityAlphaBps.toNat
      input.gasUnits.toNat input.chargedPriorityFeePerGas.toNat
  afterPriority : f.netAfterPriority.toNat =
    f.netProfitAfterGasMaticWei.toNat - f.priorityUplift.toNat
  required : f.requiredNetMatic = safetyFloorMaticWei f.gasCostWei input.safetyMultiplierBps

lemma profitFigures_ok (hr : rateOk input = true) (hd : input.tokenDecimals.toNat ≤ 30)
    (hfit : input.grossProfit.toNat + input.amountIn.toNat < 2 ^ 256 ∨
      input.slippageBps.toNat ≠ 9999)
    (h : profitFigures fees input = .ok f) : FiguresSpec fees input f := by
  rcases bind_ok h with ⟨fee, hfee, h⟩
  rcases bind_ok h with ⟨out, hout, h⟩
  rcases bind_ok h with ⟨gasCost, hgas, h⟩
  rcases bind_ok h with ⟨gasTokens, hgt, h⟩
  rcases bind_ok h with ⟨gross, hgross, h⟩
  rcases bind_ok h with ⟨feeMatic, hfm, h⟩
  have hfee := flashLoanFeeAmount_toNat (orReject_ok hfee)
  have hout := adjustedOut_toNat hfit hout
  have hgas : gasCost.toNat = exactGasCost input := by
    rw [checkedMul_eq_some.1 (orReject_ok hgas), toNat_widen (by norm_num)]
    rfl
  have hgt := gasCostTokens_ok hr hgt
  have hgross := grossProfitMatic_ok hr hgross
  have hfm := flashFeeMatic_ok hr hfm
  rw [toNat_tenPowU256 hd] at hgt hgross hfm
  rw [toNat_saturatingSub] at hgross
  rw [← Except.ok.inj h]
  refine ⟨hgas, ?_, ?_, profitPriorityUpliftWei_toNat _ _ _ _, toNat_saturatingSub _ _, rfl⟩
  · simp only [toNat_saturatingSub]
    rw [hout, hfee, hgt, hgas]
  · simp only [toNat_saturatingSub]
    rw [hgross, hfm, hout, hfee, hgas]

/-- A flash fee that overflows is rejected first. -/
lemma flashLoanFeeAmount_of_figures (h : profitFigures fees input = .ok f) :
    flashLoanFeeAmount fees input.flashLoanSource input.amountIn ≠ none := by
  rcases bind_ok h with ⟨fee, hfee, -⟩
  simp [orReject_ok hfee]

lemma gateNetTokens_of_safety (h : input.safetyMultiplierBps ≠ 0) :
    gateNetTokens input f = f.netProfitAfterGas := by
  rw [gateNetTokens, ignoreGas, if_neg (by simpa using h)]

lemma gateNetMatic_of_safety (h : input.safetyMultiplierBps ≠ 0) :
    gateNetMatic input f = f.netAfterPriority := by
  rw [gateNetMatic, ignoreGas, if_neg (by simpa using h)]

/-- The gates of a live assessment. -/
lemma shouldExecute_of_safety (hs : input.safetyMultiplierBps ≠ 0)
    (h : shouldExecute input f = true) :
    rateOk input = true ∧ 0 < f.netProfitAfterGas.toNat ∧ 0 < f.netAfterPriority.toNat ∧
      input.minProfitMaticWei.toNat ≤ f.netAfterPriority.toNat ∧
      f.requiredNetMatic.toNat ≤ f.netProfitAfterGasMaticWei.toNat ∧
      f.netAfterPriority.toNat ≤ 10 ^ 18 := by
  have hi : ignoreGas input = false := decide_eq_false hs
  simp only [shouldExecute, meetsAbsoluteMin, meetsSafetyRatio, meetsSaneMaticCap,
    gateNetTokens_of_safety hs, gateNetMatic_of_safety hs, hi, Bool.and_eq_true,
    decide_eq_true_eq, Bool.false_eq_true, if_false, lt_iff, le_iff] at h
  rcases h with ⟨⟨⟨⟨⟨⟨hr, ht⟩, hm⟩, hmin⟩, hsafe⟩, hcap⟩, -⟩
  exact ⟨hr, ht, hm, hmin, hsafe, hcap⟩

/-- A live assessment executes only what the exact figures justify. -/
theorem assessProfit_sound (fees : FlashFees) (input : AssessProfitInput)
    (hs : input.safetyMultiplierBps ≠ 0) (hd : input.tokenDecimals.toNat ≤ 30)
    (hfit : flashLoanFeeAmount fees input.flashLoanSource input.amountIn = none ∨
      input.grossProfit.toNat + input.amountIn.toNat < 2 ^ 256 ∨ input.slippageBps.toNat ≠ 9999)
    (h : (assessProfit fees input).shouldExecute = true) : ExecutionSound fees input := by
  rw [assessProfit] at h
  split at h
  · cases h
  · rename_i f hf
    rcases shouldExecute_of_safety hs h with ⟨hr, htok, hmatic, hmin, hsafe, hcap⟩
    have spec := profitFigures_ok hr hd (hfit.resolve_left (flashLoanFeeAmount_of_figures hf)) hf
    -- the nets are positive, so no difference on the way was truncated
    have hin : input.amountIn.toNat ≤ exactAdjustedOut input := by
      have := spec.afterGas
      omega
    have hpre : exactPreTipNet fees input = f.netProfitAfterGasMaticWei.toNat := by
      have hcast : ((exactAdjustedOut input : ℤ) - input.amountIn.toNat)
            * input.tokenToMaticRate.toNat / 10 ^ input.tokenDecimals.toNat =
          ((exactAdjustedOut input - input.amountIn.toNat) * input.tokenToMaticRate.toNat
            / 10 ^ input.tokenDecimals.toNat : ℕ) := by
        push_cast [Nat.cast_sub hin]
        rfl
      rw [exactPreTipNet, hcast]
      have := spec.preTip
      have := spec.afterPriority
      omega
    have hnet : exactNetMatic fees input = f.netAfterPriority.toNat := by
      rw [exactNetMatic, hpre, Int.toNat_natCast, ← spec.uplift]
      have := spec.afterPriority
      omega
    -- the net before the tip is small, so the safety floor below it has not saturated
    have hfloor : f.requiredNetMatic.toNat =
        exactGasCost input * input.safetyMultiplierBps.toNat / 10000 := by
      rw [spec.required, ← spec.gasCost]
      apply safetyFloorMaticWei_toNat
      rw [← spec.required]
      have hup := exactUplift_le f.netProfitAfterGasMaticWei.toNat
        input.profitPriorityAlphaBps.toNat input.gasUnits.toNat
        input.chargedPriorityFeePerGas.toNat
      rw [← spec.uplift] at hup
      have := input.gasUnits.isLt
      have := spec.afterPriority
      omega
    refine ⟨?_, ?_, ?_, ?_⟩
    · rw [exactTokenNet]
      have := spec.afterGas
      omega
    · rw [hnet]
      omega
    · rw [hnet]
      exact_mod_cast hcap
    · rw [hpre, ← hfloor]
      exact_mod_cast hsafe

/-- One token in, two out, and a gas price of one wei. -/
def smallTrade : AssessProfitInput where
  grossProfit := 1000000#256
  amountIn := 1000000#256
  gasUnits := 1#32
  gasPriceWei := 1#256
  chargedPriorityFeePerGas := minPriorityFeePerGas
  tokenToMaticRate := one18
  tokenDecimals := 18#8
  minProfitMaticWei := 0
  minProfitRoiBps := 0
  slippageBps := 100#64
  flashLoanSource := .balancer
  safetyMultiplierBps := 10000#64
  profitPriorityAlphaBps := 0

/-- The fee snapshot before the first fetch. -/
def defaultFees : FlashFees where
  aaveFlashLoanFeeBps := 5#64
  balancerFlashLoanFeePct1e18 := 0#64

theorem assessProfit_sound_smallTrade :
    (assessProfit defaultFees smallTrade).shouldExecute = true ∧
      ExecutionSound defaultFees smallTrade :=
  ⟨by decide,
    assessProfit_sound defaultFees smallTrade (by decide) (by decide)
      (Or.inr (Or.inl (by decide))) (by decide)⟩

/-- The largest profit on an input close to what one basis point of the clamped sum returns. -/
def clampedTrade : AssessProfitInput :=
  { smallTrade with
    grossProfit := maxValue
    amountIn := maxValue / bpsScale - 100#256
    slippageBps := 9999#64
    flashLoanSource := .direct }

/-- The gate sees a net of 99 wei where the exact net is far above the cap. -/
theorem assessProfit_clampedTrade :
    ¬ ∀ (fees : FlashFees) (input : AssessProfitInput), input.safetyMultiplierBps ≠ 0 →
      input.tokenDecimals.toNat ≤ 30 → (assessProfit fees input).shouldExecute = true →
      ExecutionSound fees input := by
  intro h
  have hsound := h defaultFees clampedTrade (by decide) (by decide) (by decide)
  have hcap : ¬ exactNetMatic defaultFees clampedTrade ≤ 10 ^ 18 := by decide
  exact hcap hsound.le_cap

/-- Where the sum of profit and input fits, the reported net is the one the calldata's minimum
profit is derived from. -/
theorem assessProfit_netProfit_eq_modeled {fees : FlashFees} {input : AssessProfitInput}
    (hfit : input.grossProfit.toNat + input.amountIn.toNat < 2 ^ 256)
    (h : profitFigures fees input = .ok f) :
    modeledNetProfitTokens fees input.grossProfit input.amountIn input.slippageBps
        input.flashLoanSource = some (assessProfit fees input).netProfit := by
  have hsum : checkedAdd input.grossProfit input.amountIn =
      some (saturatingAdd input.grossProfit input.amountIn) := by
    rw [checkedAdd_eq_some, toNat_saturatingAdd]
    omega
  have hnet : (assessProfit fees input).netProfit = f.netBeforeGas := by
    rw [assessProfit, h]
  rcases bind_ok h with ⟨fee, hfee, h⟩
  rcases bind_ok h with ⟨out, hout, h⟩
  rcases bind_ok h with ⟨_, _, h⟩
  rcases bind_ok h with ⟨_, _, h⟩
  rcases bind_ok h with ⟨_, _, h⟩
  rcases bind_ok h with ⟨_, _, h⟩
  have hadj := (adjustedOut_ok hout).2
  rw [hnet, ← Except.ok.inj h, modeledNetProfitTokens, hsum]
  simp only [Option.bind_eq_bind, Option.bind_some, hadj, orReject_ok hfee]

end PolygonArb

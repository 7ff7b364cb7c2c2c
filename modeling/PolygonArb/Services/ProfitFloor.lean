import PolygonArb.Services.ProfitExact

/-!
# The profit floor of the calldata

The executor reverts below a minimum profit, 95% of the modelled net.  It is computed from the
assessment where there is one (`on_chain_min_profit_from_assessment`) and from gross, amount and
slippage elsewhere (`on_chain_min_profit_for_route`).

The second path adds gross and amount with a checked sum where the assessment clamps it.  For an
executable assessment that is the only difference (`profitFloor_consistent_iff`).
-/

namespace PolygonArb

open Word

def onChainMinProfitRatioBps : U256 := 9500#256

/-- The floor is at least one for a positive net, so that the check on chain stays on. -/
def onChainMinProfit (tokenProfit : U256) : Option U256 :=
  if tokenProfit = 0 then some 0
  else
    (checkedMul tokenProfit onChainMinProfitRatioBps).map fun product =>
      let base := product / bpsScale
      if base = 0 then 1#256 else base

def onChainMinProfitForRoute (fees : FlashFees) (grossProfit amountIn : U256)
    (slippageBps : BitVec 64) (flashSource : FlashLoanSource) : Option U256 :=
  (modeledNetProfitTokens fees grossProfit amountIn slippageBps flashSource).bind onChainMinProfit

def onChainMinProfitFromAssessment (assessment : ProfitAssessment) : Option U256 :=
  onChainMinProfit assessment.netProfit

/-- Start tokens left after slippage, repayment and flash fee. -/
def exactNetTokens (fees : FlashFees) (input : AssessProfitInput) : ℤ :=
  exactAdjustedOut input - input.amountIn.toNat
    - exactFlashFee fees input.flashLoanSource input.amountIn.toNat

/-- Both paths give one floor, which is at least one wei and at most the net. -/
def FloorConsistent (fees : FlashFees) (input : AssessProfitInput) : Prop :=
  ∃ floor : U256,
    onChainMinProfitForRoute fees input.grossProfit input.amountIn input.slippageBps
        input.flashLoanSource = some floor ∧
      onChainMinProfitFromAssessment (assessProfit fees input) = some floor ∧
      1 ≤ floor.toNat ∧ floor.toNat ≤ (assessProfit fees input).netProfit.toNat ∧
      (floor.toNat : ℤ) ≤ exactNetTokens fees input

/-! ## The floor of one net -/

lemma onChainMinProfit_bounds {net : U256} (hpos : 0 < net.toNat)
    (hfit : net.toNat * 10000 < 2 ^ 256) :
    ∃ floor, onChainMinProfit net = some floor ∧ 1 ≤ floor.toNat ∧ floor.toNat ≤ net.toNat := by
  have hne : net ≠ 0 := by
    rw [Ne, eq_zero_iff]
    omega
  have hratio : onChainMinProfitRatioBps.toNat = 9500 := rfl
  rw [onChainMinProfit, if_neg hne]
  cases hmul : checkedMul net onChainMinProfitRatioBps with
  | none =>
      have hover := checkedMul_eq_none.1 hmul
      rw [hratio] at hover
      omega
  | some product =>
      have hproduct := checkedMul_eq_some.1 hmul
      have hbase : (product / bpsScale).toNat = net.toNat * 9500 / 10000 := by
        rw [BitVec.toNat_udiv, hproduct, hratio, toNat_bpsScale]
      refine ⟨_, rfl, ?_⟩
      dsimp only
      split_ifs with hzero
      · exact ⟨le_refl 1, hpos⟩
      · rw [eq_zero_iff] at hzero
        omega

/-! ## The net of an executable assessment -/

section Assessment

variable {fees : FlashFees} {input : AssessProfitInput} {f : ProfitFigures}

/-- The token nets among the figures. -/
lemma profitFigures_nets (h : profitFigures fees input = .ok f) :
    ∃ out, adjustedOut input = .ok out ∧
      flashLoanFeeAmount fees input.flashLoanSource input.amountIn = some f.flashLoanFee ∧
      f.netBeforeGas = saturatingSub (saturatingSub out input.amountIn) f.flashLoanFee ∧
      f.netProfitAfterGas = saturatingSub f.netBeforeGas f.gasCostInTokens := by
  rcases bind_ok h with ⟨fee, hfee, h⟩
  rcases bind_ok h with ⟨out, hout, h⟩
  rcases bind_ok h with ⟨_, _, h⟩
  rcases bind_ok h with ⟨_, _, h⟩
  rcases bind_ok h with ⟨_, _, h⟩
  rcases bind_ok h with ⟨_, _, h⟩
  rw [← Except.ok.inj h]
  exact ⟨out, hout, orReject_ok hfee, rfl, rfl⟩

lemma adjustedOut_le {out : U256} (h : adjustedOut input = .ok out) : out.toNat * 10000 < 2 ^ 256 := by
  have hadj := (adjustedOut_ok h).2
  rw [slippageAdjusted] at hadj
  split at hadj
  · cases hadj
  · rcases Option.bind_eq_some_iff.1 hadj with ⟨product, -, hadj⟩
    have hlt := toNat_lt product
    dsimp only at hadj
    split_ifs at hadj
    rw [← Option.some.inj hadj, BitVec.toNat_udiv, toNat_bpsScale]
    omega

/-- An executable assessment has figures, and a positive net before gas. -/
lemma netBeforeGas_pos (h : (assessProfit fees input).shouldExecute = true) :
    ∃ f, profitFigures fees input = .ok f ∧ (assessProfit fees input).netProfit = f.netBeforeGas ∧
      0 < f.netBeforeGas.toNat := by
  rw [assessProfit] at h ⊢
  cases hf : profitFigures fees input with
  | error reason =>
      rw [hf] at h
      cases h
  | ok f =>
      rw [hf] at h
      refine ⟨f, rfl, rfl, ?_⟩
      rcases profitFigures_nets hf with ⟨out, -, -, -, hafter⟩
      have hgate : 0 < (gateNetTokens input f).toNat := by
        simp only [shouldExecute, Bool.and_eq_true, decide_eq_true_eq, lt_iff] at h
        exact h.1.1.1.1.1.2
      rw [gateNetTokens] at hgate
      split_ifs at hgate
      · exact hgate
      · rw [hafter, toNat_saturatingSub] at hgate
        omega

/-- Where the sum of profit and input fits, the reported net is exact. -/
lemma netBeforeGas_exact (hfit : input.grossProfit.toNat + input.amountIn.toNat < 2 ^ 256)
    (hf : profitFigures fees input = .ok f) (hpos : 0 < f.netBeforeGas.toNat) :
    exactNetTokens fees input = f.netBeforeGas.toNat := by
  rcases profitFigures_nets hf with ⟨out, hout, hfee, hnet, -⟩
  rw [hnet, toNat_saturatingSub, toNat_saturatingSub, adjustedOut_toNat (.inl hfit) hout,
    flashLoanFeeAmount_toNat hfee] at hpos ⊢
  rw [exactNetTokens]
  omega

/-- The two floors agree, within their bounds, exactly where the sum of profit and input fits. -/
theorem profitFloor_consistent_iff (fees : FlashFees) (input : AssessProfitInput)
    (h : (assessProfit fees input).shouldExecute = true) :
    FloorConsistent fees input ↔ input.grossProfit.toNat + input.amountIn.toNat < 2 ^ 256 := by
  rcases netBeforeGas_pos h with ⟨f, hf, hnet, hpos⟩
  constructor
  · rintro ⟨floor, hroute, -⟩
    by_contra hover
    have hsum : checkedAdd input.grossProfit input.amountIn = none :=
      checkedAdd_eq_none.2 (not_lt.mp hover)
    simp [onChainMinProfitForRoute, modeledNetProfitTokens, hsum] at hroute
  · intro hfit
    have hbound : f.netBeforeGas.toNat * 10000 < 2 ^ 256 := by
      rcases profitFigures_nets hf with ⟨out, hout, -, hnet, -⟩
      rw [hnet, toNat_saturatingSub, toNat_saturatingSub]
      exact lt_of_le_of_lt (Nat.mul_le_mul_right _ (by omega)) (adjustedOut_le hout)
    rcases onChainMinProfit_bounds hpos hbound with ⟨floor, hfloor, hone, hle⟩
    refine ⟨floor, ?_, ?_, hone, ?_, ?_⟩
    · rw [onChainMinProfitForRoute, assessProfit_netProfit_eq_modeled hfit hf, hnet, Option.bind_some]
      exact hfloor
    · rw [onChainMinProfitFromAssessment, hnet]
      exact hfloor
    · rwa [hnet]
    · rw [netBeforeGas_exact hfit hf hpos]
      exact_mod_cast hle

theorem profitFloor_consistent_smallTrade :
    (assessProfit defaultFees smallTrade).shouldExecute = true ∧
      (FloorConsistent defaultFees smallTrade ↔
        smallTrade.grossProfit.toNat + smallTrade.amountIn.toNat < 2 ^ 256) :=
  ⟨by decide, profitFloor_consistent_iff defaultFees smallTrade (by decide)⟩

/-- The assessment of the clamped sum executes; its floor is 95 wei and the route's is missing. -/
theorem profitFloor_clampedTrade :
    (assessProfit defaultFees clampedTrade).shouldExecute = true ∧
      onChainMinProfitFromAssessment (assessProfit defaultFees clampedTrade) = some 95#256 ∧
      onChainMinProfitForRoute defaultFees clampedTrade.grossProfit clampedTrade.amountIn
        clampedTrade.slippageBps clampedTrade.flashLoanSource = none := by
  decide

end Assessment

end PolygonArb

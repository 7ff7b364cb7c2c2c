import PolygonArb.Services.ProfitExact
import PolygonArb.Services.RouteAssess

/-!
# The score of a size and its assessment

The size search maximises `brent_score_matic_from_sim`, which repeats the chain of conversions of
`assess_profit` with exits of its own and a bias of `2 ^ 128` that keeps underwater sizes apart.

For a probe the assessment does not reject, both read the same figures (`probeMaticParts_eq`), and
the score less its bias, truncated at zero, is the assessed net (`score_agrees`).
-/

namespace PolygonArb

open Word

/-- MATIC net of a probe after gas and priority. -/
def netProfitMaticFromSim (fees : FlashFees) (sim : MinimalSimResult) (amountIn : U256)
    (ctx : ProfitEvalContext) : U256 :=
  (assessProfit fees (probeAssessInput sim amountIn ctx)).netProfitAfterGasMaticWei

/-- The assessment of the probe computes all its figures, with a converted gross below `2 ^ 255`. -/
def Assessed (fees : FlashFees) (sim : MinimalSimResult) (amountIn : U256)
    (ctx : ProfitEvalContext) : Prop :=
  ∃ f, profitFigures fees (probeAssessInput sim amountIn ctx) = .ok f ∧
    f.grossProfitMaticWei.toNat < 2 ^ 255

section Parts

variable {fees : FlashFees} {sim : MinimalSimResult} {amountIn : U256} {ctx : ProfitEvalContext}
  {f : ProfitFigures}

/-- A usable rate: the score reads its parts off the figures of the assessment. -/
lemma probeMaticParts_eq (hr : rateOk (probeAssessInput sim amountIn ctx) = true)
    (h : profitFigures fees (probeAssessInput sim amountIn ctx) = .ok f) :
    probeMaticParts fees sim amountIn ctx =
      some ⟨f.grossProfitMaticWei, f.flashFeeMaticWei, f.gasCostWei, f.priorityUplift⟩ := by
  rcases bind_ok h with ⟨fee, hfee, h⟩
  rcases bind_ok h with ⟨out, hout, h⟩
  rcases bind_ok h with ⟨gasCost, hgas, h⟩
  rcases bind_ok h with ⟨_, _, h⟩
  rcases bind_ok h with ⟨gross, hgross, h⟩
  rcases bind_ok h with ⟨feeMatic, hfm, h⟩
  rw [← Except.ok.inj h]
  rw [grossProfitMatic, if_pos hr] at hgross
  rw [flashFeeMatic, if_pos hr] at hfm
  rcases Option.map_eq_some_iff.1 (orReject_ok hgross) with ⟨native, hnative, rfl⟩
  rcases Option.bind_eq_some_iff.1 (orReject_ok hfm) with ⟨scaled, hscaled, hceil⟩
  have hslip : ¬ 10000#64 ≤ (probeAssessInput sim amountIn ctx).slippageBps := by
    rw [BitVec.le_def, not_le]
    exact (adjustedOut_ok hout).1
  have hgate : ¬ ((probeAssessInput sim amountIn ctx).tokenToMaticRate < minTokenToMaticRate ∨
      tenPowU256 (probeAssessInput sim amountIn ctx).tokenDecimals.toNat = 0) := by
    rintro (hlow | hscale)
    · exact absurd (of_decide_eq_true hr) (BitVec.not_le.mpr hlow)
    · rw [hscale, ceilDiv, if_pos rfl] at hceil
      cases hceil
  simp only [probeMaticParts, Option.bind_eq_bind, orReject_ok hfee, Option.bind_some, if_neg hslip,
    (adjustedOut_ok hout).2, orReject_ok hgas, if_neg hgate, hnative, hscaled, hceil]

/-- An unusable rate: nothing is scored. -/
lemma probeMaticParts_of_rate (hr : rateOk (probeAssessInput sim amountIn ctx) = false) :
    probeMaticParts fees sim amountIn ctx = none := by
  have hgate : (probeAssessInput sim amountIn ctx).tokenToMaticRate < minTokenToMaticRate ∨
      tenPowU256 (probeAssessInput sim amountIn ctx).tokenDecimals.toNat = 0 :=
    .inl (BitVec.not_le.mp (of_decide_eq_false hr))
  simp only [probeMaticParts, if_pos hgate, Option.bind_eq_bind, Option.bind_fun_none, ite_self]

/-- An unusable rate converts to no MATIC at all. -/
lemma netAfterPriority_of_rate (hr : rateOk (probeAssessInput sim amountIn ctx) = false)
    (h : profitFigures fees (probeAssessInput sim amountIn ctx) = .ok f) :
    f.netAfterPriority = 0 := by
  rcases bind_ok h with ⟨fee, _, h⟩
  rcases bind_ok h with ⟨out, _, h⟩
  rcases bind_ok h with ⟨gasCost, _, h⟩
  rcases bind_ok h with ⟨_, _, h⟩
  rcases bind_ok h with ⟨gross, hgross, h⟩
  rcases bind_ok h with ⟨feeMatic, _, h⟩
  rw [grossProfitMatic, if_neg (by simp [hr])] at hgross
  rw [← Except.ok.inj h, ← Except.ok.inj hgross, eq_zero_iff]
  simp only [toNat_saturatingSub]
  simp

/-- The net after priority, as the gross less three deductions. -/
lemma netAfterPriority_toNat
    (h : profitFigures fees (probeAssessInput sim amountIn ctx) = .ok f) :
    f.netAfterPriority.toNat =
      f.grossProfitMaticWei.toNat - f.flashFeeMaticWei.toNat - f.gasCostWei.toNat
        - f.priorityUplift.toNat := by
  rcases bind_ok h with ⟨fee, _, h⟩
  rcases bind_ok h with ⟨out, _, h⟩
  rcases bind_ok h with ⟨gasCost, _, h⟩
  rcases bind_ok h with ⟨_, _, h⟩
  rcases bind_ok h with ⟨gross, hgross, h⟩
  rcases bind_ok h with ⟨feeMatic, _, h⟩
  rw [← Except.ok.inj h]
  simp only [toNat_saturatingSub]

lemma netProfitMaticFromSim_eq
    (h : profitFigures fees (probeAssessInput sim amountIn ctx) = .ok f) :
    netProfitMaticFromSim fees sim amountIn ctx = f.netAfterPriority := by
  rw [netProfitMaticFromSim, assessProfit, h]

/-- The assessed net is the score less its bias, or zero. -/
lemma netProfitMatic_eq (h : Assessed fees sim amountIn ctx) :
    ((netProfitMaticFromSim fees sim amountIn ctx).toNat : ℤ) =
      max 0 (((brentScoreMaticFromSim fees sim amountIn ctx).toNat : ℤ) - 2 ^ 128) := by
  rcases h with ⟨f, hf, hgross⟩
  rw [netProfitMaticFromSim_eq hf, brentScoreMaticFromSim]
  cases hr : rateOk (probeAssessInput sim amountIn ctx) with
  | false =>
      rw [probeMaticParts_of_rate hr]
      simp [netAfterPriority_of_rate hr hf]
  | true =>
      have hbias : brentMaticScoreBias.toNat = 2 ^ 128 := rfl
      rw [probeMaticParts_eq hr hf]
      simp only [toNat_saturatingSub, toNat_saturatingAdd, hbias, netAfterPriority_toNat hf]
      omega

/-- Score and assessment agree on every assessed size, so they put assessed sizes in one order. -/
theorem score_agrees (fees : FlashFees) (sim : MinimalSimResult) (amountIn : U256)
    (ctx : ProfitEvalContext) (h : Assessed fees sim amountIn ctx) :
    ((netProfitMaticFromSim fees sim amountIn ctx).toNat : ℤ) =
        max 0 (((brentScoreMaticFromSim fees sim amountIn ctx).toNat : ℤ) - 2 ^ 128) ∧
      ∀ (sim' : MinimalSimResult) (amountIn' : U256), Assessed fees sim' amountIn' ctx →
        netProfitMaticFromSim fees sim' amountIn' ctx < netProfitMaticFromSim fees sim amountIn ctx →
          brentScoreMaticFromSim fees sim' amountIn' ctx <
            brentScoreMaticFromSim fees sim amountIn ctx := by
  refine ⟨netProfitMatic_eq h, ?_⟩
  intro sim' amountIn' h' hlt
  have heq := netProfitMatic_eq h
  have heq' := netProfitMatic_eq h'
  rw [lt_iff] at hlt ⊢
  omega

end Parts

/-- A profitable probe at a rate of one, with a gas price of one wei and no slippage. -/
def plainContext : ProfitEvalContext where
  gasPrice := 1#256
  chargedPriorityFeePerGas := minPriorityFeePerGas
  flashSource := .balancer
  slippageBps := 0
  tokenToMaticRate := one18
  tokenDecimals := 18#8
  safetyMultiplierBps := 10000#64
  gasScaleBps := 10000
  profitPriorityAlphaBps := 0

def plainProbe : MinimalSimResult := ⟨5000000#256, 6000000#256, 400000⟩

theorem score_agrees_plainProbe :
    ((netProfitMaticFromSim defaultFees plainProbe 1000000#256 plainContext).toNat : ℤ) =
        max 0 (((brentScoreMaticFromSim defaultFees plainProbe 1000000#256 plainContext).toNat : ℤ)
          - 2 ^ 128) ∧
      ∀ (sim' : MinimalSimResult) (amountIn' : U256), Assessed defaultFees sim' amountIn' plainContext →
        netProfitMaticFromSim defaultFees sim' amountIn' plainContext <
            netProfitMaticFromSim defaultFees plainProbe 1000000#256 plainContext →
          brentScoreMaticFromSim defaultFees sim' amountIn' plainContext <
            brentScoreMaticFromSim defaultFees plainProbe 1000000#256 plainContext :=
  score_agrees defaultFees plainProbe 1000000#256 plainContext ⟨_, rfl, by decide⟩

end PolygonArb

import PolygonArb.Pipeline.SpotPrice

/-!
# Profit assessment

The gate between a simulated route and its execution.  `assessProfit` turns a gross profit in start
tokens into token and MATIC nets, charging slippage, the flash-loan fee, gas and the priority tip,
and decides whether the route may run.

The source leaves `assess_profit` early through `rejected_arithmetic` whenever a checked operation
fails.  Here the figures are computed in `Except String`, the error being the reason of the
rejection, and the decision is taken on the figures.
-/

namespace PolygonArb

open Word

/-- Where the borrowed input of a route comes from. -/
inductive FlashLoanSource
  | balancer
  | aaveV3
  | dodo
  | direct
  deriving DecidableEq, Repr

/-- The cached fee snapshot the source keeps in two atomics. -/
structure FlashFees where
  aaveFlashLoanFeeBps : BitVec 64
  balancerFlashLoanFeePct1e18 : BitVec 64
  deriving DecidableEq

def bpsScale : U256 := 10000#256

/-- Rates below this are untrustworthy. -/
def minTokenToMaticRate : U256 := 1000000#256

/-- Nets above this notional are taken for phantom state. -/
def maxSaneProfitMaticWei : U256 := 1000000000000000000#256

def maxProfitPriorityFeeWei : U256 := 200000000000#256

def minPriorityFeePerGas : U256 := 25000000000#256

def dodoExternalFlashEnabled : Bool := false

def dodoFlashLoanFeeBps : U256 := 10#256

/-! ## Fees -/

/-- `FixedPoint.mulUp(amount, feePercentage)`. -/
def balancerMulUp (amount pct1e18 : U256) : Option U256 :=
  if amount = 0 ∨ pct1e18 = 0 then some 0
  else (checkedMul amount pct1e18).map fun product => (product - 1#256) / one18 + 1#256

/-- `PercentageMath.percentMul`, rounding half up. -/
def aavePercentMul (value : U256) (bps : BitVec 64) : Option U256 :=
  if bps = 0 then some 0
  else do
    let product ← checkedMul value (bps.setWidth 256)
    (checkedAdd product 5000#256).map (· / bpsScale)

/-- Flash premium in token units. -/
def flashLoanFeeAmount (fees : FlashFees) (source : FlashLoanSource) (amount : U256) :
    Option U256 :=
  match source with
  | .direct => some 0
  | .balancer => balancerMulUp amount (fees.balancerFlashLoanFeePct1e18.setWidth 256)
  | .aaveV3 => aavePercentMul amount fees.aaveFlashLoanFeeBps
  | .dodo =>
      if dodoExternalFlashEnabled then
        (checkedMul amount dodoFlashLoanFeeBps).map (· / bpsScale)
      else some 0

/-- Absolute priority tip per gas from profit times alpha, capped. -/
def profitPriorityTipPerGas (expectedProfitMaticWei : U256) (alphaBps : BitVec 64)
    (gasUnits : BitVec 32) : U256 :=
  if alphaBps = 0 ∨ gasUnits = 0 ∨ expectedProfitMaticWei = 0 then 0
  else
    let totalBoost := saturatingMul expectedProfitMaticWei (alphaBps.setWidth 256) / bpsScale
    let perGas := totalBoost / gasUnits.setWidth 256
    min perGas maxProfitPriorityFeeWei

/-- Incremental tip cost above the priority already priced into the gas price. -/
def profitPriorityUpliftWei (expectedProfitMaticWei : U256) (alphaBps : BitVec 64)
    (gasUnits : BitVec 32) (chargedPriorityPerGas : U256) : U256 :=
  let tip := profitPriorityTipPerGas expectedProfitMaticWei alphaBps gasUnits
  let floor := max chargedPriorityPerGas minPriorityFeePerGas
  saturatingMul (saturatingSub tip floor) (gasUnits.setWidth 256)

/-- Safety floor in MATIC wei; a multiplier of zero disables it. -/
def safetyFloorMaticWei (revertPenaltyWei : U256) (safetyBps : BitVec 64) : U256 :=
  if safetyBps = 0 then 0
  else saturatingMul revertPenaltyWei (safetyBps.setWidth 256) / bpsScale

def slippageAdjusted (amountOut : U256) (slippageBps : BitVec 64) : Option U256 :=
  if amountOut = 0 ∨ 10000#64 ≤ slippageBps then none
  else do
    let product ← checkedMul amountOut (bpsScale - slippageBps.setWidth 256)
    let minOut := product / bpsScale
    if minOut = 0 then none else some minOut

def ceilDiv (numer denom : U256) : Option U256 :=
  if denom = 0 then none
  else
    let q := numer / denom
    let r := numer % denom
    some (if r = 0 then q else saturatingAdd q 1#256)

/-- Token net after slippage and flash fee, computed with a checked sum. -/
def modeledNetProfitTokens (fees : FlashFees) (grossProfit amountIn : U256)
    (slippageBps : BitVec 64) (flashSource : FlashLoanSource) : Option U256 := do
  let amountOut ← checkedAdd grossProfit amountIn
  let adjustedOut ← slippageAdjusted amountOut slippageBps
  let adjustedGross := saturatingSub adjustedOut amountIn
  let flashFee ← flashLoanFeeAmount fees flashSource amountIn
  some (saturatingSub adjustedGross flashFee)

/-! ## The assessment -/

structure AssessProfitInput where
  grossProfit : U256
  amountIn : U256
  gasUnits : BitVec 32
  gasPriceWei : U256
  chargedPriorityFeePerGas : U256
  tokenToMaticRate : U256
  tokenDecimals : BitVec 8
  minProfitMaticWei : U256
  minProfitRoiBps : BitVec 64
  slippageBps : BitVec 64
  flashLoanSource : FlashLoanSource
  safetyMultiplierBps : BitVec 64
  profitPriorityAlphaBps : BitVec 64

/-- The source's `roi` is `roiBps / 10_000` as a float. -/
structure ProfitAssessment where
  shouldExecute : Bool
  grossProfit : U256
  gasCostWei : U256
  gasCostInTokens : U256
  flashLoanFee : U256
  slippageDeduction : U256
  revertPenalty : U256
  netProfit : U256
  netProfitAfterGas : U256
  priorityBidBasisMaticWei : U256
  netProfitAfterGasMaticWei : U256
  roiBps : ℕ
  rejectReason : Option String
  deriving DecidableEq

/-- Everything `assess_profit` has computed when it comes to its decision. -/
structure ProfitFigures where
  flashLoanFee : U256
  adjustedGross : U256
  slippageDeduction : U256
  netBeforeGas : U256
  gasCostWei : U256
  gasCostInTokens : U256
  netProfitAfterGas : U256
  grossProfitMaticWei : U256
  flashFeeMaticWei : U256
  netProfitAfterGasMaticWei : U256
  requiredNetMatic : U256
  priorityUplift : U256
  netAfterPriority : U256

/-- `let Some(x) = … else { return rejected_arithmetic(…) }`. -/
def orReject {α : Type} (x : Option α) (reason : String) : Except String α :=
  match x with
  | some a => .ok a
  | none => .error reason

def rateOk (input : AssessProfitInput) : Bool :=
  decide (minTokenToMaticRate ≤ input.tokenToMaticRate)

/-- Gas cost in start tokens, rounded up; out of reach when the rate is unusable. -/
def gasCostTokens (input : AssessProfitInput) (gasCostWei scale : U256) : Except String U256 :=
  if rateOk input then
    orReject (do ceilDiv (← checkedMul gasCostWei scale) input.tokenToMaticRate)
      "token-denominated gas cost overflow"
  else .ok maxValue

def grossProfitMatic (input : AssessProfitInput) (adjustedGross scale : U256) :
    Except String U256 :=
  if rateOk input then
    orReject ((checkedMul adjustedGross input.tokenToMaticRate).map (· / scale))
      "native profit conversion overflow"
  else .ok 0

/-- Flash fee in MATIC wei, rounded up so that the premium is never under-costed. -/
def flashFeeMatic (input : AssessProfitInput) (flashLoanFee scale : U256) : Except String U256 :=
  if rateOk input then
    orReject (do ceilDiv (← checkedMul flashLoanFee input.tokenToMaticRate) scale)
      "flash fee MATIC conversion overflow"
  else .ok 0

/-- Output after slippage.  The sum of profit and input saturates. -/
def adjustedOut (input : AssessProfitInput) : Except String U256 :=
  if 10000#64 ≤ input.slippageBps then
    .error "invalid slippage or slippage arithmetic overflow"
  else
    orReject (slippageAdjusted (saturatingAdd input.grossProfit input.amountIn) input.slippageBps)
      "invalid slippage or slippage arithmetic overflow"

def profitFigures (fees : FlashFees) (input : AssessProfitInput) : Except String ProfitFigures := do
  let flashLoanFee ←
    orReject (flashLoanFeeAmount fees input.flashLoanSource input.amountIn)
      "flash-loan fee overflow"
  let adjusted ← adjustedOut input
  let adjustedGross := saturatingSub adjusted input.amountIn
  let netBeforeGas := saturatingSub adjustedGross flashLoanFee
  let gasCostWei ←
    orReject (checkedMul (input.gasUnits.setWidth 256) input.gasPriceWei) "gas cost overflow"
  let scale := tenPowU256 input.tokenDecimals.toNat
  let gasCostInTokens ← gasCostTokens input gasCostWei scale
  let grossProfitMaticWei ← grossProfitMatic input adjustedGross scale
  let flashFeeMaticWei ← flashFeeMatic input flashLoanFee scale
  let netProfitAfterGasMaticWei :=
    saturatingSub (saturatingSub grossProfitMaticWei flashFeeMaticWei) gasCostWei
  -- the tip is taken from the net after gas, not from the gross
  let priorityUplift :=
    profitPriorityUpliftWei netProfitAfterGasMaticWei input.profitPriorityAlphaBps
      input.gasUnits input.chargedPriorityFeePerGas
  pure
    { flashLoanFee
      adjustedGross
      slippageDeduction := saturatingSub input.grossProfit adjustedGross
      netBeforeGas
      gasCostWei
      gasCostInTokens
      netProfitAfterGas := saturatingSub netBeforeGas gasCostInTokens
      grossProfitMaticWei
      flashFeeMaticWei
      netProfitAfterGasMaticWei
      requiredNetMatic := safetyFloorMaticWei gasCostWei input.safetyMultiplierBps
      priorityUplift
      netAfterPriority := saturatingSub netProfitAfterGasMaticWei priorityUplift }

/-- A multiplier of zero is the dry run, whose gates leave the gas out. -/
def ignoreGas (input : AssessProfitInput) : Bool := decide (input.safetyMultiplierBps = 0)

def gateNetTokens (input : AssessProfitInput) (f : ProfitFigures) : U256 :=
  if ignoreGas input then f.netBeforeGas else f.netProfitAfterGas

def gateNetMatic (input : AssessProfitInput) (f : ProfitFigures) : U256 :=
  if ignoreGas input then
    saturatingSub (saturatingSub f.grossProfitMaticWei f.flashFeeMaticWei) f.priorityUplift
  else f.netAfterPriority

def meetsAbsoluteMin (input : AssessProfitInput) (f : ProfitFigures) : Bool :=
  decide (input.minProfitMaticWei ≤ gateNetMatic input f)

/-- The safety floor hedges the gas of a revert, so it is compared with the net before the tip. -/
def meetsSafetyRatio (input : AssessProfitInput) (f : ProfitFigures) : Bool :=
  if ignoreGas input then decide (f.requiredNetMatic ≤ gateNetMatic input f)
  else decide (f.requiredNetMatic ≤ f.netProfitAfterGasMaticWei)

def meetsSaneMaticCap (input : AssessProfitInput) (f : ProfitFigures) : Bool :=
  decide (gateNetMatic input f ≤ maxSaneProfitMaticWei)

/-- Net return on the input in basis points; zero when it does not fit 64 bits. -/
def roiBps (input : AssessProfitInput) (f : ProfitFigures) : ℕ :=
  if input.amountIn = 0 ∨ gateNetTokens input f = 0 then 0
  else
    match checkedMul (gateNetTokens input f) bpsScale with
    | some v => if (v / input.amountIn).toNat < 2 ^ 64 then (v / input.amountIn).toNat else 0
    | none => 0

def meetsRoi (input : AssessProfitInput) (f : ProfitFigures) : Bool :=
  decide (input.minProfitRoiBps = 0 ∨ input.minProfitRoiBps.toNat ≤ roiBps input f)

def shouldExecute (input : AssessProfitInput) (f : ProfitFigures) : Bool :=
  rateOk input
    && decide (0#256 < gateNetTokens input f)
    && decide (0#256 < gateNetMatic input f)
    && meetsAbsoluteMin input f
    && meetsSafetyRatio input f
    && meetsSaneMaticCap input f
    && meetsRoi input f

def rejectReason (input : AssessProfitInput) (f : ProfitFigures) : Option String :=
  if shouldExecute input f then none
  else if !rateOk input then some "token/MATIC rate too low or unavailable"
  else if gateNetMatic input f = 0 ∨ gateNetTokens input f = 0 then
    some "non-positive net profit after gas"
  else if !meetsSafetyRatio input f then
    some ("net profit " ++ toString f.netProfitAfterGasMaticWei.toNat
      ++ " MATIC wei below safety floor " ++ toString f.requiredNetMatic.toNat
      ++ " (priority uplift " ++ toString f.priorityUplift.toNat ++ " not in safety floor)")
  else if !meetsAbsoluteMin input f then some "below min profit threshold"
  else if !meetsSaneMaticCap input f then
    some ("net profit " ++ toString (gateNetMatic input f).toNat
      ++ " MATIC wei exceeds sane cap " ++ toString maxSaneProfitMaticWei.toNat)
  else if !meetsRoi input f then
    some ("net ROI " ++ toString (roiBps input f) ++ " bps below minimum "
      ++ toString input.minProfitRoiBps.toNat ++ " bps")
  else some "non-positive net profit after gas"

/-- The real gas cost is reported when it fits. -/
def rejectedArithmetic (input : AssessProfitInput) (reason : String) : ProfitAssessment :=
  let gasCostWei := (checkedMul (input.gasUnits.setWidth 256) input.gasPriceWei).getD 0
  { shouldExecute := false
    grossProfit := input.grossProfit
    gasCostWei
    gasCostInTokens := 0
    flashLoanFee := 0
    slippageDeduction := 0
    revertPenalty := gasCostWei
    netProfit := 0
    netProfitAfterGas := 0
    priorityBidBasisMaticWei := 0
    netProfitAfterGasMaticWei := 0
    roiBps := 0
    rejectReason := some reason }

def assessProfit (fees : FlashFees) (input : AssessProfitInput) : ProfitAssessment :=
  match profitFigures fees input with
  | .error reason => rejectedArithmetic input reason
  | .ok f =>
      { shouldExecute := shouldExecute input f
        grossProfit := input.grossProfit
        gasCostWei := f.gasCostWei
        gasCostInTokens := f.gasCostInTokens
        flashLoanFee := f.flashLoanFee
        slippageDeduction := f.slippageDeduction
        revertPenalty := f.gasCostWei
        netProfit := f.netBeforeGas
        netProfitAfterGas := f.netProfitAfterGas
        priorityBidBasisMaticWei := f.netProfitAfterGasMaticWei
        netProfitAfterGasMaticWei := f.netAfterPriority
        roiBps := roiBps input f
        rejectReason := rejectReason input f }

end PolygonArb

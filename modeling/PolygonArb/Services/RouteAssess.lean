import PolygonArb.Pipeline.LocalSim
import PolygonArb.Pipeline.SimSanity

/-!
# From a simulated route to its assessment

The rate and decimals lookups of `services/oracle`, the route gas of `gas_oracle.rs`, and the part of
`profit.rs` that feeds `assessProfit`: thresholds, gas units, and the score the size search maximises.
-/

namespace PolygonArb

open Word

/-! ## Rates and decimals -/

/-- MATIC wei per whole token. -/
abbrev TokenRates := TokenIndex → Option U256

/-- Token decimals by address. -/
abbrev DecimalMap := List (Address × BitVec 8)

/-- A rate below the floor is no rate. -/
def lookupMaticRate (token : TokenIndex) (rates : TokenRates) : Option U256 :=
  (rates token).filter (minTokenToMaticRate ≤ ·)

def resolveTokenToMaticRateOrBootstrap (token : TokenIndex) (rates : TokenRates) : Option U256 :=
  lookupMaticRate token rates

/-- The default MATIC price is zero, and so is the rate made from it. -/
def bootstrapMaticRatePerUnit : U256 := 0

def resolveTokenToMaticRate (token : TokenIndex) (rates : TokenRates) : U256 :=
  (lookupMaticRate token rates).getD bootstrapMaticRatePerUnit

def knownTokenDecimals (token : Address) (hints : DecimalMap) : Option (BitVec 8) :=
  (hints.lookup token).filter fun d => d.toNat ≤ maxSupportedTokenDecimals

def explicitDecimalsForIndex (token : TokenIndex) (arena : StateArena) (hints : DecimalMap) :
    Option (BitVec 8) :=
  (arena.tokenAddress token).bind fun addr => knownTokenDecimals addr hints

def resolveTokenDecimals (token : Address) (hints : DecimalMap) : BitVec 8 :=
  (hints.lookup token).getD 18#8

def resolveTokenDecimalsForIndex (token : TokenIndex) (arena : StateArena) (hints : DecimalMap) :
    BitVec 8 :=
  (explicitDecimalsForIndex token arena hints).getD
    (((arena.tokenAddress token).map fun addr => resolveTokenDecimals addr hints).getD 18#8)

/-! ## Route gas -/

/-- The published fee snapshot, the observed gas per route and the scale of unseen routes. -/
structure GasOracle where
  priorityFee : Option U256
  observedRouteGas : List Edge → Option ℕ
  simScaleBps : ℕ

def scaledSimulatedGas (simulatedGas scaleBps : ℕ) : ℕ :=
  max (min (simulatedGas * max scaleBps 10000 / 10000) (2 ^ 32 - 1)) simulatedGas

def GasOracle.routeGasOrHeuristic (oracle : GasOracle) (edges : List Edge) (heuristic : ℕ) : ℕ :=
  match oracle.observedRouteGas edges with
  | some observed => observed
  | none => scaledSimulatedGas heuristic oracle.simScaleBps

def GasOracle.routeGasObservedOrSeed (oracle : GasOracle) (edges : List Edge) (seed : ℕ) : ℕ :=
  (oracle.observedRouteGas edges).getD seed

/-- Direct batches and pure DODO routes have an all-in gas seed that is not scaled. -/
def calibratedSeed (edges : List Edge) : Bool :=
  balancerDirectBatchEligible edges || dodoFlashBatchEligible edges

/-- `assessment_gas_units` over `assessment_gas_for_edges`, and `RouteGasCosting::resolve` over a
lookup made for this one route: both read the same observation and the same scale. -/
def assessmentGasUnits (oracle : GasOracle) (edges : List Edge) (simulatedGas : ℕ) : ℕ :=
  if calibratedSeed edges then oracle.routeGasObservedOrSeed edges simulatedGas
  else oracle.routeGasOrHeuristic edges simulatedGas

def chargedPriorityFromOracle (oracle : GasOracle) : U256 :=
  match oracle.priorityFee with
  | some fee => max fee minPriorityFeePerGas
  | none => minPriorityFeePerGas

/-! ## Assessment of a route -/

structure ProfitThresholds where
  minProfitMaticWei : U256
  minProfitRoiBps : BitVec 64
  safetyMultiplierBps : BitVec 64
  profitPriorityAlphaBps : BitVec 64
  chargedPriorityFeePerGas : U256

/-- The learned risk of the route raises the profit it has to make. -/
def routeProfitThresholds (minProfitMatic : U256) (minProfitRoiBps safetyMultiplierBps
    profitPriorityAlphaBps riskBps : BitVec 64) (chargedPriorityFeePerGas : U256) :
    ProfitThresholds where
  minProfitMaticWei := saturatingMul minProfitMatic (riskBps.setWidth 256) / 10000#256
  minProfitRoiBps := minProfitRoiBps
  safetyMultiplierBps := safetyMultiplierBps
  profitPriorityAlphaBps := profitPriorityAlphaBps
  chargedPriorityFeePerGas := chargedPriorityFeePerGas

structure RouteAssessRequest where
  cycleStart : TokenIndex
  arena : StateArena
  edges : List Edge
  grossProfit : U256
  amountIn : U256
  simulatedGas : ℕ
  slippageBps : BitVec 64
  flashSource : FlashLoanSource
  gasOracle : GasOracle
  thresholds : ProfitThresholds
  tokenToMaticRates : TokenRates
  tokenDecimals : DecimalMap
  gasPrice : U256

def RouteAssessRequest.input (request : RouteAssessRequest) : AssessProfitInput where
  grossProfit := request.grossProfit
  amountIn := request.amountIn
  gasUnits :=
    BitVec.ofNat 32 (assessmentGasUnits request.gasOracle request.edges request.simulatedGas)
  gasPriceWei := request.gasPrice
  chargedPriorityFeePerGas := request.thresholds.chargedPriorityFeePerGas
  tokenToMaticRate := resolveTokenToMaticRate request.cycleStart request.tokenToMaticRates
  tokenDecimals :=
    resolveTokenDecimalsForIndex request.cycleStart request.arena request.tokenDecimals
  minProfitMaticWei := request.thresholds.minProfitMaticWei
  minProfitRoiBps := request.thresholds.minProfitRoiBps
  slippageBps := request.slippageBps
  flashLoanSource := request.flashSource
  safetyMultiplierBps := request.thresholds.safetyMultiplierBps
  profitPriorityAlphaBps := request.thresholds.profitPriorityAlphaBps

def assessRouteFromSim (fees : FlashFees) (request : RouteAssessRequest) : ProfitAssessment :=
  assessProfit fees request.input

/-! ## The score of a size -/

structure ProfitEvalContext where
  gasPrice : U256
  chargedPriorityFeePerGas : U256
  flashSource : FlashLoanSource
  slippageBps : BitVec 64
  tokenToMaticRate : U256
  tokenDecimals : BitVec 8
  safetyMultiplierBps : BitVec 64
  gasScaleBps : ℕ
  profitPriorityAlphaBps : BitVec 64

def probeAssessInput (sim : MinimalSimResult) (amountIn : U256) (ctx : ProfitEvalContext) :
    AssessProfitInput where
  grossProfit := sim.profit
  amountIn := amountIn
  gasUnits :=
    BitVec.ofNat 32
      (if ctx.gasScaleBps = 10000 then sim.totalGas
        else scaledSimulatedGas sim.totalGas ctx.gasScaleBps)
  gasPriceWei := ctx.gasPrice
  chargedPriorityFeePerGas := ctx.chargedPriorityFeePerGas
  tokenToMaticRate := ctx.tokenToMaticRate
  tokenDecimals := ctx.tokenDecimals
  minProfitMaticWei := 0
  minProfitRoiBps := 0
  slippageBps := ctx.slippageBps
  flashLoanSource := ctx.flashSource
  safetyMultiplierBps := ctx.safetyMultiplierBps
  profitPriorityAlphaBps := ctx.profitPriorityAlphaBps

/-- Sizes below break-even keep their order above this bias. -/
def brentMaticScoreBias : U256 := BitVec.ofNat 256 (2 ^ 128)

structure ProbeMaticParts where
  grossMatic : U256
  flashMatic : U256
  gasCostWei : U256
  priorityUplift : U256

def probeMaticParts (fees : FlashFees) (sim : MinimalSimResult) (amountIn : U256)
    (ctx : ProfitEvalContext) : Option ProbeMaticParts := do
  let input := probeAssessInput sim amountIn ctx
  let flashLoanFee ← flashLoanFeeAmount fees input.flashLoanSource input.amountIn
  if 10000#64 ≤ input.slippageBps then none
  else do
    let adjustedOut ←
      slippageAdjusted (saturatingAdd input.grossProfit input.amountIn) input.slippageBps
    let adjustedGross := saturatingSub adjustedOut input.amountIn
    let gasCostWei ← checkedMul (input.gasUnits.setWidth 256) input.gasPriceWei
    let scale := tenPowU256 input.tokenDecimals.toNat
    if input.tokenToMaticRate < minTokenToMaticRate ∨ scale = 0 then none
    else do
      let gross ← checkedMul adjustedGross input.tokenToMaticRate
      let flash ← checkedMul flashLoanFee input.tokenToMaticRate
      let flashMatic ← ceilDiv flash scale
      let grossMatic := gross / scale
      let netAfterGas := saturatingSub (saturatingSub grossMatic flashMatic) gasCostWei
      some
        { grossMatic
          flashMatic
          gasCostWei
          priorityUplift := profitPriorityUpliftWei netAfterGas input.profitPriorityAlphaBps
            input.gasUnits input.chargedPriorityFeePerGas }

/-- What the size search maximises. -/
def brentScoreMaticFromSim (fees : FlashFees) (sim : MinimalSimResult) (amountIn : U256)
    (ctx : ProfitEvalContext) : U256 :=
  match probeMaticParts fees sim amountIn ctx with
  | none => 0
  | some p =>
      saturatingSub
        (saturatingSub (saturatingSub (saturatingAdd brentMaticScoreBias p.grossMatic) p.flashMatic)
          p.gasCostWei) p.priorityUplift

end PolygonArb

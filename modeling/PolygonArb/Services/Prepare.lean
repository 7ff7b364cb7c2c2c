import PolygonArb.Pipeline.RouteTrace
import PolygonArb.Pipeline.Ternary
import PolygonArb.Services.FlashPlan

/-!
# Preparing an evaluated route for dispatch

`prepare_evaluated_route` of `flash_liquidity.rs`: plan the loan of an evaluated route, cut its size to
what may be borrowed, size it again where that changes it, and assess the result.

`prepare_executable_within` and `prepare_funded_within` say for which inputs a prepared route is one its
assessment would execute, and one its lender can fund.
-/

namespace PolygonArb

open Word

structure EvaluatedRoute where
  cycle : FoundCycle
  result : RouteSimulationResult
  assessment : Option ProfitAssessment
  effectiveSlippageBps : BitVec 64

/-- `simNoneSamples` is the sampling counter the size search shares with every other search. -/
structure PrepareDispatchInput where
  evaluated : EvaluatedRoute
  arena : StateArena
  liquidity : TokenFlashLiquidity
  policy : FlashLoanPolicy
  tokenToMaticRates : TokenRates
  tokenDecimals : DecimalMap
  brentIters : ℕ
  minProfitMatic : U256
  minProfitRoiBps : BitVec 64
  gasPrice : U256
  slippageBps : BitVec 64
  maxFlashLoanUsd : BitVec 64
  maticUsd : MaticUsd
  safetyMultiplierBps : BitVec 64
  profitPriorityAlphaBps : BitVec 64
  gasOracle : GasOracle
  searchLow : U256
  riskMultiplierBps : BitVec 64
  existingAssessment : Option ProfitAssessment
  adaptiveFlashCapBound : Bool
  fees : FlashFees
  simNoneSamples : ℕ

structure PreparedDispatch where
  evaluated : EvaluatedRoute
  flashSource : FlashLoanSource
  liquidityCapApplied : Bool
  adaptiveFlashCapBound : Bool

namespace PreparedDispatch

variable (prepared : PreparedDispatch)

abbrev amountIn : U256 := prepared.evaluated.result.amountIn

/-- The assessment that goes with the route says to execute it. -/
def executes : Bool := (prepared.evaluated.assessment.map ProfitAssessment.shouldExecute).getD false

end PreparedDispatch

namespace PrepareDispatchInput

variable (input : PrepareDispatchInput)

abbrev cycle : FoundCycle := input.evaluated.cycle

abbrev amountIn : U256 := input.evaluated.result.amountIn

def plan : FlashPlan :=
  planRoute input.policy input.arena input.cycle input.amountIn input.liquidity

def startDecimals : BitVec 8 :=
  resolveTokenDecimalsForIndex input.cycle.startToken input.arena input.tokenDecimals

def startRate : U256 := resolveTokenToMaticRate input.cycle.startToken input.tokenToMaticRates

def flashCap : FlashBorrowCapParams :=
  ⟨input.maxFlashLoanUsd, input.startDecimals, input.startRate, input.maticUsd⟩

def profitThresholds : ProfitThresholds :=
  routeProfitThresholds input.minProfitMatic input.minProfitRoiBps input.safetyMultiplierBps
    input.profitPriorityAlphaBps input.riskMultiplierBps (chargedPriorityFromOracle input.gasOracle)

def dispatchSimPassesSanity (result : RouteSimulationResult) (searchLow : U256)
    (checkFlashCap : Bool) : Bool :=
  decide (minTokenToMaticRate ≤ input.startRate)
    && (!checkFlashCap || input.flashCap.amountWithinCap result.amountIn)
    && (checkSimSanityForDispatch
      ⟨result.amountIn, result.profit, searchLow, input.startDecimals, input.startRate⟩).isOk

/-- Assess a simulation of the route as funded by `source`. -/
def assess (source : FlashLoanSource) (sim : RouteSimulationResult) : ProfitAssessment :=
  assessRouteFromSim input.fees
    { cycleStart := input.cycle.startToken
      arena := input.arena
      edges := input.cycle.edges
      grossProfit := sim.profit
      amountIn := sim.amountIn
      simulatedGas := sim.totalGas
      slippageBps := input.slippageBps
      flashSource := source
      gasOracle := input.gasOracle
      thresholds := input.profitThresholds
      tokenToMaticRates := input.tokenToMaticRates
      tokenDecimals := input.tokenDecimals
      gasPrice := input.gasPrice }

/-! ## Reusing an assessment -/

def assessmentFlashFeeMatches (assessment : ProfitAssessment) (source : FlashLoanSource) : Bool :=
  assessment.flashLoanFee = (flashLoanFeeAmount input.fees source input.amountIn).getD maxValue

def assessmentGasMatches (assessment : ProfitAssessment) : Bool :=
  let units := BitVec.ofNat 32
    (assessmentGasUnits input.gasOracle input.cycle.edges input.evaluated.result.totalGas)
  match checkedMul (units.setWidth 256) input.gasPrice with
  | some expected => assessment.gasCostWei = expected
  | none => false

/-- The assessment of the evaluation is kept when profit, fee and gas still match, and never under an
elevated risk. -/
def reuseOrReassess (source : FlashLoanSource) : ProfitAssessment :=
  let fresh := input.assess source input.evaluated.result
  if 10000#64 < input.riskMultiplierBps then fresh
  else
    match input.existingAssessment with
    | none => fresh
    | some existing =>
        if existing.shouldExecute
            && decide (existing.grossProfit = input.evaluated.result.profit)
            && input.assessmentFlashFeeMatches existing source
            && input.assessmentGasMatches existing then existing
        else fresh

/-! ## Sizing under a cap -/

def sizing (source : FlashLoanSource) (cap : U256) : SizingInput where
  arena := input.arena
  cycle := input.cycle
  tokenToMaticRates := input.tokenToMaticRates
  tokenDecimals := input.tokenDecimals
  maxFlashLoanUsd := input.maxFlashLoanUsd
  maticUsd := input.maticUsd
  maxIterations := input.brentIters
  liquidityCap := some cap
  profitCtx :=
    { gasPrice := input.gasPrice
      chargedPriorityFeePerGas := chargedPriorityFromOracle input.gasOracle
      flashSource := source
      slippageBps := input.slippageBps
      tokenToMaticRate := input.startRate
      tokenDecimals := input.startDecimals
      safetyMultiplierBps := input.safetyMultiplierBps
      gasScaleBps := 10000
      profitPriorityAlphaBps := input.profitPriorityAlphaBps }
  gasOracle := input.gasOracle
  fees := input.fees

/-- The simulation of the route at the best size under `cap`. -/
def resize (source : FlashLoanSource) (cap : U256) : Run (Option RouteSimulationResult) := do
  match ← (input.sizing source cap).optimizeCycle input.simNoneSamples with
  | none => pure none
  | some opt =>
      let sim ← simulateRouteDetailed input.arena input.cycle.edges (min opt.optimalInput cap)
      pure (sim.filter fun sim =>
        sim.profit ≠ 0 && input.dispatchSimPassesSanity sim opt.searchLow true)

/-- A resized route with its assessment, whatever that says. -/
def preparedAt (source : FlashLoanSource) (sim : RouteSimulationResult) : PreparedDispatch where
  evaluated := ⟨input.cycle, sim, some (input.assess source sim), input.slippageBps⟩
  flashSource := source
  liquidityCapApplied := true
  adaptiveFlashCapBound := input.adaptiveFlashCapBound

def reoptimizeCapped (source : FlashLoanSource) (cap : U256) : Run (Option PreparedDispatch) :=
  (input.resize source cap).map (·.map (input.preparedAt source))

/-! ## The decision -/

/-- The route as it was evaluated. -/
def prepareUnchanged (source : FlashLoanSource) : Option PreparedDispatch :=
  let assessment := input.reuseOrReassess source
  if assessment.shouldExecute then
    some
      { evaluated := ⟨input.cycle, input.evaluated.result, some assessment, input.slippageBps⟩
        flashSource := source
        liquidityCapApplied := false
        adaptiveFlashCapBound := input.adaptiveFlashCapBound }
  else none

/-- The plan is carried out: unchanged, or cut to the lender's liquidity. -/
def prepareByPlan : Run (Option PreparedDispatch) :=
  let plan := input.plan
  let liquidity := routeLiquidity input.arena input.cycle input.liquidity
  match plan.action with
  | .reject => pure none
  | .direct =>
      if input.dispatchSimPassesSanity input.evaluated.result input.searchLow false = false then
        pure none
      else if plan.source = .balancer ∧ liquidity.balancer < input.amountIn ∧ liquidity.balancer ≠ 0
      then input.reoptimizeCapped plan.source liquidity.balancer
      else pure (input.prepareUnchanged plan.source)
  | .capAndReoptimize =>
      (input.reoptimizeCapped plan.source plan.cap).map (·.filter PreparedDispatch.executes)

def prepareEvaluatedRoute : Run (Option PreparedDispatch) :=
  let plan := input.plan
  if (input.arena.tokenAddress input.cycle.startToken).isNone then pure none
  else if plan.action ≠ .reject ∧ input.flashCap.capEnforcedButUnresolved ∧ input.amountIn ≠ 0 then
    pure none
  else
    match input.flashCap.capWei with
    | some cap =>
        if plan.action ≠ .reject ∧ cap < input.amountIn then input.reoptimizeCapped plan.source cap
        else input.prepareByPlan
    | none => input.prepareByPlan

/-! ## What comes out -/

/-- The route is sized again for the dollar cap: it can be planned, and it exceeds the cap. -/
structure ExceedsUsdCap (cap : U256) : Prop where
  token : (input.arena.tokenAddress input.cycle.startToken).isNone = false
  planned : input.plan.action ≠ .reject
  capWei : input.flashCap.capWei = some cap
  lt : cap < input.amountIn

variable {input : PrepareDispatchInput}

lemma amountIn_simulateRouteDetailed {arena : StateArena} {edges : List Edge} {amount : U256}
    {sim : RouteSimulationResult} (h : simulateRouteDetailed arena edges amount = some (some sim)) :
    sim.amountIn = amount := by
  simp only [simulateRouteDetailed, simulateRouteDetailedWithCaps] at h
  split_ifs at h with hroute hzero
  · cases h
  · cases h
    exact hzero.symm
  · rcases Option.map_eq_some_iff.mp h with ⟨w, -, hw⟩
    rcases Option.map_eq_some_iff.mp hw with ⟨w', -, rfl⟩
    rfl

/-- A route is never resized above the cap it is resized for. -/
lemma amountIn_resize_le {source : FlashLoanSource} {cap : U256} {sim : RouteSimulationResult}
    (h : input.resize source cap = some (some sim)) : sim.amountIn ≤ cap := by
  rcases Option.bind_eq_some_iff.mp h with ⟨opt, -, hopt⟩
  cases opt with
  | none => cases hopt
  | some opt =>
      rcases Option.bind_eq_some_iff.mp hopt with ⟨found, hfound, hsim⟩
      rcases Option.filter_eq_some_iff.mp (Option.some.inj hsim) with ⟨rfl, -⟩
      rw [amountIn_simulateRouteDetailed hfound, le_iff, toNat_min]
      exact min_le_right _ _

lemma reoptimizeCapped_eq_some {source : FlashLoanSource} {cap : U256} {prepared : PreparedDispatch} :
    input.reoptimizeCapped source cap = some (some prepared) ↔
      ∃ sim, input.resize source cap = some (some sim) ∧ prepared = input.preparedAt source sim := by
  constructor
  · intro h
    rcases Option.map_eq_some_iff.mp h with ⟨found, hfound, hmap⟩
    rcases Option.map_eq_some_iff.mp hmap with ⟨sim, rfl, rfl⟩
    exact ⟨sim, hfound, rfl⟩
  · rintro ⟨sim, hsim, rfl⟩
    rw [reoptimizeCapped, hsim]
    rfl

/-- What a prepared route is when the plan was carried out: the evaluated route, funded as planned, or
one that was cut to the lender's liquidity. -/
inductive ByPlan (input : PrepareDispatchInput) : PreparedDispatch → Prop
  | unchanged {prepared : PreparedDispatch} (action : input.plan.action = .direct)
      (h : input.prepareUnchanged input.plan.source = some prepared) : ByPlan input prepared
  | resized {sim : RouteSimulationResult} (action : input.plan.action = .capAndReoptimize)
      (h : input.resize input.plan.source input.plan.cap = some (some sim)) :
      ByPlan input (input.preparedAt input.plan.source sim)

lemma prepareUnchanged_eq_some {source : FlashLoanSource} {prepared : PreparedDispatch}
    (h : input.prepareUnchanged source = some prepared) :
    (input.reuseOrReassess source).shouldExecute = true ∧
      prepared =
        { evaluated :=
            ⟨input.cycle, input.evaluated.result, some (input.reuseOrReassess source),
              input.slippageBps⟩
          flashSource := source
          liquidityCapApplied := false
          adaptiveFlashCapBound := input.adaptiveFlashCapBound } := by
  simp only [prepareUnchanged] at h
  split_ifs at h with hexec
  cases h
  exact ⟨hexec, rfl⟩

lemma ByPlan.flashSource {prepared : PreparedDispatch} (h : ByPlan input prepared) :
    prepared.flashSource = input.plan.source := by
  cases h with
  | unchanged _ h => rw [(prepareUnchanged_eq_some h).2]
  | resized _ _ => rfl

lemma ByPlan.planned {prepared : PreparedDispatch} (h : ByPlan input prepared) :
    input.plan.action ≠ .reject := by
  cases h with
  | unchanged haction _ => simp [haction]
  | resized haction _ => simp [haction]

/-- What the plan prepares has been checked. -/
lemma prepareByPlan_eq_some {prepared : PreparedDispatch}
    (h : input.prepareByPlan = some (some prepared)) :
    prepared.executes = true ∧ ByPlan input prepared := by
  simp only [prepareByPlan] at h
  cases haction : input.plan.action with
  | reject =>
      simp only [haction] at h
      cases h
  | direct =>
      -- the plan has made sure that the vault has the amount
      have henough : input.plan.source = .balancer →
          input.amountIn ≤ (routeLiquidity input.arena input.cycle input.liquidity).balancer := by
        intro hsource
        have hcovered : Covered input.amountIn
            (routeLiquidity input.arena input.cycle input.liquidity) input.plan :=
          covered_planRoute_routeLiquidity
        have hle := hcovered.direct haction (by simp [hsource])
        rwa [hsource] at hle
      simp only [haction] at h
      split_ifs at h with hsane hshort
      · cases h
      · have hle := le_iff.mp (henough hshort.1)
        have hlt := lt_iff.mp hshort.2.1
        omega
      · have hunchanged : input.prepareUnchanged input.plan.source = some prepared := Option.some.inj h
        refine ⟨?_, .unchanged haction hunchanged⟩
        rcases prepareUnchanged_eq_some hunchanged with ⟨hexec, rfl⟩
        exact hexec
  | capAndReoptimize =>
      simp only [haction] at h
      rcases Option.map_eq_some_iff.mp h with ⟨found, hfound, hfilter⟩
      rcases Option.filter_eq_some_iff.mp hfilter with ⟨rfl, hexec⟩
      rcases reoptimizeCapped_eq_some.mp hfound with ⟨sim, hsim, rfl⟩
      exact ⟨hexec, .resized haction hsim⟩

/-- Every prepared route was resized for the dollar cap or made by the plan. -/
lemma prepare_cases {prepared : PreparedDispatch}
    (h : input.prepareEvaluatedRoute = some (some prepared)) :
    (∃ cap sim, input.ExceedsUsdCap cap ∧ input.resize input.plan.source cap = some (some sim) ∧
      prepared = input.preparedAt input.plan.source sim) ∨
    ((∀ cap, input.flashCap.capWei = some cap → input.amountIn ≤ cap) ∧
      input.prepareByPlan = some (some prepared)) := by
  simp only [prepareEvaluatedRoute] at h
  split_ifs at h with htoken hunresolved
  · cases h
  · cases h
  · rw [Bool.not_eq_true] at htoken
    cases hcap : input.flashCap.capWei with
    | none =>
        rw [hcap] at h
        exact .inr ⟨by simp, h⟩
    | some cap =>
        rw [hcap] at h
        dsimp only at h
        split_ifs at h with hexceeds
        · rcases reoptimizeCapped_eq_some.mp h with ⟨sim, hsim, rfl⟩
          exact .inl ⟨cap, sim, ⟨htoken, hexceeds.1, hcap, hexceeds.2⟩, hsim, rfl⟩
        · refine .inr ⟨?_, h⟩
          intro cap' hcap'
          obtain rfl := Option.some.inj hcap'
          by_cases hplanned : input.plan.action = .reject
          · simp only [prepareByPlan, hplanned] at h
            cases h
          · have hle : ¬ cap < input.amountIn := fun hlt => hexceeds ⟨hplanned, hlt⟩
            rw [lt_iff] at hle
            rw [le_iff]
            omega

/-! ## The two guarantees -/

/-- A prepared route is one that its assessment executes, unless it exceeded the dollar cap: there the
assessment of the resized route is not looked at. -/
theorem prepare_executable_within (hwithin : ∀ cap, ¬ input.ExceedsUsdCap cap)
    {prepared : PreparedDispatch} (h : input.prepareEvaluatedRoute = some (some prepared)) :
    prepared.executes = true := by
  rcases prepare_cases h with ⟨cap, sim, hcap, -, -⟩ | ⟨-, hplan⟩
  · exact absurd hcap (hwithin cap)
  · exact (prepareByPlan_eq_some hplan).1

/-- The lender of a prepared route has its amount, and the amount is within the dollar cap. -/
def Funded (input : PrepareDispatchInput) (prepared : PreparedDispatch) : Prop :=
  prepared.amountIn ≤ input.liquidity.of prepared.flashSource ∧
    ∀ cap, input.flashCap.capWei = some cap → prepared.amountIn ≤ cap

lemma funded_of_byPlan {prepared : PreparedDispatch} (hsource : input.plan.source ≠ .direct)
    (hcap : ∀ cap, input.flashCap.capWei = some cap → input.amountIn ≤ cap)
    (h : ByPlan input prepared) : Funded input prepared := by
  have hcovered : Covered input.amountIn input.liquidity input.plan := covered_planRoute
  cases h with
  | unchanged haction hunchanged =>
      rcases prepareUnchanged_eq_some hunchanged with ⟨-, rfl⟩
      exact ⟨hcovered.direct haction hsource, hcap⟩
  | @resized sim haction hsim =>
      have hle : sim.amountIn ≤ input.plan.cap := amountIn_resize_le hsim
      refine ⟨?_, ?_⟩
      · change sim.amountIn ≤ input.liquidity.of input.plan.source
        rwa [hcovered.cap_eq haction] at hle
      · intro cap hcap'
        have hlt := lt_iff.mp (hcovered.cap_lt haction)
        have hwithin := le_iff.mp (hcap cap hcap')
        change sim.amountIn ≤ cap
        rw [le_iff] at hle ⊢
        omega

/-- A prepared route can be funded, unless it exceeded both the dollar cap and a lender who has less
than that cap: there it is only resized for the dollar cap, and may stay above what the lender has. -/
theorem prepare_funded_within
    (hlender : ∀ cap, input.ExceedsUsdCap cap → input.plan.action = .capAndReoptimize →
      cap ≤ input.liquidity.of input.plan.source)
    {prepared : PreparedDispatch} (h : input.prepareEvaluatedRoute = some (some prepared))
    (hdirect : prepared.flashSource ≠ .direct) : Funded input prepared := by
  have hcovered : Covered input.amountIn input.liquidity input.plan := covered_planRoute
  rcases prepare_cases h with ⟨cap, sim, hcap, hsim, rfl⟩ | ⟨hwithin, hplan⟩
  · have hle := le_iff.mp (amountIn_resize_le hsim)
    have hsource : input.plan.source ≠ .direct := hdirect
    refine ⟨?_, ?_⟩
    · change sim.amountIn ≤ input.liquidity.of input.plan.source
      cases haction : input.plan.action with
      | reject => exact absurd haction hcap.planned
      | capAndReoptimize =>
          have hcapLe := le_iff.mp (hlender cap hcap haction)
          rw [le_iff]
          omega
      | direct =>
          have hcoveredLe := le_iff.mp (hcovered.direct haction hsource)
          have hlt := lt_iff.mp hcap.lt
          rw [le_iff]
          omega
    · intro cap' hcap'
      rw [hcap.capWei] at hcap'
      obtain rfl := Option.some.inj hcap'
      exact amountIn_resize_le hsim
  · have hbyPlan := (prepareByPlan_eq_some hplan).2
    rw [hbyPlan.flashSource] at hdirect
    exact funded_of_byPlan hdirect hwithin hbyPlan

end PrepareDispatchInput

/-! ### A round trip over two pairs -/

/-- Whole tokens of eighteen decimals. -/
def wholeTokens (n : ℕ) : U256 := BitVec.ofNat 256 (n * 10 ^ 18)

/-- Two pairs over tokens 2 and 3 whose prices are three percent apart. -/
def spreadArena : StateArena :=
  let base := pairArena .invalid
  { base with
    inner :=
      { base.inner with
        pools :=
          [⟨none, .v2 ⟨wholeTokens 100000, wholeTokens 100000, 997#256, 1000#256, 1⟩⟩,
            ⟨none, .v2 ⟨wholeTokens 103000, wholeTokens 100000, 997#256, 1000#256, 1⟩⟩]
        poolAddresses := [0x10000#160, 0x20000#160] } }

/-- Token 2 into the first pair and back out of the second. -/
def roundTrip : FoundCycle where
  startToken := 0
  edges :=
    [pairEdge .uniswapV2 0 1,
      { pairEdge .uniswapV2 1 0 with poolIndex := 1, tokenIn := 1, tokenOut := 0 }]
  hopCount := 2
  logWeight := 0.0
  cumulativeFeeBps := 60
  score := 0.0
  cycleRatio := 0

/-- What the evaluation found: twenty tokens in. -/
def roundTripResult : RouteSimulationResult where
  amountIn := 20000000000000000000#256
  amountOut := 20468434832406553011#256
  profit := 468434832406553011#256
  profitable := true
  hopAmounts :=
    [20000000000000000000#256, 19936024756663521293#256, 20468434832406553011#256]
  totalGas := 310800
  hopCount := 2

/-- The vault is the only lender; five dollars may be borrowed and buy ten tokens. -/
def roundTripInput (vault minProfitMatic : U256) : PrepareDispatchInput where
  evaluated := ⟨roundTrip, roundTripResult, none, 0⟩
  arena := spreadArena
  liquidity := ⟨vault, 0, false, 0, listed_of_empty false⟩
  policy := .auto
  tokenToMaticRates := fun token => if token = 0 then some (wholeTokens 1) else none
  tokenDecimals := [(2#160, 18#8)]
  brentIters := 16
  minProfitMatic := minProfitMatic
  minProfitRoiBps := 0
  gasPrice := 30000000000#256
  slippageBps := 0
  maxFlashLoanUsd := 5#64
  maticUsd := ⟨none, some 50000000⟩
  safetyMultiplierBps := 10000#64
  profitPriorityAlphaBps := 0
  gasOracle := ⟨none, fun _ => none, 10000⟩
  searchLow := 0
  riskMultiplierBps := 10000#64
  existingAssessment := none
  adaptiveFlashCapBound := false
  fees := ⟨5#64, 0#64⟩
  simNoneSamples := 0

/-- A route that has to make a whole token and makes less than a quarter under the dollar cap is
prepared with the assessment that rejects it. -/
theorem prepare_returns_rejected :
    ∃ prepared,
      (roundTripInput (wholeTokens 1000) (wholeTokens 1)).prepareEvaluatedRoute =
        some (some prepared) ∧ prepared.executes = false := by
  have hrun : (roundTripInput (wholeTokens 1000) (wholeTokens 1)).prepareEvaluatedRoute.map
      (·.map PreparedDispatch.executes) = some (some false) := by
    decide +kernel
  rcases Option.map_eq_some_iff.mp hrun with ⟨found, hfound, hmap⟩
  rcases Option.map_eq_some_iff.mp hmap with ⟨prepared, rfl, hexec⟩
  exact ⟨prepared, hfound, hexec⟩

/-- Fifty dollars buy a hundred tokens, more than the twenty that were evaluated. -/
def wideCapInput : PrepareDispatchInput :=
  { roundTripInput (wholeTokens 1000) 0 with maxFlashLoanUsd := 50#64 }

theorem prepare_executable_within_wideCap :
    ∃ prepared, wideCapInput.prepareEvaluatedRoute = some (some prepared) ∧
      prepared.flashSource = .balancer ∧ prepared.executes = true := by
  have hrun : wideCapInput.prepareEvaluatedRoute.map (·.map PreparedDispatch.flashSource) =
      some (some .balancer) := by
    decide +kernel
  rcases Option.map_eq_some_iff.mp hrun with ⟨found, hfound, hmap⟩
  rcases Option.map_eq_some_iff.mp hmap with ⟨prepared, rfl, hsource⟩
  have hwithin : ∀ cap, ¬ wideCapInput.ExceedsUsdCap cap := by
    intro cap hexceeds
    have hcap : wideCapInput.flashCap.capWei = some (wholeTokens 100) := by decide
    obtain rfl := Option.some.inj (hcap.symm.trans hexceeds.capWei)
    exact absurd hexceeds.lt (by decide)
  exact ⟨prepared, hfound, hsource, PrepareDispatchInput.prepare_executable_within hwithin hfound⟩

/-- With fifteen tokens in the vault the ten of the dollar cap are lent. -/
theorem prepare_funded_within_fifteen :
    ∃ prepared, (roundTripInput (wholeTokens 15) 0).prepareEvaluatedRoute = some (some prepared) ∧
      (roundTripInput (wholeTokens 15) 0).plan.action = .capAndReoptimize ∧
      PrepareDispatchInput.Funded (roundTripInput (wholeTokens 15) 0) prepared := by
  have hrun : (roundTripInput (wholeTokens 15) 0).prepareEvaluatedRoute.map
      (·.map PreparedDispatch.flashSource) = some (some .balancer) := by
    decide +kernel
  rcases Option.map_eq_some_iff.mp hrun with ⟨found, hfound, hmap⟩
  rcases Option.map_eq_some_iff.mp hmap with ⟨prepared, rfl, hsource⟩
  refine ⟨prepared, hfound, by decide +kernel,
    PrepareDispatchInput.prepare_funded_within ?_ hfound (by simp [hsource])⟩
  intro cap hexceeds _
  have hcap : (roundTripInput (wholeTokens 15) 0).flashCap.capWei = some (wholeTokens 10) := by decide
  obtain rfl := Option.some.inj (hcap.symm.trans hexceeds.capWei)
  decide

/-- The vault has five tokens, the dollar cap allows ten, and ten are prepared. -/
theorem prepare_exceeds_lender :
    ∃ prepared,
      (roundTripInput (wholeTokens 5) 0).prepareEvaluatedRoute = some (some prepared) ∧
        prepared.flashSource = .balancer ∧
        (roundTripInput (wholeTokens 5) 0).liquidity.balancer < prepared.amountIn := by
  have hrun : (roundTripInput (wholeTokens 5) 0).prepareEvaluatedRoute.map
      (·.map fun prepared => (prepared.flashSource, prepared.amountIn)) =
        some (some (.balancer, 9999999999999999999#256)) := by
    decide +kernel
  rcases Option.map_eq_some_iff.mp hrun with ⟨found, hfound, hmap⟩
  rcases Option.map_eq_some_iff.mp hmap with ⟨prepared, rfl, hpair⟩
  rcases Prod.mk.inj hpair with ⟨hsource, hamount⟩
  refine ⟨prepared, hfound, hsource, ?_⟩
  rw [hamount]
  decide

end PolygonArb

import PolygonArb.Lib.Loop
import PolygonArb.Services.RouteAssess

/-!
# The size search

`pipeline/ternary.rs`: how much to put into a route.  `computeTernarySearchBounds` derives a window of
sizes from the capacity of the hops, `solveBrentOptimalWarm` runs a golden-section search over it, and
`optimizeCycle` puts the two together, the score of a size being the net profit of its simulation.

The search calls its objective through a small ring of remembered scores, and the objective of
`optimizeCycle` remembers simulations and the first size that failed; the search is written over an
arbitrary monad, in which the objective keeps that state.
-/

namespace PolygonArb

open Word Loop

/-- Slots of the score ring and of the simulation memo. -/
def brentCacheSlots : ℕ := 48

def defaultBrentIterations : ℕ := 16

/-! ## Golden section -/

/-- Scores of the sizes evaluated so far; when the ring is full the oldest is overwritten. -/
structure BrentCache where
  slots : List (U256 × U256)
  size : ℕ

namespace BrentCache

def insert (cache : BrentCache) (amount score : U256) : BrentCache where
  slots :=
    if cache.size < brentCacheSlots then cache.slots ++ [(amount, score)]
    else cache.slots.set (cache.size % brentCacheSlots) (amount, score)
  size := cache.size + 1

def get (cache : BrentCache) (amount : U256) : Option U256 :=
  (cache.slots.find? fun slot => slot.1 = amount).map Prod.snd

end BrentCache

/-- The locals of the search: the bracket, its two inner points and their scores. -/
structure BrentState where
  a : U256
  b : U256
  left : U256
  right : U256
  leftValue : U256
  rightValue : U256
  zeroStreak : ℕ
  cache : BrentCache

/-- `GOLDEN_RATIO` thousandths of a width. -/
def goldenPart (width : U256) : U256 := width * 382#256 / 1000#256

/-- The inner points of a bracket. -/
def goldenPoints (a b : U256) : U256 × U256 := (a + goldenPart (b - a), b - goldenPart (b - a))

/-- Inner points around a seed, cut to the bracket. -/
def pointsAround (a b hint : U256) : U256 × U256 :=
  let quarter := goldenPart (saturatingSub b a)
  (max (saturatingSub hint quarter) a, min (saturatingAdd hint quarter) b)

/-- `max_by_key` on the score: the last of the best. -/
def bestSeed (seeds : List (U256 × U256)) : Option (U256 × U256) :=
  seeds.foldl (fun best seed =>
    match best with
    | none => some seed
    | some b => if b.2 ≤ seed.2 then some seed else some b) none

/-- The better of two sizes; the first on a tie. -/
def betterOf (best candidate : U256 × U256) : U256 × U256 :=
  if best.2 < candidate.2 then candidate else best

section Search

variable {m : Type → Type} [Monad m] (evaluate : U256 → m U256)

def cachedEvaluate (cache : BrentCache) (amount : U256) : m (U256 × BrentCache) :=
  match cache.get amount with
  | some score => pure (score, cache)
  | none => do
      let score ← evaluate amount
      pure (score, cache.insert amount score)

/-- Evaluate two inner points and go on with them. -/
def BrentState.probe (s : BrentState) (points : U256 × U256) : m BrentState := do
  let (leftValue, cache) ← cachedEvaluate evaluate s.cache points.1
  let (rightValue, cache) ← cachedEvaluate evaluate cache points.2
  pure
    { s with
      left := points.1
      right := points.2
      leftValue := leftValue
      rightValue := rightValue
      cache := cache }

/-- Drop the worse end of the bracket. -/
def BrentState.narrow (s : BrentState) : m BrentState :=
  if s.leftValue < s.rightValue then do
    let right := s.b - goldenPart (s.b - s.left)
    let (rightValue, cache) ← cachedEvaluate evaluate s.cache right
    pure
      { s with
        a := s.left
        left := s.right
        leftValue := s.rightValue
        right := right
        rightValue := rightValue
        cache := cache }
  else do
    let left := s.a + goldenPart (s.right - s.a)
    let (leftValue, cache) ← cachedEvaluate evaluate s.cache left
    pure
      { s with
        b := s.right
        right := s.left
        rightValue := s.leftValue
        left := left
        leftValue := leftValue
        cache := cache }

/-- One turn.  After two turns on nothing but zeros the search moves to the best seed of the bracket,
or gives up. -/
def BrentState.turn (warm : List (U256 × U256)) (s : BrentState) : m (LoopStep BrentState) :=
  if s.leftValue = 0 ∧ s.rightValue = 0 then
    if s.zeroStreak + 1 < 2 then
      return .continue (← BrentState.narrow evaluate { s with zeroStreak := s.zeroStreak + 1 })
    else
      match bestSeed (warm.filter fun seed => s.a ≤ seed.1 ∧ seed.1 ≤ s.b ∧ seed.2 ≠ 0) with
      | none => pure (.break { s with zeroStreak := s.zeroStreak + 1 })
      | some hint =>
          let points := pointsAround s.a s.b hint.1
          if points.1 < points.2 then
            return .continue (← BrentState.probe evaluate { s with zeroStreak := 0 } points)
          else pure (.break { s with left := points.1, right := points.2 })
  else return .continue (← BrentState.narrow evaluate { s with zeroStreak := 0 })

/-- At most the given number of turns; a bracket as narrow as the tolerance ends the search. -/
def brentLoop (warm : List (U256 × U256)) : ℕ → BrentState → m BrentState
  | 0, s => pure s
  | n + 1, s =>
      let width := saturatingSub s.b s.a
      if width ≤ max (width / 1000#256) 1#256 then pure s
      else do
        match ← s.turn evaluate warm with
        | .break s' => pure s'
        | .continue s' => brentLoop warm n s'

/-- The seeds of the window fill the ring first. -/
def warmCache (low high : U256) (warm : List (U256 × U256)) : BrentCache :=
  (warm.filter fun seed => low ≤ seed.1 ∧ seed.1 ≤ high).foldl
    (fun cache seed => cache.insert seed.1 seed.2) ⟨[], 0⟩

/-- Where the search starts: around the best seed when it has a score. -/
def startPoints (low high : U256) (warm : List (U256 × U256)) : U256 × U256 :=
  match (bestSeed (warm.filter fun seed => low ≤ seed.1 ∧ seed.1 ≤ high)).filter (·.2 ≠ 0) with
  | none => goldenPoints low high
  | some hint =>
      let points := pointsAround low high hint.1
      if points.1 < points.2 then points else goldenPoints low high

/-- Golden-section search over `[low, high]` with seeds whose scores are known. -/
def solveBrentOptimalWarm (low high : U256) (maxIterations : ℕ) (warm : List (U256 × U256)) :
    m U256 :=
  if high ≤ low then pure low
  else do
    let iterations := if maxIterations = 0 then defaultBrentIterations else maxIterations
    let start : BrentState := ⟨low, high, 0, 0, 0, 0, 0, warmCache low high warm⟩
    let s ← start.probe evaluate (startPoints low high warm)
    let s ← brentLoop evaluate warm iterations s
    let (lowValue, cache) ← cachedEvaluate evaluate s.cache low
    let (highValue, _) ← cachedEvaluate evaluate cache high
    let ends := [(s.left, s.leftValue), (s.right, s.rightValue), (high, highValue)]
    let seeds := warm.filter fun seed => low ≤ seed.1 ∧ seed.1 ≤ high ∧ seed.2 ≠ 0
    pure ((ends ++ seeds).foldl betterOf (low, lowValue)).1

end Search

/-! ## The window -/

def capOrDefault (cap default : U256) : U256 := if cap = 0 then default else cap

/-- A tenth of the reserve sold into, or all of a smaller one. -/
def estimateDodoHopCapacity (state : DodoPoolState) (baseToQuote : Bool) : U256 :=
  if state.baseReserve = 0 ∨ state.quoteReserve = 0 then 0
  else
    let reserve := if baseToQuote then state.baseReserve else state.quoteReserve
    if 0#256 < reserve / 10#256 then reserve / 10#256 else reserve

/-- How much a hop can take in, in units of its input token. -/
def hopCapacity (arena : StateArena) (edge : Edge) : Option U256 := do
  let state ← arena.poolState edge.poolIndex
  match state, edge.protocol with
  | .v2 s, .uniswapV2 => some (capOrDefault (if edge.zeroForOne then s.reserve0 else s.reserve1) one18)
  | .v3 s, .uniswapV3 => clCapacity s
  | .v4 s, .uniswapV4 => clCapacity s
  | .curve s, .curveStable => some (capOrDefault ((s.balances[edge.tokenInIdx]?).getD 0) one18)
  | .curve s, .curveCrypto => some (capOrDefault ((s.balances[edge.tokenInIdx]?).getD 0) one18)
  -- the vault allows three tenths; a tenth leaves room for the hops before
  | .balancer s, .balancerV2 =>
      some (capOrDefault ((s.balances[edge.tokenInIdx]?).getD 0 / 10#256) one18)
  | .dodo s, .dodo => some (capOrDefault (estimateDodoHopCapacity s (edge.tokenInIdx = 0)) one18)
  | .woofi s, .woofi =>
      let reserve :=
        match s.baseStates[edge.tokenInIdx]? with
        | none => s.quoteReserve
        | some base => base.reserve
      some (capOrDefault reserve one18)
  | _, _ => some one18
where
  clCapacity (s : ConcentratedLiquidityPoolState) : Option U256 :=
    if s.sqrtPriceX96 = 0 ∨ s.liquidity = 0 then none
    else
      let liquidity := BitVec.ofNat 256 s.liquidity
      let cap :=
        if edge.zeroForOne then (liquidity <<< 96) / s.sqrtPriceX96
        else (liquidity * s.sqrtPriceX96) >>> 96
      some (capOrDefault cap one18)

structure TernarySearchBounds where
  low : U256
  high : U256
  flashCap : Option U256

/-- What `optimize_cycle` reads of its surroundings. -/
structure SizingInput where
  arena : StateArena
  cycle : FoundCycle
  tokenToMaticRates : TokenRates
  tokenDecimals : DecimalMap
  maxFlashLoanUsd : BitVec 64
  maticUsd : MaticUsd
  maxIterations : ℕ
  liquidityCap : Option U256
  profitCtx : ProfitEvalContext
  gasOracle : GasOracle
  fees : FlashFees

namespace SizingInput

variable (input : SizingInput) (startRate : U256) (startDecimals : BitVec 8)

def flashCapParams : FlashBorrowCapParams :=
  ⟨input.maxFlashLoanUsd, startDecimals, startRate, input.maticUsd⟩

/-- A hop's capacity in start-token units; `none` when a rate or the decimals are missing. -/
def startUnitCapacity (edge : Edge) (capacity : U256) : Option U256 :=
  if edge.tokenIn = input.cycle.startToken then some capacity
  else do
    let rate ← resolveTokenToMaticRateOrBootstrap edge.tokenIn input.tokenToMaticRates
    if rate = 0 ∨ startRate = 0 then none
    else do
      let decimals ← explicitDecimalsForIndex edge.tokenIn input.arena input.tokenDecimals
      let num := capacity.toNat * rate.toNat * (tenPowU256 startDecimals.toNat).toNat % 2 ^ 512
      let den := startRate.toNat * (tenPowU256 decimals.toNat).toNat
      let converted := truncate256 (num / den)
      -- oracle rates and execution disagree, so a converted vault cap is halved
      some (if edge.protocol = .balancerV2 then converted / 2#256 else converted)

/-- The least capacity known in start-token units; `none` when a hop has none at all. -/
def minCapacity : Option U256 := do
  let capacities ← input.cycle.edges.mapM fun edge => do
    let capacity ← hopCapacity input.arena edge
    some (input.startUnitCapacity startRate startDecimals edge capacity)
  let least := (capacities.filterMap id).foldl (fun least c => if c < least then c else least) maxValue
  some (if (capacities.filterMap id).isEmpty ∨ least = 0 ∨ least = maxValue then one18 * 100#256
    else least)

/-- The window of sizes.  The economic floor has the last word, over the liquidity cap too. -/
def computeTernarySearchBounds : Option TernarySearchBounds :=
  let cap := input.flashCapParams startRate startDecimals
  if cap.capEnforcedButUnresolved then none
  else do
    let capacity ← input.minCapacity startRate startDecimals
    let flashCap := if startRate = 0 then none else cap.capWei
    let floor := minEconomicAmountIn startDecimals startRate
    let low := if startRate = 0 then capacity / 5000#256 else max (capacity / 5000#256) floor
    let high := (flashCap.map (min (capacity / 10#256))).getD (capacity / 10#256)
    let finalLow := max low (max (high / 100#256) 1#256)
    let finalHigh := if finalLow < high then high else finalLow + 1#256
    let (outLow, outHigh) := clampToLiquidity finalLow finalHigh
    let outLow := if outLow < floor ∧ floor ≤ outHigh then floor else outLow
    let outHigh :=
      if outHigh < floor then
        (flashCap.map (min (saturatingMul floor 100#256))).getD (saturatingMul floor 100#256)
      else outHigh
    let outLow := max outLow floor
    let outHigh := if outHigh ≤ outLow then saturatingAdd outLow 1#256 else outHigh
    if outHigh ≤ outLow ∨ outHigh < floor then none else some ⟨outLow, outHigh, flashCap⟩
where
  clampToLiquidity (low high : U256) : U256 × U256 :=
    match input.liquidityCap.filter (· ≠ 0) with
    | none => (low, high)
    | some cap =>
        let high := min high cap
        (if high ≤ low then max (saturatingSub high 1#256) 1#256 else low, high)

end SizingInput

/-! ## Feasible sizes -/

/-- Depth and cap failures grow with the size; the others do not. -/
def simFailureIsSizeMonotonic : Option MinimalSimFailure → Bool
  | some (.v2ReserveExhausted _) => true
  | some (.clCapExceeded _) => true
  | some (.shallowCl _) => true
  | some (.clSynthetic _) => true
  | some (.clTickless _) => true
  | some (.balancerMaxInRatio _) => true
  | some (.zeroOutput _ _) => true
  | _ => false

/-- `Some(0)` as soon as a concentrated-liquidity hop has no ticks. -/
def clAmountCap (arena : StateArena) (edges : List Edge) : Option U256 :=
  if edges.any fun edge => edge.protocol.isCl && ((arena.poolState edge.poolIndex).map clHopTickless).getD true
  then some 0 else none

/-- A route with such a hop is not traded above the probe size. -/
def ticklessClStartInputCap (arena : StateArena) (cycleStart : TokenIndex) (edges : List Edge) :
    Option U256 :=
  if clAmountCap arena edges = some 0 then some (arena.spotProbeForToken cycleStart) else none

/-- Bisection for the largest size between `lo` and `hi` that does not fail. -/
def largestFeasible (fails : U256 → Run Bool) : ℕ → U256 → U256 → Run U256
  | 0, lo, _ => pure lo
  | n + 1, lo, hi =>
      if saturatingSub hi lo ≤ 1#256 then pure lo
      else do
        let mid := lo + (hi - lo) / 2#256
        if ← fails mid then largestFeasible fails n lo mid else largestFeasible fails n mid hi

inductive ClDepthHighClamp
  | noop
  | clamped (high : U256)
  | windowInfeasible

/-- When the upper end does not simulate, the largest size that does. -/
def clampBrentHighToClFeasible (arena : StateArena) (edges : List Edge)
    (low high economicFloor : U256) (shallowCaps : Option ShallowCaps) : Run ClDepthHighClamp :=
  let fails amount := (simulateRouteMinimalWithCaps arena edges amount shallowCaps).map (·.isNone)
  if routeHasClHop edges = false then pure .noop
  else do
    if !(← fails high) then pure .noop
    else
      let floor := if low < economicFloor then economicFloor else low
      if high ≤ floor then pure .windowInfeasible
      else if ← fails floor then pure .windowInfeasible
      else do
        let lo ← largestFeasible fails 12 floor high
        pure (if lo < high ∧ floor ≤ lo then .clamped lo else .windowInfeasible)

inductive BalancerHighClamp
  | windowInfeasible
  | clamped (low high : U256)

/-- Keep the window below the vault's `MAX_IN_RATIO`, five percent under the last size that passes.  A
lower end that is already too large is moved down to the economic floor. -/
def balancerMaxInHighClamp (arena : StateArena) (edges : List Edge) (low high economicFloor : U256) :
    Run (Option BalancerHighClamp) :=
  let hitsMaxIn amount := (minimalSimFailure arena edges amount).map fun
    | some (.balancerMaxInRatio _) => true
    | _ => false
  let haircut lo := saturatingMul lo 95#256 / 100#256
  if high ≤ low ∨ (edges.any fun e => e.protocol = .balancerV2) = false then pure none
  else do
    if ← hitsMaxIn low then
      let floor := min economicFloor low
      if floor = 0 then pure (some .windowInfeasible)
      else if ← hitsMaxIn floor then pure (some .windowInfeasible)
      else do
        let lo ← largestFeasible hitsMaxIn 48 floor low
        let clamped := max (haircut lo) floor
        if clamped ≤ floor then
          pure (some (.clamped floor (min (saturatingAdd floor 1#256) (max lo floor))))
        else pure (some (.clamped floor clamped))
    else if ← hitsMaxIn high then
      let lo ← largestFeasible hitsMaxIn 48 low high
      let clamped := if haircut lo ≤ low then saturatingAdd low 1#256 else haircut lo
      pure (if clamped < high then some (.clamped low clamped) else none)
    else pure none

/-! ## Sizing a route -/

structure OptimizationResult where
  optimalInput : U256
  expectedGross : U256
  netProfit : U256
  totalGas : ℕ
  searchLow : U256

/-- What the objective remembers: simulations by size, the first size that failed, and the counter of
the sampled diagnosis. -/
structure SizingMemo where
  simCache : List (U256 × MinimalSimResult)
  firstInfeasible : U256
  simNoneSamples : ℕ

/-- Every sixteenth failure is diagnosed. -/
def SizingMemo.shouldSampleSimNone (memo : SizingMemo) : Bool × SizingMemo :=
  (memo.simNoneSamples % 16 = 0, { memo with simNoneSamples := memo.simNoneSamples + 1 })

namespace SizingInput

variable (input : SizingInput)

/-- The window a search runs in. -/
structure Window where
  low : U256
  high : U256
  economicFloor : U256
  startDecimals : BitVec 8
  startRate : U256
  shallowCaps : Option ShallowCaps

def Window.sanity (w : Window) (amountIn grossProfit searchLow : U256) : SimSanityInput :=
  ⟨amountIn, grossProfit, searchLow, w.startDecimals, w.startRate⟩

/-- Route gas is resolved the way the assessment resolves it. -/
def resolveGas (sim : MinimalSimResult) : MinimalSimResult :=
  { sim with totalGas := assessmentGasUnits input.gasOracle input.cycle.edges sim.totalGas }

def score (sim : MinimalSimResult) (amount : U256) : U256 :=
  if sim.profit = 0 then 0 else brentScoreMaticFromSim input.fees sim amount input.profitCtx

/-- A size failed.  Sizes above it are not tried again, unless the failure is of a kind that a larger
size may not have. -/
def recordSimNone (w : Window) (amount : U256) (memo : SizingMemo) : Run SizingMemo := do
  let firstSimNone := decide (w.high < memo.firstInfeasible)
  let memo := { memo with firstInfeasible := amount }
  let (diagnose, memo) := if firstSimNone then (true, memo) else memo.shouldSampleSimNone
  if diagnose then
    let failure ← minimalSimFailure input.arena input.cycle.edges amount
    pure (if simFailureIsSizeMonotonic failure then memo
      else { memo with firstInfeasible := saturatingAdd w.high 1#256 })
  else pure memo

/-- The objective of the search. -/
def evaluate (w : Window) (amount : U256) : StateT SizingMemo Run U256 := do
  let memo ← get
  if amount < w.economicFloor then pure 0
  else
    match memo.simCache.lookup amount with
    | some sim => pure (input.score sim amount)
    | none =>
        if memo.firstInfeasible ≤ amount then pure 0
        else
          match ← simulateRouteMinimalWithCaps input.arena input.cycle.edges amount w.shallowCaps with
          | some sim =>
              let sim := input.resolveGas sim
              if memo.simCache.length < brentCacheSlots then
                set { memo with simCache := memo.simCache ++ [(amount, sim)] }
              if sim.profit = 0 then pure 0
              else
                match checkSimSanityFast (w.sanity amount sim.profit w.low) with
                | .error _ => pure 0
                | .ok () => pure (brentScoreMaticFromSim input.fees sim amount input.profitCtx)
          | none =>
              set (← input.recordSimNone w amount memo)
              pure 0

/-- A route with a hop without ticks is taken at its cap or not at all. -/
def optimizeAtAmountCap (w : Window) (amount : U256) : Run (Option OptimizationResult) := do
  let sim ← simulateRouteMinimalWithCaps input.arena input.cycle.edges amount w.shallowCaps
  pure do
    let sim ← sim
    if sim.profit = 0 then none
    else
      match checkSimSanity (w.sanity amount sim.profit amount) with
      | .error _ => none
      | .ok () => some ⟨amount, sim.amountOut, sim.profit, sim.totalGas, amount⟩

/-- Search the window and check the best size. -/
def searchWindow (w : Window) (simNoneSamples : ℕ) : Run (Option OptimizationResult) := do
  let (optimal, memo) ←
    (solveBrentOptimalWarm (input.evaluate w) w.low w.high input.maxIterations []).run
      ⟨[], saturatingAdd w.high 1#256, simNoneSamples⟩
  if optimal < w.economicFloor then pure none
  else
    let sim ← match memo.simCache.lookup optimal with
      | some sim => pure (some sim)
      | none =>
          (simulateRouteMinimalWithCaps input.arena input.cycle.edges optimal w.shallowCaps).map
            (·.map input.resolveGas)
    pure do
      let sim ← sim
      if sim.profit = 0 then none
      else
        let sanity := w.sanity optimal sim.profit w.low
        match checkSimSanityForDispatch sanity with
        | .error _ => none
        | .ok () =>
            let searchLow := if (checkSimSanity sanity).isOk then w.low else 0
            some ⟨optimal, sim.amountOut, sim.profit, sim.totalGas, searchLow⟩

/-- Tighten the window to sizes that simulate, then search it. -/
def searchFeasible (w : Window) (simNoneSamples : ℕ) : Run (Option OptimizationResult) := do
  match ← balancerMaxInHighClamp input.arena input.cycle.edges w.low w.high w.economicFloor with
  | some .windowInfeasible => pure none
  | some (.clamped low high) =>
      if high ≤ low then pure none else clampToDepth { w with low := low, high := high }
  | none => clampToDepth w
where
  clampToDepth (w : Window) : Run (Option OptimizationResult) := do
    match ← clampBrentHighToClFeasible input.arena input.cycle.edges w.low w.high w.economicFloor
        w.shallowCaps with
    | .noop => input.searchWindow w simNoneSamples
    | .windowInfeasible => pure none
    | .clamped high =>
        if high ≤ w.low then pure none
        else input.searchWindow { w with high := high } simNoneSamples

/-- The decimals of the start token have to be known; only an empty table is filled in. -/
def startDecimals : Option (BitVec 8) :=
  explicitDecimalsForIndex input.cycle.startToken input.arena input.tokenDecimals <|>
    if input.tokenDecimals.isEmpty then
      some (resolveTokenDecimalsForIndex input.cycle.startToken input.arena input.tokenDecimals)
    else none

/-- `optimize_cycle` as the capped re-sizing calls it, without probe seeds and without the simulation
cache that evaluation workers share. -/
def optimizeCycle (simNoneSamples : ℕ) : Run (Option OptimizationResult) :=
  let edges := input.cycle.edges
  match resolveTokenToMaticRateOrBootstrap input.cycle.startToken input.tokenToMaticRates,
    input.startDecimals with
  | some startRate, some startDecimals =>
      if startRate = 0 then pure none
      else
        match input.computeTernarySearchBounds startRate startDecimals with
        | none => pure none
        | some bounds => do
            let floor := minEconomicAmountIn startDecimals startRate
            let shallowCaps ← precomputeRouteShallowCaps input.arena edges
            let w : Window := ⟨bounds.low, bounds.high, floor, startDecimals, startRate, shallowCaps⟩
            match ticklessClStartInputCap input.arena input.cycle.startToken edges with
            | none => input.searchFeasible w simNoneSamples
            | some cap =>
                if cap = 0 then pure none
                else if cap < floor then input.optimizeAtAmountCap w cap
                else
                  let w := { w with high := min w.high cap }
                  if w.high ≤ w.low then pure none else input.searchFeasible w simNoneSamples
  | _, _ => pure none

end SizingInput

end PolygonArb

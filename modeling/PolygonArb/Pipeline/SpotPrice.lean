import PolygonArb.Pipeline.HopSim

/-!
# Marginal ratios

`pipeline/spot_price.rs`: the probe a token is quoted at, the fixed-point ratio of an edge at that
probe, and the ratio product of a route.  Ratios are fixed point with `one18` as one.

`poolStateGraphEligible` (from `pipeline/graph.rs`) is here too: it is the gate that asks a pool for
one edge with a positive spot before the arena admits it.
-/

namespace PolygonArb

open Word

/-- `ten_pow_u256`: the power wraps above a word. -/
def tenPowU256 (decimals : ℕ) : U256 := BitVec.ofNat 256 (10 ^ decimals)

/-- Decimal-aware marginal probe. -/
def spotProbeForDecimals (decimals : ℕ) : U256 :=
  let scale := tenPowU256 decimals
  let expProbe := if 6 ≤ decimals then tenPowU256 (decimals - 6) else 1#256
  let dustFloor := scale / 1000#256
  let cap := scale / 100#256
  min (max (max expProbe dustFloor) 1000#256) cap

/-! ## Ratio products -/

/-- Multiply two fixed-point ratios; `none` when the product exceeds a word. -/
def mulRatio (a b : U256) : Option U256 :=
  if a = 0 ∨ b = 0 then some 0
  else if a = one18 then some b
  else if b = one18 then some a
  else ofNatChecked (a.toNat * b.toNat / one18.toNat)

/-- Chained ratio product; an overflow saturates. -/
def mulRatioSaturating (a b : U256) : U256 := (mulRatio a b).getD maxValue

/-- Minimum cycle ratio for a hop count to clear fee and gas drag. -/
def minProfitableCycleRatio (hops : ℕ) : U256 :=
  if hops ≤ 2 then saturatingAdd one18 1#256
  else
    let dragBps := 20 + (hops - 2) * 38
    saturatingAdd one18 (one18 * BitVec.ofNat 256 dragBps / 10000#256)

/-! ## Edge ratios -/

def simulatedEdgeRatio (out probe : U256) : Option U256 :=
  if out = 0 ∨ probe = 0 then none
  else ofNatChecked (out.toNat * one18.toNat / probe.toNat)

def v2MarginalProbe (probe reserveIn : U256) : Option U256 :=
  if reserveIn ≤ 1#256 then none
  else
    let amount := min probe (reserveIn - 1#256)
    if amount = 0 then none else some amount

def v2EdgeRatioU256 (state : V2PoolState) (edge : Edge) (probe : U256) : Run (Option U256) :=
  match v2MarginalProbe probe (v2ReserveIn state edge.zeroForOne) with
  | none => some none
  | some amount =>
      (simulateV2Swap state amount edge.zeroForOne (some edge.feeBps)).map fun out =>
        simulatedEdgeRatio out amount

def clampFeeBps (feeBps : ℕ) : ℕ := min feeBps 9999

/-- Spot ratio of token0 in token1: the square of the price, split at 96 bits. -/
def clSpotZeroForOne (sqrt : U256) : Option U256 := do
  let sqrtHi := sqrt.toNat / 2 ^ 96
  let sqrtLo := sqrt.toNat % 2 ^ 96
  let hiSq ← ofNatChecked (sqrtHi * sqrtHi)
  let hiTerm ← checkedMul hiSq one18
  let crossTerm := truncate256 (wrap512 (sqrtHi * sqrtLo * one18.toNat) / 2 ^ 95)
  let loTerm := truncate256 (wrap512 (sqrtLo * sqrtLo * one18.toNat) / 2 ^ 192)
  let s ← checkedAdd hiTerm crossTerm
  checkedAdd s loTerm

/-- Spot ratio of token1 in token0. -/
def clSpotOneForZero (sqrt : U256) : Option U256 :=
  let raw := 2 ^ 192 * one18.toNat / (sqrt.toNat * sqrt.toNat)
  if raw = 0 then none else some (truncate256 raw)

/-- Spot ratio of a concentrated-liquidity pool, after the edge fee (tickless fallback). -/
def clSpotU256 (state : ConcentratedLiquidityPoolState) (edge : Edge) : Option U256 :=
  if state.sqrtPriceX96 = 0 then none
  else do
    let spot ← (if edge.zeroForOne then clSpotZeroForOne state.sqrtPriceX96
      else clSpotOneForZero state.sqrtPriceX96)
    let feeNumer := BitVec.ofNat 256 (10000 - clampFeeBps edge.feeBps)
    (checkedMul spot feeNumer).map (· / 10000#256)

/-- Edge ratio of a pool with loaded ticks, by simulating the probe. -/
def clEdgeRatioU256 (state : ConcentratedLiquidityPoolState) (edge : Edge) (probe : U256) :
    Run (Option U256) :=
  if probe = 0 then some (clSpotU256 state edge)
  else
    (simulateV3Swap state probe edge.zeroForOne (some edge.feeBps)
      (edge.protocol = .uniswapV4)).map fun r =>
        if r.shallow then none else simulatedEdgeRatio r.amountOut probe

def clEdgeRatioFromState (state : ConcentratedLiquidityPoolState) (edge : Edge) (probe : U256) :
    Run U256 :=
  if state.ticks.isEmpty then some ((clSpotU256 state edge).getD 0)
  else (clEdgeRatioU256 state edge probe).map (·.getD 0)

/-- Marginal output/input ratio at `probe`; zero when the pool cannot quote it. -/
def edgeRatioFromState (state : PoolState) (edge : Edge) (probe : U256) : Run U256 :=
  if probe = 0 ∨ state.isTradable = false then some 0
  else
    match state, edge.protocol with
    | .v2 s, .uniswapV2 => (v2EdgeRatioU256 s edge probe).map (·.getD 0)
    | .v3 s, .uniswapV3 | .v4 s, .uniswapV4 => clEdgeRatioFromState s edge probe
    | _, _ =>
        (simulateHopAmountOutWithCap state edge probe probe).map fun out =>
          (simulatedEdgeRatio (out.getD 0) probe).getD 0

/-! ## The graph gate -/

/-- `spot_price_from_state(..) > 0.0`: the float is the ratio over `1e18`, positive exactly when the
ratio is not zero. -/
def hasPositiveSpot (state : PoolState) (edge : Edge) (tokenInDecimals : ℕ) : Run Bool :=
  (edgeRatioFromState state edge (spotProbeForDecimals tokenInDecimals)).map (· ≠ 0)

/-- The probe edge of one direction of a pair. -/
def directPairProbeEdge (protocol : ProtocolType) (feeBps : ℕ) (zeroForOne : Bool) : Edge where
  poolIndex := 0
  tokenIn := if zeroForOne then 0 else 1
  tokenOut := if zeroForOne then 1 else 0
  tokenInIdx := if zeroForOne then 0 else 1
  tokenOutIdx := if zeroForOne then 1 else 0
  protocol := protocol
  feeBps := feeBps
  zeroForOne := zeroForOne

def directionHasMarginalSpot (state : PoolState) (edge : Edge) (decimals : ℕ) : Run Bool :=
  if state.hopPairRoutable edge.tokenInIdx edge.tokenOutIdx then
    hasPositiveSpot state edge decimals
  else some false

def directPairHasMarginalSpot (state : PoolState) (protocol : ProtocolType) (feeBps : ℕ)
    (inputDecimals : ℕ × ℕ) : Run Bool := do
  let forward ← directionHasMarginalSpot state (directPairProbeEdge protocol feeBps true)
    inputDecimals.1
  if forward then some true
  else
    directionHasMarginalSpot state (directPairProbeEdge protocol feeBps false) inputDecimals.2

/-- Some pair of the list, taken in order, is routable one way or the other. -/
def anyPairRoutable (state : PoolState) : List ℕ → Bool
  | [] => false
  | i :: rest =>
      (rest.any fun j => state.hopPairRoutable i j || state.hopPairRoutable j i)
        || anyPairRoutable state rest

/-- A tradable pool would emit at least one routable graph edge. -/
def poolStateGraphEligible (state : PoolState) (protocol : ProtocolType) (tokenCount : ℕ)
    (bptIndex : Option ℕ) (feeBps : ℕ) (pairInputDecimals : Option (ℕ × ℕ)) : Run Bool :=
  if state.isTradable = false ∨ tokenCount < 2 then some false
  else if tokenCount = 2 ∧ protocol ≠ .uniswapV4 then
    match pairInputDecimals with
    | none => some false
    | some decimals => directPairHasMarginalSpot state protocol feeBps decimals
  else
    let funded := (List.range tokenCount).filter fun i =>
      bptIndex ≠ some i && state.hopTokenFunded i
    some (anyPairRoutable state (funded.map (· % 2 ^ 8)))

end PolygonArb

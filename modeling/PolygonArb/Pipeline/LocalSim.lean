import PolygonArb.Pipeline.Arena
import PolygonArb.Pipeline.RouteCalls

/-!
# Route simulation

The route half of `pipeline/local_sim.rs`.  Three functions walk a route over an arena: the minimal
simulator (profit only), the detailed one (every hop amount) and `minimalSimFailure`, which names
the hop that fails and why.  `routeHopFidelityReject` re-checks the hop amounts of a walk.

Each is a loop over the edges whose body is a function of its own (`walkHop`, `diagnoseHop`,
`hopFidelityReject`); what they have to do with each other is in `RouteTrace`.
-/

namespace PolygonArb

open Word

/-! ## Gas -/

/-- `u32` addition of the release build. -/
def wrapAdd32 (a b : ℕ) : ℕ := (a + b) % 2 ^ 32

def saturatingAdd32 (a b : ℕ) : ℕ := min (a + b) (2 ^ 32 - 1)

def saturatingMul32 (a b : ℕ) : ℕ := min (a * b) (2 ^ 32 - 1)

def routeExecutionGasOverhead : ℕ := 100000

def perHopExecutorGasOverhead : ℕ := 18000

def gasColdSload : ℕ := 2100

def gasWarmSload : ℕ := 100

def estimateHopGas : ProtocolType → ℕ
  | .uniswapV2 => gasV2Hop
  | .uniswapV3 => gasV3Base
  | .uniswapV4 => gasV4Base
  | .curveStable | .curveCrypto => gasCurveHop
  | .balancerV2 => gasBalancerHop
  | .dodo => gasDodoHop
  | .woofi => gasWoofiHop

def balancerDirectBatchGas : ℕ → ℕ
  | 0 | 1 => 180000
  | 2 => 220000
  | 3 => 250000
  | _ => 280000

def dodoFlashBatchGas : ℕ → ℕ
  | 0 | 1 => 220000
  | 2 => 293000
  | 3 => 350000
  | _ => 410000

def estimateRouteStorageGas (hopCount coldPoolSlots : ℕ) : ℕ :=
  let hops := hopCount % 2 ^ 32
  if hops = 0 then 0
  else
    let cold := min coldPoolSlots hops
    let warmBase := saturatingMul32 (saturatingMul32 hops 4) gasWarmSload
    let coldPremium := saturatingMul32 cold (gasColdSload - gasWarmSload)
    saturatingAdd32 warmBase coldPremium

def estimateRouteGasFromHops (hopGas hopCount : ℕ) : ℕ :=
  (hopGas + routeExecutionGasOverhead + hopCount % 2 ^ 32 * perHopExecutorGasOverhead) % 2 ^ 32

def estimateRouteGasFromHopsEvm (hopGas hopCount coldPoolSlots : ℕ) : ℕ :=
  saturatingAdd32 (estimateRouteGasFromHops hopGas hopCount)
    (estimateRouteStorageGas hopCount coldPoolSlots)

def routeHopGasBudget (edges : List Edge) : ℕ :=
  if balancerDirectBatchEligible edges then balancerDirectBatchGas edges.length
  else if dodoFlashBatchEligible edges then dodoFlashBatchGas edges.length
  else (edges.map fun e => estimateHopGas e.protocol).sum % 2 ^ 32

/-- Route gas for ranking: the static budget or the walked gas, whichever is higher. -/
def finalizeRouteTotalGas (edges : List Edge) (walkedHopGas : ℕ) : ℕ :=
  let hopCount := edges.length
  if hopCount = 0 then routeExecutionGasOverhead
  else if balancerDirectBatchEligible edges then balancerDirectBatchGas hopCount
  else if dodoFlashBatchEligible edges then dodoFlashBatchGas hopCount
  else
    let staticGas := estimateRouteGasFromHopsEvm (routeHopGasBudget edges) hopCount
      (hopCount % 2 ^ 32)
    if walkedHopGas = 0 then staticGas
    else
      max staticGas (saturatingAdd32 (estimateRouteGasFromHops walkedHopGas hopCount)
        (estimateRouteStorageGas hopCount (hopCount % 2 ^ 32)))

/-! ## Caps -/

/-- Per-hop input caps, `[U256; HOP_CAP_USIZE]`. -/
abbrev ShallowCaps := Vector U256 hopCap

def noCaps : ShallowCaps := Vector.replicate hopCap maxValue

/-- The cap an earlier concentrated-liquidity hop on the same token already has. -/
def reusedCap (edges : List Edge) (caps : ShallowCaps) (i : ℕ) (edge : Edge) : Option U256 :=
  (List.range i).findSome? fun j =>
    (edges[j]?).bind fun earlier =>
      if earlier.protocol.isCl && earlier.tokenIn = edge.tokenIn then
        caps[j]?.filter (· < maxValue)
      else none

/-- Caps for tickless hops only; every other hop keeps the maximum.  A route longer than the array
panics at its first tickless hop beyond it. -/
def routeShallowCapsWith (edges : List Edge) (probeForToken : TokenIndex → U256)
    (hopIsTickless : Edge → Bool) : Run ShallowCaps :=
  edges.zipIdx.foldlM (fun caps (edge, i) =>
    if edge.protocol.isCl && hopIsTickless edge then
      if h : i < hopCap then
        some (caps.set i ((reusedCap edges caps i edge).getD (probeForToken edge.tokenIn)) h)
      else none
    else some caps) noCaps

/-- A missing or foreign state counts as tickless. -/
def edgeTickless (arena : StateArena) (edge : Edge) : Bool :=
  match arena.poolState edge.poolIndex with
  | some (.v3 s) | some (.v4 s) => s.ticks.isEmpty
  | _ => true

def routeShallowCaps (arena : StateArena) (edges : List Edge) : Run ShallowCaps :=
  routeShallowCapsWith edges arena.spotProbeForToken (edgeTickless arena)

def routeHasClHop (edges : List Edge) : Bool := edges.any fun edge => edge.protocol.isCl

/-- The caps a walk uses: the ones it is given, else the ones of the route. -/
def resolveCaps (arena : StateArena) (edges : List Edge) (precomputed : Option ShallowCaps) :
    Run ShallowCaps :=
  match precomputed with
  | some caps => some caps
  | none => if routeHasClHop edges then routeShallowCaps arena edges else some noCaps

def precomputeRouteShallowCaps (arena : StateArena) (edges : List Edge) :
    Run (Option ShallowCaps) :=
  if routeHasClHop edges then (routeShallowCaps arena edges).map some else some none

/-! ## Realignment -/

/-- The token list the leg indices of a multi-token pool follow. -/
def vaultTokens : PoolState → Option (List Address)
  | .balancer s => if s.tokens.isEmpty then none else some s.tokens
  | .woofi s => if s.tokens.isEmpty then none else some s.tokens
  | .dodo s =>
      if s.baseToken ≠ 0 ∧ s.quoteToken ≠ 0 then some [s.baseToken, s.quoteToken] else none
  | _ => none

def multiTokenEdgeAligned (state : PoolState) (edge : Edge) (tokenIn tokenOut : Address) : Bool :=
  match vaultTokens state with
  | none => true
  | some tokens =>
      tokens[edge.tokenInIdx]? = some tokenIn && tokens[edge.tokenOutIdx]? = some tokenOut

/-- Leg indices by token address; they must fit `u8`. -/
def resolveMultiTokenVaultIndices (tokens : List Address) (tokenIn tokenOut : Address) :
    Option (ℕ × ℕ) :=
  if tokenIn = tokenOut then none
  else do
    let inIdx ← tokens.findIdx? (· = tokenIn)
    let outIdx ← tokens.findIdx? (· = tokenOut)
    if inIdx < 2 ^ 8 ∧ outIdx < 2 ^ 8 then some (inIdx, outIdx) else none

/-- The edge with the pool's own leg indices; `none` when the pool does not hold its tokens. -/
def realignMultiTokenEdge (arena : StateArena) (state : PoolState) (edge : Edge) : Option Edge :=
  if edge.protocol.isMultiToken then
    match vaultTokens state with
    | none => some edge
    | some tokens => do
        let tin ← arena.tokenAddress edge.tokenIn
        let tout ← arena.tokenAddress edge.tokenOut
        if multiTokenEdgeAligned state edge tin tout then some edge
        else do
          let (inIdx, outIdx) ← resolveMultiTokenVaultIndices tokens tin tout
          if state.hopPairRoutable inIdx outIdx then
            some { edge with tokenInIdx := inIdx, tokenOutIdx := outIdx, zeroForOne := inIdx < outIdx }
          else none
  else some edge

/-! ## The walk -/

/-- One hop of the walk. -/
def walkHop (arena : StateArena) (edge : Edge) (current cap : U256) : Run (Option HopResult) :=
  match arena.poolState edge.poolIndex with
  | none => some none
  | some state =>
      if state.isTradable = false then some none
      else
        match realignMultiTokenEdge arena state edge with
        | none => some none
        | some edge =>
            (simulateHop state edge current cap).map fun
            | .error _ => none
            | .ok hop => if 0 < current ∧ hop.amountOut = 0 then none else some hop

/-- The locals of `walk_route_hops`; the amounts are the caller's buffer, if it passed one. -/
structure RouteWalk where
  current : U256
  totalGas : ℕ
  hopAmounts : Option (List U256)
  deriving DecidableEq

/-- `*amounts.get_mut(i)? = v`, when there is a buffer. -/
def RouteWalk.record (w : RouteWalk) (i : ℕ) (v : U256) : Option RouteWalk :=
  match w.hopAmounts with
  | none => some w
  | some amounts =>
      if i < amounts.length then some { w with hopAmounts := some (amounts.set i v) } else none

/-- The hop loop, from hop `i` on. -/
def walkHopsFrom (arena : StateArena) (caps : ShallowCaps) :
    ℕ → List Edge → RouteWalk → Run (Option RouteWalk)
  | _, [], w => some (some w)
  | i, edge :: edges, w => do
      let cap ← caps[i]?
      let hop ← walkHop arena edge w.current cap
      match hop with
      | none => some none
      | some hop =>
          let next : RouteWalk := ⟨hop.amountOut, wrapAdd32 w.totalGas hop.gas, w.hopAmounts⟩
          match next.record (i + 1) hop.amountOut with
          | none => some none
          | some next => walkHopsFrom arena caps (i + 1) edges next

def walkRouteHops (arena : StateArena) (edges : List Edge) (amountIn : U256)
    (hopAmounts : Option (List U256)) (precomputed : Option ShallowCaps) :
    Run (Option RouteWalk) :=
  if hopCap < edges.length then some none
  else do
    let caps ← resolveCaps arena edges precomputed
    match (RouteWalk.mk amountIn 0 hopAmounts).record 0 amountIn with
    | none => some none
    | some w => walkHopsFrom arena caps 0 edges w

/-- Address-aware continuity of two consecutive hops. -/
def hopContinuous (arena : StateArena) (prev next : Edge) : Bool :=
  match arena.tokenAddress prev.tokenOut, arena.tokenAddress next.tokenIn with
  | some a, some b => a = b
  | _, _ => prev.tokenOut = next.tokenIn

def firstHopContinuityBreakInArena (arena : StateArena) (edges : List Edge) : Option ℕ :=
  (edges.zip edges.tail).findIdx? fun (prev, next) => !hopContinuous arena prev next

def routeEdgesSimulatable (arena : StateArena) (edges : List Edge) : Bool :=
  !edges.isEmpty && edges.length ≤ hopCap && (firstHopContinuityBreakInArena arena edges).isNone

structure MinimalSimResult where
  profit : U256
  amountOut : U256
  totalGas : ℕ
  deriving DecidableEq

structure RouteSimulationResult where
  amountIn : U256
  amountOut : U256
  profit : U256
  profitable : Bool
  hopAmounts : List U256
  totalGas : ℕ
  hopCount : ℕ
  deriving DecidableEq

def simulateRouteMinimalWithCaps (arena : StateArena) (edges : List Edge) (amountIn : U256)
    (precomputed : Option ShallowCaps) : Run (Option MinimalSimResult) :=
  if routeEdgesSimulatable arena edges = false then some none
  else if amountIn = 0 then some (some ⟨0, 0, finalizeRouteTotalGas edges 0⟩)
  else
    (walkRouteHops arena edges amountIn none precomputed).map (·.map fun w =>
      { profit := saturatingSub w.current amountIn
        amountOut := w.current
        totalGas := finalizeRouteTotalGas edges w.totalGas })

def simulateRouteMinimal (arena : StateArena) (edges : List Edge) (amountIn : U256) :
    Run (Option MinimalSimResult) :=
  simulateRouteMinimalWithCaps arena edges amountIn none

def hopAmountsZeroed (hopCount : ℕ) : List U256 := List.replicate (hopCount + 1) 0

def simulateRouteDetailedWithCaps (arena : StateArena) (edges : List Edge) (amountIn : U256)
    (precomputed : Option ShallowCaps) : Run (Option RouteSimulationResult) :=
  if routeEdgesSimulatable arena edges = false then some none
  else if amountIn = 0 then
    some (some
      { amountIn := 0
        amountOut := 0
        profit := 0
        profitable := false
        hopAmounts := hopAmountsZeroed edges.length
        totalGas := finalizeRouteTotalGas edges 0
        hopCount := edges.length % 2 ^ 32 })
  else
    (walkRouteHops arena edges amountIn (some (hopAmountsZeroed edges.length)) precomputed).map
      (·.map fun w =>
        let profit := saturatingSub w.current amountIn
        { amountIn := amountIn
          amountOut := w.current
          profit := profit
          profitable := 0 < profit
          hopAmounts := w.hopAmounts.getD []
          totalGas := finalizeRouteTotalGas edges w.totalGas
          hopCount := edges.length % 2 ^ 32 })

def simulateRouteDetailed (arena : StateArena) (edges : List Edge) (amountIn : U256) :
    Run (Option RouteSimulationResult) :=
  simulateRouteDetailedWithCaps arena edges amountIn none

/-! ## The diagnostic -/

inductive UnsupportedStateKind
  | invalid
  | v2
  | v3
  | v4
  | curve
  | balancer
  | dodo
  | woofi
  deriving DecidableEq

def poolStateKind : PoolState → UnsupportedStateKind
  | .invalid => .invalid
  | .v2 _ => .v2
  | .v3 _ => .v3
  | .v4 _ => .v4
  | .curve _ => .curve
  | .balancer _ => .balancer
  | .dodo _ => .dodo
  | .woofi _ => .woofi

inductive MinimalSimFailure
  | invalidRoute
  | missingPool (hop : ℕ)
  | nonTradable (hop : ℕ)
  | clTickless (hop : ℕ)
  | clCapExceeded (hop : ℕ)
  | clSynthetic (hop : ℕ)
  | shallowCl (hop : ℕ)
  | v2ReserveExhausted (hop : ℕ)
  | tokenMismatch (hop : ℕ)
  | math (hop : ℕ)
  | unsupportedState (hop : ℕ) (expected : ProtocolType) (actual : UnsupportedStateKind)
  | balancerMaxInRatio (hop : ℕ)
  | zeroOutput (hop : ℕ) (protocol : ProtocolType)
  deriving DecidableEq

/-- Either concentrated-liquidity state. -/
def PoolState.isCl : PoolState → Bool
  | .v3 _ | .v4 _ => true
  | _ => false

/-- The cap and family arms of the classification. -/
def classifyFamily (state : PoolState) (edge : Edge) (hop : ℕ) (current cap : U256) :
    Option MinimalSimFailure :=
  if state.isCl && edge.protocol.isCl && clHopExceedsShallowCap current cap then
    some (if clHopTickless state then .clTickless hop else .clCapExceeded hop)
  else if protocolMatchesPoolState edge.protocol state then none
  else some (.unsupportedState hop edge.protocol (poolStateKind state))

/-- The failures classified before the hop is simulated. -/
def classifyHop (state : PoolState) (edge : Edge) (hop : ℕ) (current cap : U256) :
    Option MinimalSimFailure :=
  match state, edge.protocol with
  | .v2 s, .uniswapV2 =>
      if v2ReserveIn s edge.zeroForOne ≤ current then some (.v2ReserveExhausted hop) else none
  | _, _ => classifyFamily state edge hop current cap

/-- The failure a refused simulation is reported as. -/
def failureOfReject (arena : StateArena) (state : PoolState) (edge : Edge) (hop : ℕ)
    (current : U256) : HopReject → MinimalSimFailure
  | .clCap => if clHopTickless state then .clTickless hop else .clCapExceeded hop
  | .clSynthetic => .clSynthetic hop
  | .clShallow => .shallowCl hop
  | .math =>
      match state, edge.protocol with
      | .balancer s, .balancerV2 =>
          let bal := balancerBalanceIn s edge.tokenInIdx (arena.tokenAddress edge.tokenIn)
          if exceedsBalancerMaxInRatio current bal then .balancerMaxInRatio hop
          else .zeroOutput hop .balancerV2
      | _, .dodo => .zeroOutput hop .dodo
      | _, .woofi => .zeroOutput hop .woofi
      | _, _ => .math hop

/-- One hop of the diagnostic: the failure, or the amount that goes on. -/
def diagnoseHop (arena : StateArena) (hop : ℕ) (edge : Edge) (current cap : U256) :
    Run (Except MinimalSimFailure U256) :=
  match arena.poolState edge.poolIndex with
  | none => some (.error (.missingPool hop))
  | some state =>
      if state.isTradable = false then some (.error (.nonTradable hop))
      else
        match realignMultiTokenEdge arena state edge with
        | none => some (.error (.tokenMismatch hop))
        | some edge =>
            match classifyHop state edge hop current cap with
            | some failure => some (.error failure)
            | none =>
                (simulateHop state edge current cap).map fun
                | .error reject => .error (failureOfReject arena state edge hop current reject)
                | .ok result =>
                    if result.amountOut = 0 then .error (.zeroOutput hop edge.protocol)
                    else .ok result.amountOut

def minimalSimFailureFrom (arena : StateArena) (caps : ShallowCaps) :
    ℕ → List Edge → U256 → Run (Option MinimalSimFailure)
  | _, [], _ => some none
  | hop, edge :: edges, current => do
      let cap ← caps[hop]?
      let outcome ← diagnoseHop arena hop edge current cap
      match outcome with
      | .error failure => some (some failure)
      | .ok current => minimalSimFailureFrom arena caps (hop + 1) edges current

def minimalSimFailure (arena : StateArena) (edges : List Edge) (amountIn : U256) :
    Run (Option MinimalSimFailure) :=
  if routeEdgesSimulatable arena edges = false then some (some .invalidRoute)
  else if amountIn = 0 then some none
  else do
    let caps ← resolveCaps arena edges none
    minimalSimFailureFrom arena caps 0 edges amountIn

/-! ## Fidelity -/

inductive HopFidelityReject
  | missingPool (hop : ℕ)
  | poolLocked (hop : ℕ)
  | shallowCl (hop : ℕ)
  | v2ReserveExhausted (hop : ℕ)
  deriving DecidableEq

/-- The tick-depth check of a hop with loaded ticks. -/
def clHopShallowAtAmount (state : PoolState) (edge : Edge) (hopProbe amountIn : U256) : Run Bool :=
  if clHopTickless state then some false
  else if clHopExceedsShallowCap amountIn hopProbe then some true
  else
    match state with
    | .v3 s | .v4 s =>
        (simulateV3Swap s amountIn edge.zeroForOne (some edge.feeBps)
          (edge.protocol = .uniswapV4)).map fun r => r.shallow || r.synthetic
    | _ => some false

/-- The fall-through check: a hop that no longer quotes its amount. -/
def hopQuoteReject (state : PoolState) (edge : Edge) (i : ℕ) (verified : Bool) (amountIn : U256) :
    Run (Option HopFidelityReject) :=
  if verified || amountIn = 0 then some none
  else
    (simulateHopAmountOut state edge amountIn).map fun out =>
      if out.isNone then some (.poolLocked i) else none

/-- The concentrated-liquidity and fall-through arms of the fidelity check.  `verified` skips what a
walk on the same arena has checked; the probe is read by concentrated-liquidity hops only. -/
def familyFidelityReject (state : PoolState) (hopProbe : Run U256) (i : ℕ) (edge : Edge)
    (amountIn : U256) (verified : Bool) : Run (Option HopFidelityReject) :=
  if state.isCl && edge.protocol.isCl then do
    let probe ← hopProbe
    if clHopTickless state || verified then
      some (if clHopExceedsShallowCap amountIn probe then some (.shallowCl i) else none)
    else do
      let shallow ← clHopShallowAtAmount state edge probe amountIn
      if shallow then some (some (.shallowCl i))
      else hopQuoteReject state edge i verified amountIn
  else hopQuoteReject state edge i verified amountIn

/-- The check of a hop whose pool is present and tradable. -/
def stateFidelityReject (state : PoolState) (hopProbe : Run U256) (i : ℕ) (edge : Edge)
    (amountIn : U256) (verified : Bool) : Run (Option HopFidelityReject) :=
  match state, edge.protocol with
  | .v2 s, .uniswapV2 =>
      some (if v2ReserveIn s edge.zeroForOne ≤ amountIn then some (.v2ReserveExhausted i) else none)
  | _, _ => familyFidelityReject state hopProbe i edge amountIn verified

/-- One hop of the fidelity check. -/
def hopFidelityReject (arena : StateArena) (hopProbe : Run U256) (i : ℕ) (edge : Edge)
    (amountIn : U256) (verified : Bool) : Run (Option HopFidelityReject) :=
  match arena.poolState edge.poolIndex with
  | none => some (some (.missingPool i))
  | some state =>
      if state.isTradable = false then some (some (.poolLocked i))
      else stateFidelityReject state hopProbe i edge amountIn verified

/-- The hop loop of the check. -/
def hopFidelityRejectFrom (arena : StateArena) (probes : ShallowCaps) (verified : Bool)
    (hopAmounts : List U256) : ℕ → List Edge → Run (Option HopFidelityReject)
  | _, [] => some none
  | i, edge :: edges => do
      let reject ← hopFidelityReject arena probes[i]? i edge (hopAmounts[i]?.getD 0) verified
      match reject with
      | some reject => some (some reject)
      | none => hopFidelityRejectFrom arena probes verified hopAmounts (i + 1) edges

def routeHopFidelityRejectProfiled (arena : StateArena) (edges : List Edge)
    (hopAmounts : List U256) (verified : Bool) (precomputedHopProbes : Option ShallowCaps) :
    Run (Option HopFidelityReject) := do
  let probes ← resolveCaps arena edges precomputedHopProbes
  hopFidelityRejectFrom arena probes verified hopAmounts 0 edges

/-- The slow path. -/
def routeHopFidelityReject (arena : StateArena) (edges : List Edge) (hopAmounts : List U256) :
    Run (Option HopFidelityReject) :=
  routeHopFidelityRejectProfiled arena edges hopAmounts false none

/-- The fast path after a walk on the same arena. -/
def routeHopFidelityOkAfterWalk (arena : StateArena) (edges : List Edge)
    (hopAmounts : List U256) : Run Bool :=
  (routeHopFidelityRejectProfiled arena edges hopAmounts true none).map Option.isNone

end PolygonArb

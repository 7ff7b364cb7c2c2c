import PolygonArb.Pipeline.LocalSim
import PolygonArb.Services.Payload
import PolygonArb.Services.Profit

/-!
# Encoding a route into executor calls

`services/execution/calldata`: one encoder per protocol family and the loop of `encode_route` that
threads the running amount (`chain_in`) and the place where the last hop left its output
(`funds_at`) through the hops.

Call data is kept as the arguments of the call (`CallData`); the ABI encoding of these arguments is
a library's.  `encodeHops` keeps the calls of each hop apart, `encodeRoute` concatenates them.
-/

namespace PolygonArb

open Word

/-! ## Hops and calls -/

structure CalldataHop where
  edge : Edge
  poolAddress : Address
  tokenIn : Address
  tokenOut : Address
  amountIn : U256
  amountOut : U256
  poolId : Option (BitVec 256)
  protocolLabel : Option String
  poolType : Option String
  router : Option Address
  hooks : Option Address

structure RouteEncodeConfig where
  slippageBps : BitVec 64
  deadline : U256

structure V4PoolKey where
  currency0 : Address
  currency1 : Address
  fee : BitVec 24
  tickSpacing : ℤ
  hooks : Address
  deriving DecidableEq

structure BalancerBatchSwapStep where
  poolId : BitVec 256
  assetInIndex : ℕ
  assetOutIndex : ℕ
  amount : U256
  deriving DecidableEq

/-- The calls an encoder can make, with their arguments.  Arguments that are the same in every call
(Balancer's swap kind and empty user data, the empty V2 callback data) are left out. -/
inductive CallData
  | approve (spender : Address) (amount : U256)
  | transfer (dst : Address) (amount : U256)
  | transferAll (token dst : Address)
  | v2Swap (amount0Out amount1Out : U256) (dst : Address)
  | v3Swap (recipient : Address) (zeroForOne : Bool) (amountSpecified : ℤ)
      (sqrtPriceLimitX96 : BitVec 160) (protocolId : ℕ) (token0 token1 : Address) (feePips : ℕ)
  | v4Unlock (key : V4PoolKey) (zeroForOne : Bool) (amountSpecified : ℤ) (sqrtPriceLimitX96 : U256)
  | balancerSwap (poolId : BitVec 256) (assetIn assetOut : Address) (amount : U256)
      (sender recipient : Address) (limit deadline : U256)
  | balancerBatchSwap (swaps : List BalancerBatchSwapStep) (assets : List Address)
      (sender recipient : Address) (limits : List ℤ) (deadline : U256)
  | curveNgExchange (i j : ℕ) (dx minDy : U256) (receiver : Address)
  | curveCryptoExchange (i j : ℕ) (dx minDy : U256)
  | curveStableExchange (i j : ℕ) (dx minDy : U256)
  | dodoSellBase (dst : Address)
  | dodoSellQuote (dst : Address)
  | woofiSwap (fromToken toToken : Address) (fromAmount minToAmount : U256)
      (dst rebateTo : Address)
  deriving DecidableEq

abbrev RouteCall := ExecutorCall CallData

/-- An encoder: it may abort (`none`), refuse with a message, or return. -/
abbrev Encode (α : Type) := ExceptT String Run α

/-- `ok_or_else`. -/
def orBail {α : Type} (x : Option α) (message : String) : Encode α :=
  match x with
  | some a => pure a
  | none => throw message

/-! ## Constants -/

def balancerVault : Address := 0xba12222222228d8ba445958a75a0704d566bf2c8#160

def woofiRouterV2 : Address := 0x4c4af8dbc524681930a27b2f1af5bcc8062e6fb7#160

def executionMinSlippageBps : BitVec 64 := 100#64

/-- Extra haircut on the amount chained into the next hop. -/
def executionChainInBufferBps : BitVec 64 := 300#64

/-- `slippage_bps.max(EXECUTION_MIN_SLIPPAGE_BPS)`. -/
def hopSlippageBps (slippageBps : BitVec 64) : BitVec 64 :=
  if slippageBps < executionMinSlippageBps then executionMinSlippageBps else slippageBps

def saturatingAdd64 (a b : BitVec 64) : BitVec 64 :=
  if a.toNat + b.toNat < 2 ^ 64 then a + b else BitVec.allOnes 64

/-! ## Labels -/

/-- ASCII case-insensitive substring test (`ic`). -/
def containsIgnoreCase (haystack needle : String) : Bool :=
  decide ((needle.toList.map Char.toLower) <:+: (haystack.toList.map Char.toLower))

def isCurveStableswapNgPoolType : Option String → Bool
  | none => false
  | some poolType =>
      let compact := (poolType.toList.filter Char.isAlphanum).map Char.toLower
      decide ("stableng".toList <:+: compact) || decide ("stableswapng".toList <:+: compact)

def curveUsesReceiver (poolType : Option String) : Bool := isCurveStableswapNgPoolType poolType

def isAlgebraIntegralProtocolLabel (raw : String) : Bool :=
  containsIgnoreCase raw "quickswap_v4" || containsIgnoreCase raw "quick_v4"

def isAlgebraProtocolLabel (raw : String) : Bool :=
  isAlgebraIntegralProtocolLabel raw || containsIgnoreCase raw "algebra"
    || containsIgnoreCase raw "quickswap_v3" || containsIgnoreCase raw "quick_v3"

def v3CallbackProtocolId : Option String → ℕ
  | none => 1
  | some l =>
      if containsIgnoreCase l "sushiswap_v3" || containsIgnoreCase l "sushi_v3" then 2
      else if containsIgnoreCase l "ramses" then 6
      else if isAlgebraIntegralProtocolLabel l then 4
      else if isAlgebraProtocolLabel l then 3
      else 1

/-- Hooks whose address flags ask for a swap callback are not supported. -/
def isSupportedV4Hook (hook : Address) : Bool := hook = 0 || (hook &&& 0x00cc#160) = 0

/-! ## Quotes -/

section Encoders

variable (arena : StateArena)

def quoteHopForExecution (hop : CalldataHop) : Run (Option U256) :=
  match arena.poolState hop.edge.poolIndex with
  | none => some none
  | some state =>
      match realignMultiTokenEdge arena state hop.edge with
      | none => some none
      | some edge => simulateHopAmountOutForExecution state edge hop.amountIn

def computeQuotedOut (hop : CalldataHop) (label : String) : Encode U256 := do
  let quote ← ExceptT.lift (quoteHopForExecution arena hop)
  orBail (quote.filter (· ≠ 0)) (label ++ " hop execution quote unavailable")

def computeMinOut (hop : CalldataHop) (slippageBps : BitVec 64) (label : String) : Encode U256 := do
  let quoted ← computeQuotedOut arena hop label
  orBail (slippageAdjusted quoted slippageBps) (label ++ " hop min out is zero")

/-- The tighter of the fresh minimum and the hop's own, when it has one. -/
def tightMinOut (hop : CalldataHop) (slippageBps : BitVec 64) (label : String) : Encode U256 := do
  let quoted ← computeMinOut arena hop (hopSlippageBps slippageBps) label
  pure (if hop.amountOut = 0 then quoted else min hop.amountOut quoted)

def clState : PoolState → Option ConcentratedLiquidityPoolState
  | .v3 s => some s
  | .v4 s => some s
  | _ => none

def resolveV3FeePipsForHop (hop : CalldataHop) : ℕ :=
  match arena.poolState hop.edge.poolIndex with
  | some (.v3 s) => min (resolveV3FeePips s.fee (some hop.edge.feeBps) false).toNat 0xffffff
  | some (.v4 s) => min (resolveV3FeePips s.fee (some hop.edge.feeBps) true).toNat 0xffffff
  | _ => min hop.edge.feeBps 0xffffff

/-- The pool the limit is simulated on: an explicit fee stands in for the pool's own. -/
def limitPool (state : ConcentratedLiquidityPoolState) (explicitFeePips : Option ℕ) :
    ConcentratedLiquidityPoolState :=
  explicitFeePips.elim state fun pips => { state with fee := BitVec.ofNat 256 pips }

/-- The edge's fee, which only counts without an explicit one. -/
def limitEdgeFee (edgeFeeBps : ℕ) (explicitFeePips : Option ℕ) : Option ℕ :=
  explicitFeePips.elim (some edgeFeeBps) fun _ => none

/-- The price limit a swap may push the pool to: where the simulated swap ends, moved on by half the
slippage. -/
def deriveTightV3PriceLimit (state : ConcentratedLiquidityPoolState) (amountIn quotedOut : U256)
    (zeroForOne : Bool) (edgeFeeBps : ℕ) (slippageBps : BitVec 64) (explicitFeePips : Option ℕ)
    (allowZeroPoolFee : Bool) : Encode U256 := do
  let sim ← ExceptT.lift (simulateV3Swap (limitPool state explicitFeePips) amountIn zeroForOne
    (limitEdgeFee edgeFeeBps explicitFeePips) allowZeroPoolFee)
  let fullRange := if zeroForOne then minSqrtRatio + 1#256 else maxSqrtRatioExclusive
  let after := sim.sqrtPriceX96After
  let movedOk :=
    if zeroForOne then decide (after < state.sqrtPriceX96 ∧ minSqrtRatio < after)
    else decide (state.sqrtPriceX96 < after ∧ after < maxSqrtRatio)
  if sim.shallow then
    if state.ticks.isEmpty && quotedOut ≠ 0 then pure fullRange
    else throw "v3 price limit: incomplete tick coverage"
  else if sim.synthetic then throw "v3 price limit: synthetic tick bound"
  else if after < minSqrtRatio ∨ maxSqrtRatio ≤ after then
    throw "v3 price limit: invalid sqrt after swap"
  else if movedOk = false ∧ quotedOut ≠ 0 then
    throw "v3 price limit: sqrt did not move in swap direction"
  else
    let slip : U256 := slippageBps.setWidth 256
    if zeroForOne then
      pure (max (after * (20000#256 - slip) / 20000#256) (minSqrtRatio + 1#256))
    else
      pure (min (after * (20000#256 + slip) / 20000#256) maxSqrtRatioExclusive)

structure ClSwapLimit where
  feePips : ℕ
  sqrtLimit : U256

/-- Fee and price limit of a concentrated-liquidity hop.  A hop that is not the last gets the full
range, so that it fills. -/
def resolveClSwapLimit (hop : CalldataHop) (slippageBps : BitVec 64) (fullRangeLimit : Bool)
    (prequotedOut : Option U256) (allowZeroPoolFee : Bool) (label : String) :
    Encode ClSwapLimit := do
  let poolState ← orBail (arena.poolState hop.edge.poolIndex)
    ("missing pool state for " ++ label ++ " hop")
  let state ← orBail (clState poolState) ("pool is not " ++ label ++ " state")
  let quotedOut ←
    match prequotedOut.filter (· ≠ 0) with
    | some q => pure q
    | none => do
        let quote ← ExceptT.lift (quoteHopForExecution arena hop)
        orBail quote (label ++ " execution quote unavailable")
  let feePips := resolveV3FeePipsForHop arena hop
  if fullRangeLimit then
    pure ⟨feePips, if hop.edge.zeroForOne then minSqrtRatio + 1#256 else maxSqrtRatioExclusive⟩
  else do
    let sqrtLimit ← deriveTightV3PriceLimit state hop.amountIn quotedOut hop.edge.zeroForOne
      hop.edge.feeBps slippageBps (some feePips) allowZeroPoolFee
    pure ⟨feePips, sqrtLimit⟩

/-! ## Approvals and transfers -/

/-- A call that sends no native value. -/
def execCall (target : Address) (data : CallData) : RouteCall := ⟨target, 0, data⟩

def encodeApproveIfNeeded (token spender : Address) (amount : U256) : RouteCall :=
  execCall token (.approve spender amount)

/-- Prefund `pool`: an ERC-20 transfer, or the executor's own `transferAll`. -/
def encodeTokenTransfer (executor token pool : Address) (amount : U256) (useTransferAll : Bool) :
    RouteCall :=
  if useTransferAll then execCall executor (.transferAll token pool)
  else execCall token (.transfer pool amount)

/-! ## One hop -/

inductive V2Prefund
  | exact
  | transferAll
  | skipped
  deriving DecidableEq

/-- The prefund call of a V2 hop. -/
def prefundCalls (executor : Address) (hop : CalldataHop) : V2Prefund → List RouteCall
  | .exact => [encodeTokenTransfer executor hop.tokenIn hop.poolAddress hop.amountIn false]
  | .transferAll => [encodeTokenTransfer executor hop.tokenIn hop.poolAddress hop.amountIn true]
  | .skipped => []

/-- The exact-out swap of a V2 hop. -/
def v2SwapData (hop : CalldataHop) (amountOut : U256) (swapTo : Address) : CallData :=
  if hop.edge.zeroForOne then .v2Swap 0 amountOut swapTo else .v2Swap amountOut 0 swapTo

/-- The calls of a V2 hop, and the exact amount its swap sends on. -/
def encodeV2Hop (hop : CalldataHop) (swapTo executor : Address) (slippageBps : BitVec 64)
    (prefund : V2Prefund) : Encode (List RouteCall × U256) :=
  if hop.edge.zeroForOne ≠ decide (hop.tokenIn < hop.tokenOut) then
    throw "v2 zero_for_one must match sorted token0 (token_in < token_out)"
  else do
    let amountOut ← tightMinOut arena hop slippageBps "v2"
    if amountOut = 0 then throw "v2 hop quoted amountOut is zero"
    else
      pure (prefundCalls executor hop prefund ++
        [execCall hop.poolAddress (v2SwapData hop amountOut swapTo)], amountOut)

/-- `I256::try_from`. -/
def i256OfU256 (v : U256) : Option ℤ := if v.toNat < 2 ^ 255 then some v.toNat else none

def sortedTokens (hop : CalldataHop) : Address × Address :=
  if hop.tokenIn < hop.tokenOut then (hop.tokenIn, hop.tokenOut) else (hop.tokenOut, hop.tokenIn)

def encodeV3Hop (hop : CalldataHop) (recipient : Address) (slippageBps : BitVec 64)
    (fullRangeLimit : Bool) (prequotedOut : Option U256) : Encode (List RouteCall) := do
  let limit ← resolveClSwapLimit arena hop slippageBps fullRangeLimit prequotedOut false "v3"
  if limit.feePips = 0 then throw "v3 encode refuse: fee_pips=0"
  else do
    let amountSpec ← orBail (i256OfU256 hop.amountIn) "v3 amount_in does not fit i256"
    if 2 ^ 160 ≤ limit.sqrtLimit.toNat then throw "v3 sqrt price limit does not fit uint160"
    else
      let tokens := sortedTokens hop
      pure [execCall hop.poolAddress (.v3Swap recipient hop.edge.zeroForOne amountSpec
        (limit.sqrtLimit.truncate 160) (v3CallbackProtocolId hop.protocolLabel) tokens.1 tokens.2
        limit.feePips)]

/-- Fee, tick spacing and hooks of the pool key. -/
def v4StaticFields (hop : CalldataHop) : ℕ × ℤ × Address :=
  let hooks := hop.hooks.getD 0
  match arena.poolState hop.edge.poolIndex with
  | some (.v4 s) =>
      (min (resolveV3FeePips s.fee (some hop.edge.feeBps) true).toNat 0xffffff, s.tickSpacing,
        hooks)
  | _ => (saturatingMul32 hop.edge.feeBps 100, 60, hooks)

/-- The pool key and the direction.  A fee that does not fit 24 bits aborts. -/
def buildV4PoolKey (tokenIn tokenOut : Address) (fee : ℕ) (tickSpacing : ℤ) (hooks : Address) :
    Encode (V4PoolKey × Bool) :=
  let currencies := if tokenIn < tokenOut then (tokenIn, tokenOut) else (tokenOut, tokenIn)
  if tickSpacing < -2 ^ 23 ∨ 2 ^ 23 ≤ tickSpacing then throw "v4 tick spacing does not fit int24"
  else if 2 ^ 24 ≤ fee then ExceptT.lift none
  else
    pure (⟨currencies.1, currencies.2, BitVec.ofNat 24 fee, tickSpacing, hooks⟩,
      decide (tokenIn = currencies.1))

def encodeV4Hop (hop : CalldataHop) (slippageBps : BitVec 64) (fullRangeLimit : Bool)
    (prequotedOut : Option U256) : Encode (List RouteCall) :=
  let (fee, tickSpacing, hooks) := v4StaticFields arena hop
  if isSupportedV4Hook hooks = false then throw "v4 swap-hook pools are blocked"
  else if hop.edge.zeroForOne ≠ decide (hop.tokenIn < hop.tokenOut) then
    throw "v4 zero_for_one must match sorted currency0 (token_in < token_out)"
  else do
    let limit ← resolveClSwapLimit arena hop slippageBps fullRangeLimit prequotedOut true "v4"
    let (key, zeroForOne) ← buildV4PoolKey hop.tokenIn hop.tokenOut fee tickSpacing hooks
    let amountPos ← orBail (i256OfU256 hop.amountIn) "v4 amount_in does not fit i256"
    pure [encodeApproveIfNeeded hop.tokenIn uniswapV4PoolManager hop.amountIn,
      execCall uniswapV4PoolManager (.v4Unlock key zeroForOne (-amountPos) limit.sqrtLimit)]

def encodeCurveHop (hop : CalldataHop) (recipient : Address) (slippageBps : BitVec 64) :
    Encode (List RouteCall) :=
  if hop.edge.tokenInIdx = hop.edge.tokenOutIdx then throw "curve hop token indices must differ"
  else do
    let minDy ← tightMinOut arena hop slippageBps "curve"
    let i := hop.edge.tokenInIdx
    let j := hop.edge.tokenOutIdx
    let exchange :=
      if curveUsesReceiver hop.poolType then .curveNgExchange i j hop.amountIn minDy recipient
      else if hop.edge.protocol = .curveCrypto then .curveCryptoExchange i j hop.amountIn minDy
      else .curveStableExchange i j hop.amountIn minDy
    pure [encodeApproveIfNeeded hop.tokenIn hop.poolAddress hop.amountIn,
      execCall hop.poolAddress exchange]

def resolveBalancerPoolId (hop : CalldataHop) : Encode (BitVec 256) :=
  orBail hop.poolId "missing Balancer pool_id"

/-- The vault takes the input from the executor and pays `recipient`. -/
def encodeBalancerHop (hop : CalldataHop) (recipient executor : Address) (slippageBps : BitVec 64)
    (deadline : U256) : Encode (List RouteCall) := do
  let poolId ← resolveBalancerPoolId hop
  let limit ← tightMinOut arena hop slippageBps "balancer"
  pure [encodeApproveIfNeeded hop.tokenIn balancerVault hop.amountIn,
    execCall balancerVault (.balancerSwap poolId hop.tokenIn hop.tokenOut hop.amountIn executor
      recipient limit deadline)]

/-- Which side of the pool is sold: by its base and quote token, or by the leg index when the pool
state is missing. -/
def dodoSellBase (hop : CalldataHop) : Encode Bool :=
  match arena.poolState hop.edge.poolIndex with
  | some (.dodo s) =>
      if hop.tokenIn = s.baseToken ∧ hop.tokenOut = s.quoteToken then pure true
      else if hop.tokenIn = s.quoteToken ∧ hop.tokenOut = s.baseToken then pure false
      else throw "dodo hop tokens do not match pool base/quote"
  | _ => pure (hop.edge.tokenInIdx = 0)

def encodeDodoHop (hop : CalldataHop) (recipient executor : Address) (useTransferAll : Bool) :
    Encode (List RouteCall) := do
  let sellBase ← dodoSellBase arena hop
  pure [encodeTokenTransfer executor hop.tokenIn hop.poolAddress hop.amountIn useTransferAll,
    execCall hop.poolAddress (if sellBase then .dodoSellBase recipient else .dodoSellQuote recipient)]

def resolveWoofiRouter (hop : CalldataHop) : Address := hop.router.getD woofiRouterV2

def encodeWoofiHop (hop : CalldataHop) (recipient : Address) (slippageBps : BitVec 64) :
    Encode (List RouteCall) := do
  let minTo ← tightMinOut arena hop slippageBps "woofi"
  let router := resolveWoofiRouter hop
  pure [encodeApproveIfNeeded hop.tokenIn router hop.amountIn,
    execCall router (.woofiSwap hop.tokenIn hop.tokenOut hop.amountIn minTo recipient 0)]

/-- Dispatch by protocol.  The loop encodes V2 hops itself; the V2 arm funds and swaps back. -/
def encodeHopForProtocol (hop : CalldataHop) (recipient executor : Address)
    (config : RouteEncodeConfig) (isFirstHop isLastHop : Bool) (prequotedOut : Option U256) :
    Encode (List RouteCall) :=
  match hop.edge.protocol with
  | .uniswapV2 => do
      let r ← encodeV2Hop arena hop recipient executor config.slippageBps
        (if isFirstHop then .exact else .transferAll)
      pure r.1
  | .uniswapV3 => encodeV3Hop arena hop recipient config.slippageBps (!isLastHop) prequotedOut
  | .uniswapV4 => encodeV4Hop arena hop config.slippageBps (!isLastHop) prequotedOut
  | .curveStable => encodeCurveHop arena hop recipient config.slippageBps
  | .curveCrypto => encodeCurveHop arena hop recipient config.slippageBps
  | .balancerV2 =>
      encodeBalancerHop arena hop recipient executor config.slippageBps config.deadline
  | .dodo => encodeDodoHop arena hop recipient executor (!isFirstHop)
  | .woofi => encodeWoofiHop arena hop recipient config.slippageBps

/-! ## The route -/

/-- Whether the hop can pay an address other than the executor. -/
def hopCanDirectOutputTo (hop : CalldataHop) : Bool :=
  match hop.edge.protocol with
  | .uniswapV2 | .uniswapV3 | .dodo | .balancerV2 | .woofi => true
  | .curveStable | .curveCrypto => curveUsesReceiver hop.poolType
  | .uniswapV4 => false

/-- A hop as it was encoded: the amounts the encoder used, its calls, what it chains into the next
hop and where it leaves its output. -/
structure EncodedHop where
  hop : CalldataHop
  calls : List RouteCall
  chainIn : Option U256
  fundsAt : Address

/-- The running amount caps the assessed one. -/
def applyChainIn (hop : CalldataHop) : Option U256 → CalldataHop
  | none => hop
  | some ain => { hop with amountIn := if hop.amountIn = 0 then ain else min ain hop.amountIn }

def CalldataHop.withAmountOut (hop : CalldataHop) (amountOut : U256) : CalldataHop :=
  { hop with amountOut := amountOut }

/-- The pair of the next hop, when that is a V2 hop. -/
def nextV2Pair : Option CalldataHop → Option Address
  | some next => if next.edge.protocol = .uniswapV2 then some next.poolAddress else none
  | none => none

/-- How a V2 hop is prefunded: not at all when the last hop has paid the pair. -/
def v2PrefundOf (isFirst : Bool) (fundsAt : Option Address) (hop : CalldataHop) : V2Prefund :=
  if fundsAt = some hop.poolAddress then .skipped else if isFirst then .exact else .transferAll

/-- Where the output of a hop goes that can choose. -/
def outputTo (executor : Address) (next : Option CalldataHop) : Address :=
  (nextV2Pair next).getD executor

/-- Where a hop on a protocol other than V2 pays. -/
def otherRecipient (executor : Address) (hop : CalldataHop) (next : Option CalldataHop) : Address :=
  if hopCanDirectOutputTo hop then outputTo executor next else executor

variable (executor : Address) (config : RouteEncodeConfig)

/-- A V2 hop of the loop. -/
def encodeV2Step (isFirst : Bool) (fundsAt : Option Address) (hop : CalldataHop)
    (next : Option CalldataHop) : Encode EncodedHop := do
  let swapTo := outputTo executor next
  let r ← encodeV2Hop arena hop swapTo executor config.slippageBps (v2PrefundOf isFirst fundsAt hop)
  pure ⟨hop, r.1, some r.2, swapTo⟩

/-- Every other hop of the loop.  Its minimum is refreshed for the chained amount, and what it
chains on is haircut further. -/
def encodeOtherStep (isFirst : Bool) (hop : CalldataHop) (next : Option CalldataHop) :
    Encode EncodedHop := do
  let bps := hopSlippageBps config.slippageBps
  let quote ← ExceptT.lift (quoteHopForExecution arena hop)
  let quotedOut ← orBail quote "chain_in hop execution quote unavailable"
  let minOut ← orBail (slippageAdjusted quotedOut bps) "chain_in hop min out is zero"
  let hop := hop.withAmountOut minOut
  let recipient := otherRecipient executor hop next
  let calls ← encodeHopForProtocol arena hop recipient executor config isFirst next.isNone
    (some quotedOut)
  match next with
  | none => pure ⟨hop, calls, none, recipient⟩
  | some _ => do
      let chained ← orBail
        (slippageAdjusted quotedOut (saturatingAdd64 bps executionChainInBufferBps))
        "chain_in hop buffer out is zero"
      pure ⟨hop, calls, some chained, recipient⟩

def encodeStep (isFirst : Bool) (chainIn : Option U256) (fundsAt : Option Address)
    (hop : CalldataHop) (next : Option CalldataHop) : Encode EncodedHop :=
  let hop := applyChainIn hop chainIn
  if hop.edge.protocol = .uniswapV2 then
    encodeV2Step arena executor config isFirst fundsAt hop next
  else encodeOtherStep arena executor config isFirst hop next

/-- The loop of `encode_route` from some hop on. -/
def encodeHops : Bool → Option U256 → Option Address → List CalldataHop → Encode (List EncodedHop)
  | _, _, _, [] => pure []
  | isFirst, chainIn, fundsAt, hop :: rest => do
      let encoded ← encodeStep arena executor config isFirst chainIn fundsAt hop rest.head?
      let others ← encodeHops false encoded.chainIn (some encoded.fundsAt) rest
      pure (encoded :: others)

end Encoders

/-! ## The Balancer batch -/

/-- The route's tokens, each once, in the order they first appear. -/
def batchAssets (hops : List CalldataHop) : List Address :=
  hops.foldl (fun assets hop =>
    [hop.tokenIn, hop.tokenOut].foldl
      (fun assets token => if token ∈ assets then assets else assets ++ [token]) assets) []

/-- One step per hop; only the first has an amount, the vault chains the rest. -/
def batchSteps (assets : List Address) : Bool → List CalldataHop → Encode (List BalancerBatchSwapStep)
  | _, [] => pure []
  | isFirst, hop :: rest => do
      let poolId ← resolveBalancerPoolId hop
      let assetIn ← orBail (assets.findIdx? (· = hop.tokenIn)) "missing asset index for token_in"
      let assetOut ← orBail (assets.findIdx? (· = hop.tokenOut)) "missing asset index for token_out"
      let steps ← batchSteps assets false rest
      pure (⟨poolId, assetIn, assetOut, if isFirst then hop.amountIn else 0⟩ :: steps)

/-- Only the input asset may be taken from the executor. -/
def buildFlashSwapLimits (assets : List Address) (hops : List CalldataHop) : List ℤ :=
  match hops.head?.bind fun hop => assets.findIdx? (· = hop.tokenIn) with
  | some idx => (List.replicate assets.length 0).set idx (2 ^ 255 - 1)
  | none => List.replicate assets.length 0

def encodeBalancerBatchRoute (hops : List CalldataHop) (recipient : Address) (deadline : U256) :
    Encode (List RouteCall) :=
  if hops.isEmpty then throw "balancer batch route requires at least one hop"
  else do
    let assets := batchAssets hops
    let steps ← batchSteps assets true hops
    pure [execCall balancerVault (.balancerBatchSwap steps assets recipient recipient
      (buildFlashSwapLimits assets hops) deadline)]

def hopsAreBalancerOnly (hops : List CalldataHop) : Bool :=
  !hops.isEmpty && hops.all fun h => h.edge.protocol = .balancerV2

/-- A lender cannot be re-entered by a hop of the route it lends to. -/
def validateFlashHopCompatibility (hops : List CalldataHop) (flashSource : FlashLoanSource) :
    Encode Unit :=
  match flashSource with
  | .balancer =>
      if hops.any fun h => h.edge.protocol = .balancerV2 then
        throw "Balancer vault flash cannot include Balancer vault swap hops (reentrancy)"
      else pure ()
  | .dodo =>
      if hops.any fun h => h.edge.protocol = .dodo then
        throw "DODO flash cannot include DODO swap hops on the flash pool (reentrancy)"
      else pure ()
  | .aaveV3 => pure ()
  | .direct => pure ()

/-- Whether the route is one vault batch. -/
def isBatchRoute (hops : List CalldataHop) (flashSource : FlashLoanSource) : Bool :=
  decide (flashSource = .direct) && hopsAreBalancerOnly hops
    && decide (hops.length ≤ maxBalancerBatchHops)

def encodeRoute (arena : StateArena) (hops : List CalldataHop) (executor : Address)
    (config : RouteEncodeConfig) (flashSource : FlashLoanSource) : Encode (List RouteCall) :=
  if executor = 0 then throw "executor address must not be zero"
  else do
    validateFlashHopCompatibility hops flashSource
    if isBatchRoute hops flashSource then
      encodeBalancerBatchRoute hops executor config.deadline
    else do
      let encoded ← encodeHops arena executor config true none none hops
      pure (encoded.flatMap EncodedHop.calls)

end PolygonArb

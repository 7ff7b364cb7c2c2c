import PolygonArb.Lib.Word

/-!
# Pool states, edges and the funding predicates

The data model of `core/types.rs`: the eight protocol families, the edge of a route, and one
state record per pool family.  Amounts are 256-bit words; arena and leg indices are naturals.

`hopTokenFunded`, `hopPairRoutable` and `isTradable` are the structural gates every other part of
the bot asks first, so they live next to the data.
-/

namespace PolygonArb

open Word

/-- An ERC-20 or pool address.  Addresses are ordered as big-endian numbers. -/
abbrev Address := BitVec 160

instance : LawfulBEq Address := inferInstance

/-- Arena slot of a token (`TokenIndex(u32)`). -/
abbrev TokenIndex := ℕ

/-- Arena slot of a pool (`PoolIndex(u32)`). -/
abbrev PoolIndex := ℕ

/-- The outcome of a call that may abort: `none` is a panic (a zero divisor, or a narrowing
conversion that does not fit).  The release profile aborts on panic, so nothing runs after it. -/
abbrev Run (α : Type) := Option α

/-- Fixed-point one, `1e18`. -/
def one18 : U256 := 1000000000000000000#256

lemma toNat_one18 : one18.toNat = 10 ^ 18 := by decide

/-- Hard cap on the hop count of a route (`HOP_CAP`). -/
def hopCap : ℕ := 8

/-- Absolute floor on either Uniswap V2 reserve (`V2_MIN_RESERVE`). -/
def v2MinReserve : U256 := 100000000#256

/-- Structural nonzero-liquidity floor of the multi-token families (`MIN_HOP_TOKEN_BALANCE`). -/
def minHopTokenBalance : U256 := 1#256

def uniswapV4PoolManager : Address := 0x67366782805870060151383f4bbff9dab53e5cd6#160

inductive ProtocolType
  | uniswapV2
  | uniswapV3
  | uniswapV4
  | balancerV2
  | curveStable
  | curveCrypto
  | dodo
  | woofi
  deriving DecidableEq, Repr

/-- One directed swap of a route. -/
structure Edge where
  poolIndex : PoolIndex
  tokenIn : TokenIndex
  tokenOut : TokenIndex
  tokenInIdx : ℕ
  tokenOutIdx : ℕ
  protocol : ProtocolType
  feeBps : ℕ
  zeroForOne : Bool
  deriving DecidableEq, Repr

instance : LawfulBEq (List Edge) := inferInstance

/-- A closed route as a search found it.  `cycleRatio` is the product of the edge ratios; the two
weights are 64-bit floats. -/
structure FoundCycle where
  startToken : TokenIndex
  edges : List Edge
  hopCount : ℕ
  logWeight : Float
  cumulativeFeeBps : ℕ
  score : Float
  cycleRatio : U256
  deriving DecidableEq

structure V3Tick where
  tick : ℤ
  liquidityGross : ℕ
  liquidityNet : ℤ
  deriving DecidableEq, Repr

structure V2PoolState where
  reserve0 : U256
  reserve1 : U256
  fee : U256
  feeDenominator : U256
  blockTimestampLast : ℕ
  deriving DecidableEq

structure ConcentratedLiquidityPoolState where
  sqrtPriceX96 : U256
  tick : ℤ
  liquidity : ℕ
  fee : U256
  tickSpacing : ℤ
  ticks : List V3Tick
  unlocked : Bool
  feeProtocol : ℕ
  observationCardinality : ℕ
  deriving DecidableEq

abbrev V3PoolState := ConcentratedLiquidityPoolState
abbrev V4PoolState := ConcentratedLiquidityPoolState

structure CurvePoolState where
  balances : List U256
  a : U256
  fee : U256
  rates : List U256
  nCoins : ℕ
  gamma : Option U256
  d : Option U256
  offpegFeeMultiplier : Option U256
  deriving DecidableEq

inductive BalancerPoolKind
  | weighted
  | stable
  | linear
  deriving DecidableEq, Repr

structure BalancerLinearState where
  mainIndex : ℕ
  wrappedIndex : ℕ
  lowerTarget : U256
  upperTarget : U256
  wrappedRate : U256
  deriving DecidableEq

structure BalancerPoolState where
  poolId : Option (BitVec 256)
  tokens : List Address
  balances : List U256
  weights : List U256
  scalingFactors : List U256
  amp : U256
  ampPrecision : U256
  fee : U256
  poolType : BalancerPoolKind
  linear : Option BalancerLinearState
  bptIndex : Option ℕ
  isUpdating : Bool
  lastChangeBlock : ℕ
  deriving DecidableEq

inductive DodoRState
  | one
  | aboveOne
  | belowOne
  deriving DecidableEq, Repr

structure DodoPoolState where
  baseReserve : U256
  quoteReserve : U256
  baseToken : Address
  quoteToken : Address
  baseTarget : U256
  quoteTarget : U256
  rState : DodoRState
  i : U256
  k : U256
  lpFeeRate : U256
  mtFeeRate : U256
  deriving DecidableEq

structure WoofiBaseTokenState where
  price : U256
  spread : U256
  coeff : U256
  reserve : U256
  baseDec : U256
  quoteDec : U256
  priceDec : U256
  feeRate : U256
  maxGamma : U256
  maxNotionalSwap : U256
  deriving DecidableEq

structure WoofiPoolState where
  tokens : List Address
  quoteReserve : U256
  baseStates : List WoofiBaseTokenState
  fee : U256
  deriving DecidableEq

inductive PoolState
  | invalid
  | v2 (s : V2PoolState)
  | v3 (s : V3PoolState)
  | v4 (s : V4PoolState)
  | curve (s : CurvePoolState)
  | balancer (s : BalancerPoolState)
  | dodo (s : DodoPoolState)
  | woofi (s : WoofiPoolState)
  deriving DecidableEq

namespace PoolState

/-- `base_dec / 1000`, at least one unit: the dust floor of a WooFi leg. -/
def woofiDustFloor (dec : U256) : U256 := max (dec / 1000#256) 1#256

/-- The token leg has enough inventory for a single-hop swap. -/
def hopTokenFunded : PoolState → ℕ → Bool
  | .invalid, _ => false
  | .v2 s, 0 => v2MinReserve ≤ s.reserve0
  | .v2 s, 1 => v2MinReserve ≤ s.reserve1
  | .v2 _, _ => false
  | .v3 s, i | .v4 s, i =>
      i ≤ 1 && s.unlocked && 0 < s.liquidity && s.sqrtPriceX96 ≠ 0
  | .curve s, i => s.balances[i]?.any fun b => minHopTokenBalance ≤ b
  | .balancer s, i =>
      if s.bptIndex = some i then false
      else s.balances[i]?.any fun b => minHopTokenBalance ≤ b
  | .dodo s, 0 => v2MinReserve ≤ s.baseReserve
  | .dodo s, 1 => v2MinReserve ≤ s.quoteReserve
  | .dodo _, _ => false
  | .woofi s, i =>
      let quoteIdx := s.baseStates.length
      if i < quoteIdx then
        s.baseStates[i]?.any fun base => woofiDustFloor base.baseDec ≤ base.reserve
      else if i = quoteIdx then
        s.baseStates.head?.any fun base => woofiDustFloor base.quoteDec ≤ s.quoteReserve
      else false

/-- The directed swap is structurally valid and both legs are funded. -/
def hopPairRoutable (st : PoolState) (tokenInIdx tokenOutIdx : ℕ) : Bool :=
  if tokenInIdx = tokenOutIdx then false
  else
    match st with
    | .invalid => false
    | .woofi s =>
        let quoteIdx := s.baseStates.length
        if quoteIdx < tokenInIdx ∨ quoteIdx < tokenOutIdx then false
        else st.hopTokenFunded tokenInIdx && st.hopTokenFunded tokenOutIdx
    | _ => st.hopTokenFunded tokenInIdx && st.hopTokenFunded tokenOutIdx

/-- At least two of the first `n` legs are funded. -/
def atLeastTwoFunded (st : PoolState) (n : ℕ) : Bool :=
  2 ≤ ((List.range n).filter st.hopTokenFunded).length

/-- The shape the Balancer pool kind asks of its state. -/
def balancerFamilyValid (s : BalancerPoolState) : Bool :=
  let n := s.balances.length
  match s.poolType with
  | .weighted => s.weights.length = n && s.weights.all fun w => w ≠ 0
  | .stable => s.amp ≠ 0 && s.ampPrecision ≠ 0 && !s.isUpdating
  | .linear => s.linear.any fun linear =>
      linear.mainIndex < n && linear.wrappedIndex < n
        && linear.mainIndex ≠ linear.wrappedIndex && linear.wrappedRate ≠ 0

/-- The pool can be quoted at all. -/
def isTradable (st : PoolState) : Bool :=
  match st with
  | .invalid => false
  | .v2 _ | .dodo _ => st.hopTokenFunded 0 && st.hopTokenFunded 1
  | .v3 s | .v4 s => s.unlocked && 0 < s.liquidity && s.sqrtPriceX96 ≠ 0
  | .curve s =>
      let n := s.nCoins
      if n < 2 ∨ s.balances.length ≠ n ∨ s.rates.length ≠ n ∨ s.a = 0 then false
      else if s.rates.any fun r => r = 0 then false
      else st.atLeastTwoFunded n
  | .balancer s =>
      let n := s.balances.length
      if n < 2 ∨ s.tokens.length ≠ n ∨ s.scalingFactors.length ≠ n
          ∨ balancerFamilyValid s = false ∨ (s.bptIndex.any fun i => n ≤ i) = true then
        false
      else if s.scalingFactors.any fun f => f = 0 then false
      else st.atLeastTwoFunded n
  | .woofi s =>
      if s.tokens.length ≠ s.baseStates.length + 1 then false
      else
        let quoteIdx := s.baseStates.length
        st.hopTokenFunded quoteIdx && (List.range quoteIdx).any st.hopTokenFunded

/-- Simulation-family discriminant (`pool_state_family_tag`). -/
def familyTag : PoolState → ℕ
  | .invalid => 0
  | .v2 _ => 1
  | .v3 _ => 2
  | .v4 _ => 3
  | .curve _ => 4
  | .balancer _ => 5
  | .dodo _ => 6
  | .woofi _ => 7

end PoolState

/-- The edge protocol agrees with the arena state family (`protocol_matches_pool_state`). -/
def protocolMatchesPoolState (protocol : ProtocolType) (state : PoolState) : Bool :=
  match state, protocol with
  | .v2 _, .uniswapV2 => true
  | .v3 _, .uniswapV3 => true
  | .v4 _, .uniswapV4 => true
  | .curve _, .curveStable => true
  | .curve _, .curveCrypto => true
  | .balancer _, .balancerV2 => true
  | .dodo _, .dodo => true
  | .woofi _, .woofi => true
  | _, _ => false

/-- Simulation-family protocol implied by arena state; Curve keeps a curve-family fallback. -/
def protocolFromPoolState (state : PoolState) (fallback : ProtocolType) : ProtocolType :=
  match state with
  | .v2 _ => .uniswapV2
  | .v3 _ => .uniswapV3
  | .v4 _ => .uniswapV4
  | .curve _ =>
      match fallback with
      | .curveStable => .curveStable
      | .curveCrypto => .curveCrypto
      | _ => .curveStable
  | .balancer _ => .balancerV2
  | .dodo _ => .dodo
  | .woofi _ => .woofi
  | .invalid => fallback

end PolygonArb

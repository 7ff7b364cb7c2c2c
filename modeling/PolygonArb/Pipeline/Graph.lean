import PolygonArb.Pipeline.LocalSim
import PolygonArb.Lib.BridgeSearch

/-!
# The routing graph

`pipeline/types.rs` and the parts of `pipeline/graph.rs` the cycle searches read.  Nodes up to
`tokenCount` are tokens; a node above is a virtual pool hub, entered by an `enterPool` edge whose
exit is resolved against the live pool state (`resolveLazySwapEdge`).

Log weights are 64-bit floats; `Float` has the same operations.
-/

namespace PolygonArb

open Word

inductive GraphHopPhase
  | direct
  | enterPool
  | exitPool
  deriving DecidableEq, Repr

structure GraphEdge where
  edge : Edge
  phase : GraphHopPhase
  /-- Destination node: a token, or a hub. -/
  targetNode : ℕ
  logWeight : Float
  /-- Fixed-point ratio of a direct edge; zero marks a dead edge. -/
  ratio : U256
  deriving DecidableEq

/-- `v4_singleton` is not read by the searches and left out. -/
structure VirtualPoolHub where
  poolIndex : PoolIndex
  protocol : ProtocolType
  exitLegs : List ℕ
  deriving DecidableEq

/-- Token mask, packed 64 to a word, and the pools of the coverage. -/
structure CycleCapableCoverage where
  tokenMask : List (BitVec 64)
  tokenCount : ℕ
  poolIndices : Finset ℕ

/-- `pool_edge_positions` is only asked for its length; the cached base view is left out. -/
structure RoutingGraph where
  adjacency : List (List GraphEdge)
  tokenCount : ℕ
  virtualHubs : List VirtualPoolHub
  poolSlots : ℕ
  coverage : Option CycleCapableCoverage

namespace RoutingGraph

variable (graph : RoutingGraph) (node : ℕ)

def isVirtualNode : Bool := graph.tokenCount ≤ node

def virtualHubIndex : Option ℕ :=
  if !graph.isVirtualNode node then none
  else
    let idx := node - graph.tokenCount
    graph.virtualHubs[idx]?.map fun _ => idx

/-- Outgoing edges; a node past the table has none. -/
def edgesAt : List GraphEdge := (graph.adjacency[node]?).getD []

end RoutingGraph

def isLiveGraphEdge (ge : GraphEdge) : Bool :=
  match ge.phase with
  | .enterPool | .exitPool => true
  | .direct => ge.ratio ≠ 0

/-! ## Log weights -/

/-- `f64::INFINITY`. -/
def f64Infinity : Float := Float.ofBits 0x7FF0000000000000

def f64TwoPow64 : Float := 18446744073709551616.0

/-- One 64-bit limb as a float. -/
def limbToF64 (v : U256) (k : ℕ) : Float := (UInt64.ofNat (v.toNat / 2 ^ (64 * k))).toFloat

/-- Products with a power of two are exact, so the fused additions of the source round like these. -/
def u256ToF64 (v : U256) : Float :=
  if v.toNat < 2 ^ 64 then limbToF64 v 0
  else
    limbToF64 v 3 * (f64TwoPow64 * f64TwoPow64 * f64TwoPow64)
      + (limbToF64 v 2 * (f64TwoPow64 * f64TwoPow64)
        + (limbToF64 v 1 * f64TwoPow64 + limbToF64 v 0))

/-- Negated logarithm of a fixed-point ratio. -/
def edgeLogWeightFromRatio (ratio : U256) : Float :=
  if ratio = 0 then f64Infinity
  else if one18 ≤ ratio then
    let lnRatio := logExpLn ratio
    if lnRatio = 0 then 0.0 else -u256ToF64 lnRatio / 1000000000000000000.0
  else
    let reciprocal := truncate256 (one18.toNat * one18.toNat / ratio.toNat)
    let lnRecip := logExpLn reciprocal
    if lnRecip = 0 then 0.0 else u256ToF64 lnRecip / 1000000000000000000.0

/-- Fee-only fallback weight. -/
def computeEdgeLogWeight (feeBps : ℕ) : Float :=
  if feeBps = 0 then 0.0
  else if 10000 ≤ feeBps then f64Infinity
  else
    let keep := 1.0 - (UInt64.ofNat feeBps).toFloat / 10000.0
    keep.log.neg

def hopPenalties : List Float := [0.0, 0.0, 0.0, 0.01, 0.03, 0.08, 0.15, 0.30, 0.50]

def hopPenalty (hops : ℕ) : Float :=
  (hopPenalties[hops]?).getD ((UInt64.ofNat hops).toFloat * 0.15)

/-! ## Hub hops -/

/-- The token side of a hub swap whose exit is still open. -/
structure PendingHubSwap where
  poolIndex : PoolIndex
  tokenIn : TokenIndex
  tokenInIdx : ℕ
  protocol : ProtocolType
  feeBps : ℕ
  deriving DecidableEq

/-- The pending swap an enter edge opens. -/
def PendingHubSwap.ofEdge (edge : Edge) : PendingHubSwap where
  poolIndex := edge.poolIndex
  tokenIn := edge.tokenIn
  tokenInIdx := edge.tokenInIdx
  protocol := edge.protocol
  feeBps := edge.feeBps

/-- The tokens of a vault or oracle pool, in the order its leg indices follow. -/
def hubTokens : PoolState → Option (List Address)
  | .balancer s => if s.tokens.isEmpty then none else some s.tokens
  | .woofi s => if s.tokens.isEmpty then none else some s.tokens
  | _ => none

/-- Pool-local legs with inventory.  The index is narrowed to `u8`. -/
def fundedTokenIndices (state : PoolState) (pool : PoolMeta) : List ℕ :=
  let (n, bpt) := match state with
    | .balancer s =>
        if s.tokens.isEmpty then (pool.tokens.length, pool.bptIndex)
        else (s.tokens.length, s.bptIndex <|> pool.bptIndex)
    | .woofi s =>
        if s.tokens.isEmpty then (pool.tokens.length, pool.bptIndex) else (s.tokens.length, none)
    | _ => (pool.tokens.length, pool.bptIndex)
  ((List.range n).filter fun i => bpt ≠ some i && state.hopTokenFunded i).map (· % 2 ^ 8)

/-- The token of a pool-local leg. -/
def routingTokenAtLeg (arena : StateArena) (state : PoolState) (pool : PoolMeta) (leg : ℕ) :
    Option TokenIndex :=
  match hubTokens state with
  | some tokens => do arena.inner.addressToToken (← tokens[leg]?)
  | none => pool.tokens[leg]?

def clZeroForOneFromAddresses (arena : StateArena) (tokenIn tokenOut : TokenIndex) : Option Bool := do
  let aIn ← arena.tokenAddress tokenIn
  let aOut ← arena.tokenAddress tokenOut
  some (aIn < aOut)

/-- Leg indices of a hub swap: the pending ones when they still match the pool, else by address. -/
def resolveHubLegs (arena : StateArena) (state : PoolState) (pending : PendingHubSwap)
    (tokenOut : TokenIndex) (tokenOutIdx : ℕ) : Option (ℕ × ℕ) :=
  match hubTokens state with
  | none => some (pending.tokenInIdx, tokenOutIdx)
  | some tokens => do
      let tin ← arena.tokenAddress pending.tokenIn
      let tout ← arena.tokenAddress tokenOut
      if tokens[pending.tokenInIdx]? = some tin ∧ tokens[tokenOutIdx]? = some tout then
        some (pending.tokenInIdx, tokenOutIdx)
      else resolveMultiTokenVaultIndices tokens tin tout

def hubZeroForOne (arena : StateArena) (pending : PendingHubSwap) (tokenOut : TokenIndex)
    (inIdx outIdx : ℕ) : Option Bool :=
  match pending.protocol with
  | .uniswapV3 | .uniswapV4 => clZeroForOneFromAddresses arena pending.tokenIn tokenOut
  | _ => some (inIdx < outIdx)

def computeEdgeRatio (arena : StateArena) (edge : Edge) : Run U256 :=
  match arena.poolState edge.poolIndex with
  | none => some 0
  | some state => edgeRatioFromState state edge (arena.spotProbeForToken edge.tokenIn)

/-- The concrete edge of a hub swap. -/
def lazySwapEdge (arena : StateArena) (pending : PendingHubSwap) (tokenOut : TokenIndex)
    (tokenOutIdx : ℕ) : Option Edge := do
  let state ← arena.poolState pending.poolIndex
  let (inIdx, outIdx) ← resolveHubLegs arena state pending tokenOut tokenOutIdx
  if !state.hopPairRoutable inIdx outIdx then none
  else do
    let zeroForOne ← hubZeroForOne arena pending tokenOut inIdx outIdx
    some
      { poolIndex := pending.poolIndex
        tokenIn := pending.tokenIn
        tokenOut
        tokenInIdx := inIdx
        tokenOutIdx := outIdx
        protocol := pending.protocol
        feeBps := pending.feeBps
        zeroForOne }

/-- A hub enter and exit as a concrete swap with its live weight and ratio. -/
def resolveLazySwapEdge (arena : StateArena) (pending : PendingHubSwap) (tokenOut : TokenIndex)
    (tokenOutIdx : ℕ) : Run (Option (Edge × Float × U256)) :=
  match lazySwapEdge arena pending tokenOut tokenOutIdx with
  | none => some none
  | some edge =>
      (computeEdgeRatio arena edge).map fun ratio =>
        if ratio = 0 then none
        else
          let weight := edgeLogWeightFromRatio ratio
          some (edge, if weight.isFinite then weight else computeEdgeLogWeight edge.feeBps, ratio)

/-- The swap of a hub is between its pending token and the exit. -/
lemma resolveLazySwapEdge_eq_some {arena : StateArena} {pending : PendingHubSwap}
    {tokenOut : TokenIndex} {leg : ℕ} {edge : Edge} {weight : Float} {ratio : U256}
    (h : resolveLazySwapEdge arena pending tokenOut leg = some (some (edge, weight, ratio))) :
    edge.poolIndex = pending.poolIndex ∧ edge.tokenIn = pending.tokenIn ∧ edge.tokenOut = tokenOut := by
  rw [resolveLazySwapEdge] at h
  cases hedge : lazySwapEdge arena pending tokenOut leg with
  | none =>
      rw [hedge] at h
      cases h
  | some swap =>
      rw [hedge] at h
      rcases Option.map_eq_some_iff.mp h with ⟨ratio', -, hsome⟩
      split_ifs at hsome
      cases hsome
      simp only [lazySwapEdge, Option.bind_eq_bind, Option.bind_eq_some_iff] at hedge
      rcases hedge with ⟨state, -, legs, -, hrest⟩
      split_ifs at hrest
      rcases Option.bind_eq_some_iff.mp hrest with ⟨zeroForOne, -, hswap⟩
      cases hswap
      exact ⟨rfl, rfl, rfl⟩

/-- The live legs, or the cached ones of the hub when none is funded. -/
def hubExitLegs (graph : RoutingGraph) (hubNode : ℕ) (pool : PoolMeta) (state : PoolState) : List ℕ :=
  let live := fundedTokenIndices state pool
  if !live.isEmpty then live
  else
    match graph.virtualHubIndex hubNode with
    | none => []
    | some idx => ((graph.virtualHubs[idx]?).map VirtualPoolHub.exitLegs).getD []

/-! ## Walks -/

/-- Edges from one token to another, each leaving the token the one before it arrives at. -/
inductive Walk : TokenIndex → List Edge → TokenIndex → Prop
  | nil {token : TokenIndex} : Walk token [] token
  | cons {edge : Edge} {rest : List Edge} {last : TokenIndex} (tail : Walk edge.tokenOut rest last) :
      Walk edge.tokenIn (edge :: rest) last

lemma walk_nil {first last : TokenIndex} : Walk first [] last ↔ first = last := by
  constructor
  · rintro ⟨⟩
    rfl
  · rintro rfl
    exact .nil

lemma walk_cons {first last : TokenIndex} {edge : Edge} {rest : List Edge} :
    Walk first (edge :: rest) last ↔ first = edge.tokenIn ∧ Walk edge.tokenOut rest last := by
  constructor
  · rintro ⟨⟩
    exact ⟨rfl, ‹_›⟩
  · rintro ⟨rfl, h⟩
    exact .cons h

/-- Where a walk with an edge begins and ends. -/
lemma Walk.ends {first last : TokenIndex} {path : List Edge} (h : Walk first path last)
    (hne : path ≠ []) :
    path.head?.map Edge.tokenIn = some first ∧ path.getLast?.map Edge.tokenOut = some last := by
  induction h with
  | nil => exact absurd rfl hne
  | @cons edge rest last tail ih =>
      refine ⟨rfl, ?_⟩
      by_cases hrest : rest = []
      · subst hrest
        rw [← walk_nil.mp tail]
        rfl
      · rw [List.getLast?_cons_of_ne_nil hrest]
        exact (ih hrest).2

lemma Walk.push {first last : TokenIndex} {path : List Edge} {edge : Edge} (h : Walk first path last)
    (hin : edge.tokenIn = last) : Walk first (path ++ [edge]) edge.tokenOut := by
  induction h with
  | nil =>
      rw [← hin]
      exact .cons .nil
  | cons _ ih => exact .cons (ih hin)

/-- The edges of a token leave it, a direct edge leads to its token and an enter edge to a hub. -/
structure EdgesWellFormed (tokenCount : ℕ) (edgesAt : ℕ → List GraphEdge) : Prop where
  token_in : ∀ node < tokenCount, ∀ ge ∈ edgesAt node, ge.edge.tokenIn = node
  direct : ∀ node < tokenCount, ∀ ge ∈ edgesAt node, ge.phase = .direct →
    ge.targetNode = ge.edge.tokenOut
  enter : ∀ node < tokenCount, ∀ ge ∈ edgesAt node, ge.phase = .enterPool →
    tokenCount ≤ ge.targetNode

/-! ## Rows -/

/-- `index_pool_metas`: the last row of a pool index wins. -/
def indexPoolMetas (poolMetas : List PoolMeta) (index : ℕ) : Option PoolMeta :=
  poolMetas.reverse.find? fun pool => pool.poolIndex = index

end PolygonArb

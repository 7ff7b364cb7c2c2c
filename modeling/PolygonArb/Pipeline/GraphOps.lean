import PolygonArb.Pipeline.EdgeScore
import PolygonArb.Pipeline.GraphBaseView

/-!
# Maintaining the routing graph

The operations of `pipeline/graph.rs` on the stored graph: attaching pools, removing the edges of a
pool, and rescoring all edges or those of a set of pools.

Rescoring is followed by a compaction, which keeps the best two live edges of every token pair and
protocol and turns the others into stubs with ratio zero, sorts the edges by weight and lists the
touched pools anew in the reverse index.  The coverage is computed only when there is none.

The order in which the hash set of incidences is walked is a parameter (`order`), and so are the
predicates of the pricing gate (`AttachGate`): what is proved holds for every one of them.
-/

namespace PolygonArb

open ReverseIndex Word

/-! ## Thinning and sorting -/

/-- The discriminant of the source's enumeration. -/
def ProtocolType.toU8 : ProtocolType → ℕ
  | .uniswapV2 => 0
  | .uniswapV3 => 1
  | .uniswapV4 => 2
  | .balancerV2 => 3
  | .curveStable => 4
  | .curveCrypto => 5
  | .dodo => 6
  | .woofi => 7

def maxParallelEdgesPerPair : ℕ := 2

/-- Edges of one token compete when they lead to the same token over the same protocol. -/
def edgeGroup (ge : GraphEdge) : ℕ × ℕ := (ge.edge.tokenOut, ge.edge.protocol.toU8)

/-- By token, protocol, descending ratio and pool. -/
def edgeRankLe (a b : GraphEdge) : Bool :=
  decide (a.edge.tokenOut < b.edge.tokenOut) ||
    decide (a.edge.tokenOut = b.edge.tokenOut) &&
      (decide (a.edge.protocol.toU8 < b.edge.protocol.toU8) ||
        decide (a.edge.protocol.toU8 = b.edge.protocol.toU8) &&
          (decide (b.ratio < a.ratio) ||
            decide (b.ratio = a.ratio) && decide (a.edge.poolIndex ≤ b.edge.poolIndex)))

/-- Keep the first edges of every run of one group; the others become stubs.  `current` is the group
of the edge before and `kept` how many of it were kept. -/
def keepBest (maxPerPair : ℕ) :
    Option (ℕ × ℕ) → ℕ → List GraphEdge → List GraphEdge × List GraphEdge
  | _, _, [] => ([], [])
  | current, kept, ge :: edges =>
      let kept := if current = some (edgeGroup ge) then kept else 0
      if kept < maxPerPair then
        let rest := keepBest maxPerPair (some (edgeGroup ge)) (kept + 1) edges
        (ge :: rest.1, rest.2)
      else
        let rest := keepBest maxPerPair (some (edgeGroup ge)) kept edges
        (rest.1, kill ge :: rest.2)

def thinParallelEdges (edges : List GraphEdge) (maxPerPair : ℕ) : List GraphEdge :=
  let direct := edges.filter fun ge => ge.phase = .direct
  let hubLegs := edges.filter fun ge => ge.phase ≠ .direct
  let live := direct.filter isLiveGraphEdge
  let stubs := direct.filter fun ge => !isLiveGraphEdge ge
  if maxPerPair = 0 ∨ live.length ≤ maxPerPair then live ++ stubs ++ hubLegs
  else
    let thinned := keepBest maxPerPair none 0 (live.mergeSort edgeRankLe)
    thinned.1 ++ (stubs ++ thinned.2) ++ hubLegs

/-- The order of `f64::total_cmp`, as an integer. -/
def totalKey (x : Float) : ℤ :=
  let bits := x.toBits.toNat
  if bits < 2 ^ 63 then bits else -1 - (bits - 2 ^ 63 : ℕ)

def sortAdjacencyEdges (edges : List GraphEdge) : List GraphEdge :=
  edges.mergeSort fun a b => decide (totalKey a.logWeight ≤ totalKey b.logWeight)

/-! ## Compaction -/

section Compact

variable (order : RoutingGraph → List Incidence)

def refreshGraphCycleCoverage (graph : GraphStore) : GraphStore :=
  { graph with coverage := some (cycleCapableCoverage graph.routing (order graph.routing)) }

def rebuildPoolEdgePositionsForPools (graph : GraphStore) (pools : List ℕ) : GraphStore :=
  { graph with
    poolEdgePositions := rebuild edgePool graph.adjacency graph.poolEdgePositions pools }

/-- The rows a compaction touches: the token rows of `tokenSlots`, or every row. -/
def compacts (tokenCount : ℕ) (tokenSlots : Option (List ℕ)) (node : ℕ) : Bool :=
  match tokenSlots with
  | none => true
  | some slots => decide (node < tokenCount) && slots.contains node

/-- Only token rows have parallel edges. -/
def compactRow (tokenCount : ℕ) (tokenSlots : Option (List ℕ)) (node : ℕ) (edges : List GraphEdge) :
    List GraphEdge :=
  if compacts tokenCount tokenSlots node then
    sortAdjacencyEdges
      (if node < tokenCount then thinParallelEdges edges maxParallelEdgesPerPair else edges)
  else edges

/-- Thinning reports a change when a row got shorter. -/
def thinChanges (tokenCount : ℕ) (tokenSlots : Option (List ℕ)) (node : ℕ) (edges : List GraphEdge) :
    Bool :=
  compacts tokenCount tokenSlots node && decide (node < tokenCount) &&
    decide (edges.length ≠ (thinParallelEdges edges maxParallelEdgesPerPair).length)

def reindexPools (tokenCount : ℕ) (tokenSlots : Option (List ℕ)) (node : ℕ) (edges : List GraphEdge) :
    List ℕ :=
  if compacts tokenCount tokenSlots node then
    (if thinChanges tokenCount tokenSlots node edges then edges.map edgePool else []) ++
      (compactRow tokenCount tokenSlots node edges).map edgePool
  else []

def compactTokenAdjacency (graph : GraphStore) (tokenSlots : Option (List ℕ)) : GraphStore :=
  let changed := (graph.adjacency.mapIdx (thinChanges graph.tokenCount tokenSlots)).any id
  let pools := (graph.adjacency.mapIdx (reindexPools graph.tokenCount tokenSlots)).flatten
  let compacted := rebuildPoolEdgePositionsForPools
    { graph with adjacency := graph.adjacency.mapIdx (compactRow graph.tokenCount tokenSlots) } pools
  if graph.coverage.isNone || changed then refreshGraphCycleCoverage order compacted else compacted

/-! ## Rescoring -/

def rescoreAdjacency (arena : StateArena) (adjacency : List (List GraphEdge)) :
    Run (List (List GraphEdge)) :=
  adjacency.mapM fun edges => edges.mapM (rescoreGraphEdge arena)

def rebuildBaseView (graph : GraphStore) : GraphStore :=
  { graph with baseView := some (GraphBaseView.build graph) }

def rescoreGraphInPlace (arena : StateArena) (graph : GraphStore) : Run GraphStore :=
  (rescoreAdjacency arena graph.adjacency).map fun adjacency =>
    rebuildBaseView (compactTokenAdjacency order { graph with adjacency := adjacency } none)

/-- Rescore the edge at a position; one that is not there is passed over. -/
def rescoreAt (arena : StateArena) (adjacency : List (List GraphEdge)) (position : ℕ × ℕ) :
    Run (List (List GraphEdge)) :=
  match (row adjacency position.1)[position.2]? with
  | none => some adjacency
  | some ge =>
      (rescoreGraphEdge arena ge).map fun rescored =>
        setRow adjacency position.1 ((row adjacency position.1).set position.2 rescored)

/-- The nodes with an edge of one of the pools. -/
def affectedAdjacencies (graph : GraphStore) (pools : List PoolIndex) : List ℕ :=
  sortDedup
    (((pools.flatMap graph.positionsOf).filter fun p => (graph.edgeAt p).isSome).map Prod.fst)

def sortRows (graph : GraphStore) (nodes : List ℕ) : GraphStore :=
  { graph with
    adjacency :=
      graph.adjacency.mapIdx fun node edges =>
        if nodes.contains node then sortAdjacencyEdges edges else edges }

def patchBaseViewNodes (graph : GraphStore) (nodes : List ℕ) (pools : List PoolIndex) : GraphStore :=
  { graph with baseView := graph.baseView.map fun view => view.patch graph nodes pools }

/-- Sort, thin and list anew what the dirty pools touch. -/
def compactAffected (graph : GraphStore) (affected touched : List ℕ) : GraphStore :=
  let slots := affected.filter fun node => decide (node < graph.tokenCount)
  let hubs := affected.filter fun node => decide (graph.tokenCount ≤ node)
  if slots.isEmpty then rebuildPoolEdgePositionsForPools (sortRows graph affected) touched
  else
    let compacted := compactTokenAdjacency order (sortRows graph hubs) (some slots)
    if hubs.isEmpty then compacted else rebuildPoolEdgePositionsForPools compacted touched

def rescorePoolsInPlace (arena : StateArena) (graph : GraphStore) (pools : List PoolIndex) :
    Run GraphStore :=
  if pools.isEmpty then some graph
  else
    ((pools.flatMap graph.positionsOf).foldlM (rescoreAt arena) graph.adjacency).map fun adjacency =>
      let touched :=
        sortDedup (pools.filter fun pool => decide (pool < graph.poolEdgePositions.length))
      let affected := affectedAdjacencies graph pools
      let rescored := { graph with adjacency := adjacency }
      let aggregatePools := pools ++ affected.flatMap fun node => (rescored.edgesAt node).map edgePool
      patchBaseViewNodes (compactAffected order rescored affected touched) affected aggregatePools

end Compact

/-! ## Removing a pool -/

/-- Hubs keep their node; the first hub of the pool loses its legs. -/
def clearExitLegs (pool : PoolIndex) : List VirtualPoolHub → List VirtualPoolHub
  | [] => []
  | hub :: hubs =>
      if hub.poolIndex = pool then { hub with exitLegs := [] } :: hubs
      else hub :: clearExitLegs pool hubs

/-- The edges of a touched row that belong to another pool. -/
def retainOthers (pool : PoolIndex) (touched : List ℕ) (node : ℕ) (edges : List GraphEdge) :
    List GraphEdge :=
  if touched.contains node then edges.filter fun ge => ge.edge.poolIndex ≠ pool else edges

/-- The pools left in a row that lost edges. -/
def reindexRetained (pool : PoolIndex) (touched : List ℕ) (node : ℕ) (edges : List GraphEdge) : List ℕ :=
  let retained := retainOthers pool touched node edges
  if retained.length ≠ edges.length then retained.map edgePool else []

def removePoolEdgesFromGraph (graph : GraphStore) (pool : PoolIndex) : GraphStore :=
  let touched := (graph.positionsOf pool).map Prod.fst
  let changed := graph.adjacency.mapIdx fun node edges =>
    decide ((retainOthers pool touched node edges).length ≠ edges.length)
  if (graph.positionsOf pool).isEmpty then graph
  else if !changed.any id then
    { graph with poolEdgePositions := setRow graph.poolEdgePositions pool [] }
  else
    let removed := rebuildPoolEdgePositionsForPools
      { graph with
        adjacency := graph.adjacency.mapIdx (retainOthers pool touched)
        virtualHubs := clearExitLegs pool graph.virtualHubs }
      (pool :: (graph.adjacency.mapIdx (reindexRetained pool touched)).flatten)
    { removed with coverage := none, baseView := none }

/-! ## Attaching a pool -/

/-- What the pricing gate says of a pool: `pool_has_admissible_edges`, `pool_worth_capped_attach` and
the list of hub tokens. -/
structure AttachGate where
  admissible : StateArena → PoolMeta → Bool
  worthCapped : StateArena → PoolMeta → Bool
  isPolygonHubToken : Address → Bool

def usesHubSpoke (pool : PoolMeta) : Bool :=
  (match pool.protocol with
    | .uniswapV4 | .balancerV2 | .woofi => true
    | _ => false) || decide (2 < pool.tokens.length)

def pairZeroForOne (tokenInIdx : ℕ) : Bool := tokenInIdx = 0

/-- The edges of a two-token pool that the state can route. -/
def edgesForPair (poolIndex : PoolIndex) (protocol : ProtocolType) (token0 token1 : TokenIndex)
    (feeBps : ℕ) (state : PoolState) : List Edge :=
  (if state.hopPairRoutable 0 1 then
      [{ poolIndex, tokenIn := token0, tokenOut := token1, tokenInIdx := 0, tokenOutIdx := 1, protocol,
         feeBps, zeroForOne := pairZeroForOne 0 }]
    else []) ++
    (if state.hopPairRoutable 1 0 then
      [{ poolIndex, tokenIn := token1, tokenOut := token0, tokenInIdx := 1, tokenOutIdx := 0, protocol,
         feeBps, zeroForOne := pairZeroForOne 1 }]
    else [])

/-- A direct edge starts dead, with ratio zero, until it is rescored. -/
def pushDirectEdge (arena : StateArena) (graph : GraphStore) (edge : Edge) : GraphStore :=
  let edge := applyClZeroForOne arena edge
  graph.pushEdgeAt edge.tokenIn
    { edge, phase := .direct, targetNode := edge.tokenOut, logWeight := 0.0, ratio := 0 }

/-- A new hub at the end of the nodes. -/
def pushHub (graph : GraphStore) (hub : VirtualPoolHub) : GraphStore :=
  { graph with
    virtualHubs := graph.virtualHubs ++ [hub]
    adjacency := graph.adjacency ++ [[]] }

def ensurePerPoolHub (graph : GraphStore) (poolIndex : PoolIndex) (protocol : ProtocolType)
    (exitLegs : List ℕ) : ℕ × GraphStore :=
  (graph.hubEnd, pushHub graph ⟨poolIndex, protocol, exitLegs⟩)

def ensureV4SingletonHub (graph : GraphStore) : ℕ × GraphStore :=
  match graph.v4SingletonHub with
  | some node => (node, graph)
  | none =>
      (graph.hubEnd, { pushHub graph ⟨0, .uniswapV4, []⟩ with v4SingletonHub := some graph.hubEnd })

/-- A leg of a hub, from or to a token. -/
def hubLegEdge (pool : PoolMeta) (leg : ℕ) (token : TokenIndex) (phase : GraphHopPhase)
    (targetNode : ℕ) : GraphEdge where
  edge :=
    { poolIndex := pool.poolIndex
      tokenIn := token
      tokenOut := token
      tokenInIdx := leg
      tokenOutIdx := leg
      protocol := pool.protocol
      feeBps := pool.feeBps
      zeroForOne := pairZeroForOne leg }
  phase
  targetNode
  logWeight := 0.0
  ratio := one18

def pushEnterEdge (pool : PoolMeta) (hubNode : ℕ) (graph : GraphStore) (leg : ℕ × TokenIndex) :
    GraphStore :=
  graph.pushEdgeAt leg.2 (hubLegEdge pool leg.1 leg.2 .enterPool hubNode)

def pushExitEdge (pool : PoolMeta) (hubNode : ℕ) (graph : GraphStore) (leg : ℕ × TokenIndex) :
    GraphStore :=
  graph.pushEdgeAt hubNode (hubLegEdge pool leg.1 leg.2 .exitPool leg.2)

/-- The legs with inventory that have a token of the arena. -/
def fundedLegs (arena : StateArena) (pool : PoolMeta) (state : PoolState) : List (ℕ × TokenIndex) :=
  (fundedTokenIndices state pool).filterMap fun leg =>
    (routingTokenAtLeg arena state pool leg).map fun token => (leg, token)

/-- All V4 pools share one hub, whose exits are not stored. -/
def attachHubSpokePool (graph : GraphStore) (arena : StateArena) (pool : PoolMeta) (state : PoolState) :
    GraphStore :=
  let funded := fundedLegs arena pool state
  if funded.length < 2 then graph
  else if pool.protocol = .uniswapV4 then
    let (hubNode, graph) := ensureV4SingletonHub graph
    funded.foldl (pushEnterEdge pool hubNode) graph
  else
    let (hubNode, graph) :=
      ensurePerPoolHub graph pool.poolIndex pool.protocol (funded.map Prod.fst)
    funded.foldl (pushExitEdge pool hubNode) (funded.foldl (pushEnterEdge pool hubNode) graph)

/-- The direct edges of the pool still lie on its tokens. -/
def poolDirectEdgesMatchMeta (graph : GraphStore) (arena : StateArena) (pool : PoolMeta) : Bool :=
  let legs := match arena.poolState pool.poolIndex with
    | some state => [0, 1].filterMap (routingTokenAtLeg arena state pool)
    | none => []
  let onOk := fun token =>
    (pool.tokens ++ legs).any fun t =>
      t = token || ((arena.tokenAddress t).isSome && arena.tokenAddress t = arena.tokenAddress token)
  decide (pool.tokens.length < 2) ||
    (graph.positionsOf pool.poolIndex).all fun p =>
      match graph.edgeAt p with
      | none => true
      | some ge => decide (ge.phase ≠ .direct) || (onOk ge.edge.tokenIn && onOk ge.edge.tokenOut)

/-- The edges of a pool, once there is room for its tokens. -/
def attachEdges (graph : GraphStore) (arena : StateArena) (pool : PoolMeta) (state : PoolState) :
    Option GraphStore :=
  if usesHubSpoke pool then some (attachHubSpokePool graph arena pool state)
  else if pool.tokens.length = 2 then do
    let token0 ← routingTokenAtLeg arena state pool 0
    let token1 ← routingTokenAtLeg arena state pool 1
    let protocol :=
      if protocolMatchesPoolState pool.protocol state then pool.protocol
      else protocolFromPoolState state pool.protocol
    if token0 = token1 then none
    else
      some ((edgesForPair pool.poolIndex protocol token0 token1 pool.feeBps state).foldl
        (pushDirectEdge arena) graph)
  else none

def StateArena.tokenCount (arena : StateArena) : ℕ := arena.inner.tokens.length

/-- Attach a pool that has no edges. -/
def attachAbsentPool (gate : AttachGate) (graph : GraphStore) (arena : StateArena) (pool : PoolMeta) :
    Bool × GraphStore :=
  match (arena.poolState pool.poolIndex).filter PoolState.isTradable with
  | none => (false, graph)
  | some state =>
      if !gate.admissible arena pool then (false, graph)
      else
        let graph := graph.ensureTokenCapacity arena.tokenCount
        match attachEdges graph arena pool state with
        | none => (false, graph)
        | some attached => (attached.poolHasEdges pool.poolIndex, attached)

/-- Stale edges are removed first; edges that are there, live or dead, are otherwise left. -/
def attachPoolToGraph (gate : AttachGate) (graph : GraphStore) (arena : StateArena) (pool : PoolMeta) :
    Bool × GraphStore :=
  if graph.poolHasLiveEdges pool.poolIndex then
    if poolDirectEdgesMatchMeta graph arena pool then (false, graph)
    else attachAbsentPool gate (removePoolEdgesFromGraph graph pool.poolIndex) arena pool
  else if graph.poolHasEdges pool.poolIndex then (false, graph)
  else attachAbsentPool gate graph arena pool

/-! ## Attaching what is missing -/

def attachMissingCap : ℕ := StateArena.attachBatchCap

def poolTouchesHub (gate : AttachGate) (arena : StateArena) (pool : PoolMeta) : Bool :=
  pool.tokens.any fun token => (arena.tokenAddress token).any gate.isPolygonHubToken

/-- One pool of the batch; nothing happens once the batch is full. -/
def tryAttachMissingPool (gate : AttachGate) (arena : StateArena)
    (batch : GraphStore × List PoolIndex) (pool : PoolMeta) : GraphStore × List PoolIndex :=
  let (graph, attached) := batch
  let live := graph.poolHasLiveEdges pool.poolIndex
  let stale := live && !poolDirectEdgesMatchMeta graph arena pool
  if attachMissingCap ≤ attached.length then batch
  else if !gate.worthCapped arena pool then batch
  else if !stale && (live || graph.poolHasEdges pool.poolIndex) then batch
  else
    let graph := if stale then removePoolEdgesFromGraph graph pool.poolIndex else graph
    let (done, graph) := attachPoolToGraph gate graph arena pool
    (graph, if done then attached ++ [pool.poolIndex] else attached)

/-- Pools that touch a hub token come first. -/
def attachMissingBatch (gate : AttachGate) (arena : StateArena) (graph : GraphStore)
    (pools : List PoolMeta) : GraphStore × List PoolIndex :=
  [true, false].foldl (fun batch preferHub =>
    (pools.filter fun pool => poolTouchesHub gate arena pool = preferHub).foldl
      (tryAttachMissingPool gate arena) batch)
    (graph.ensureTokenCapacity arena.tokenCount, [])

def attachMissingEligiblePools (order : RoutingGraph → List Incidence) (gate : AttachGate)
    (arena : StateArena) (graph : GraphStore) (pools : List PoolMeta) : Run GraphStore :=
  let (graph, attached) := attachMissingBatch gate arena graph pools
  if attached.isEmpty then some graph
  else (rescorePoolsInPlace order arena graph attached).map (refreshGraphCycleCoverage order)

end PolygonArb

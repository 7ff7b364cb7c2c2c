import PolygonArb.Lib.ReverseIndex
import PolygonArb.Pipeline.Coverage

/-!
# The routing graph as it is stored

The whole record of `pipeline/types.rs`: the adjacency, the hubs, the reverse index of the edges of
every pool, the cached coverage and the cached aggregates.  The searches read only a part of it
(`GraphStore.routing`).

Nodes are laid out as `[tokens | hubs]`.  The arena registers new tokens while the graph lives, and
`ensureTokenCapacity` then moves the hubs up.
-/

namespace PolygonArb

open ReverseIndex

/-! ## Aggregates -/

structure GraphNodeAggregate where
  liveDirectEdges : ℕ
  deadDirectEdges : ℕ
  hubLegEdges : ℕ
  deriving DecidableEq

instance : Inhabited GraphNodeAggregate where
  default := ⟨0, 0, 0⟩

structure GraphAggregateIndex where
  liveDirectEdges : ℕ
  deadDirectEdges : ℕ
  hubLegEdges : ℕ
  activePools : ℕ
  deriving DecidableEq

structure GraphBaseView where
  nodeAggregates : List GraphNodeAggregate
  poolLiveEdgeCounts : List ℕ
  aggregateIndex : GraphAggregateIndex
  deriving DecidableEq

/-! ## The store -/

structure GraphStore where
  adjacency : List (List GraphEdge)
  tokenCount : ℕ
  virtualHubs : List VirtualPoolHub
  /-- The node all Uniswap V4 pools share. -/
  v4SingletonHub : Option ℕ
  /-- For every pool the node and the place of each of its edges. -/
  poolEdgePositions : List (List (ℕ × ℕ))
  coverage : Option CycleCapableCoverage
  baseView : Option GraphBaseView

/-- The pool an edge is listed under. -/
def edgePool (ge : GraphEdge) : ℕ := ge.edge.poolIndex

/-- An edge as it is stored: a direct edge leads to its token. -/
def pushed (ge : GraphEdge) : GraphEdge :=
  if ge.phase = .direct then { ge with targetNode := ge.edge.tokenOut } else ge

@[simp] lemma edge_pushed (ge : GraphEdge) : (pushed ge).edge = ge.edge := by
  rw [pushed]
  split_ifs <;> rfl

@[simp] lemma phase_pushed (ge : GraphEdge) : (pushed ge).phase = ge.phase := by
  rw [pushed]
  split_ifs <;> rfl

/-- Edges that leave for a hub of the old layout. -/
def retarget (oldTc hubEnd delta : ℕ) (ge : GraphEdge) : GraphEdge :=
  { ge with
    targetNode :=
      if oldTc ≤ ge.targetNode ∧ ge.targetNode < hubEnd then ge.targetNode + delta
      else ge.targetNode }

namespace GraphStore

def new (tokenCount : ℕ) : GraphStore where
  adjacency := List.replicate tokenCount []
  tokenCount
  virtualHubs := []
  v4SingletonHub := none
  poolEdgePositions := []
  coverage := none
  baseView := none

variable (graph : GraphStore)

/-- What the searches see. -/
def routing : RoutingGraph where
  adjacency := graph.adjacency
  tokenCount := graph.tokenCount
  virtualHubs := graph.virtualHubs
  poolSlots := graph.poolEdgePositions.length
  coverage := graph.coverage

/-- Edges out of a node; none past the table. -/
def edgesAt (node : ℕ) : List GraphEdge := row graph.adjacency node

/-- Edge positions of a pool; none past the table. -/
def positionsOf (pool : ℕ) : List (ℕ × ℕ) := row graph.poolEdgePositions pool

/-- The edge at a position of the reverse index. -/
def edgeAt (position : ℕ × ℕ) : Option GraphEdge := (graph.edgesAt position.1)[position.2]?

/-- The end of the hub nodes. -/
def hubEnd : ℕ := graph.tokenCount + graph.virtualHubs.length

/-- A node of the grown layout was, before, the node this row comes from. -/
def grownRow (tokenCount node : ℕ) : List GraphEdge :=
  if node < graph.tokenCount then graph.edgesAt node
  else if node < tokenCount then
    -- lists that were pushed past the hubs for a token without a node
    if graph.hubEnd ≤ node then graph.edgesAt node else []
  else graph.edgesAt (graph.tokenCount + (node - tokenCount))

/-- Make room for tokens: the hubs move up, and with them every reference to a hub. -/
def ensureTokenCapacity (tokenCount : ℕ) : GraphStore :=
  if tokenCount ≤ graph.tokenCount then graph
  else
    let delta := tokenCount - graph.tokenCount
    let moved := fun node =>
      if graph.tokenCount ≤ node ∧ node < graph.hubEnd then node + delta else node
    { adjacency :=
        (List.range (tokenCount + graph.virtualHubs.length)).map fun node =>
          (graph.grownRow tokenCount node).map (retarget graph.tokenCount graph.hubEnd delta)
      tokenCount
      virtualHubs := graph.virtualHubs
      v4SingletonHub := graph.v4SingletonHub.map moved
      poolEdgePositions :=
        graph.poolEdgePositions.map fun positions => positions.map fun p => (moved p.1, p.2)
      coverage := none
      baseView := none }

/-- Append an edge to a node and list it under its pool. -/
def pushEdgeAt (fromNode : ℕ) (ge : GraphEdge) : GraphStore :=
  { graph with
    adjacency := setRow graph.adjacency fromNode (graph.edgesAt fromNode ++ [pushed ge])
    poolEdgePositions :=
      setRow graph.poolEdgePositions ge.edge.poolIndex
        (graph.positionsOf ge.edge.poolIndex ++ [(fromNode, (graph.edgesAt fromNode).length)])
    baseView := none }

def poolHasLiveEdges (pool : PoolIndex) : Bool :=
  (graph.positionsOf pool).any fun p => (graph.edgeAt p).any isLiveGraphEdge

/-- Also the edges that are dead at the moment. -/
def poolHasEdges (pool : PoolIndex) : Bool := !(graph.positionsOf pool).isEmpty

end GraphStore

namespace GraphStore

variable {graph : GraphStore}

/-- The reverse index of a graph is exact. -/
def Indexed (graph : GraphStore) : Prop := Exact edgePool graph.adjacency graph.poolEdgePositions

lemma edgesAt_new (tokenCount node : ℕ) : (new tokenCount).edgesAt node = [] := by
  rw [edgesAt, new, row_eq_getD, List.getD_eq_getElem?_getD, List.getElem?_replicate]
  split_ifs <;> rfl

lemma indexed_new (tokenCount : ℕ) : (new tokenCount).Indexed := by
  intro pool
  have hpositions : row (new tokenCount).poolEdgePositions pool = [] := row_of_length_le (Nat.zero_le _)
  refine ⟨hpositions ▸ List.nodup_nil, fun node place => ?_⟩
  have hrow : row (new tokenCount).adjacency node = [] := edgesAt_new tokenCount node
  simp [hrow, hpositions]

lemma edgesAt_pushEdgeAt (fromNode node : ℕ) (ge : GraphEdge) :
    (graph.pushEdgeAt fromNode ge).edgesAt node =
      if node = fromNode then graph.edgesAt node ++ [pushed ge] else graph.edgesAt node := by
  rw [edgesAt, pushEdgeAt, row_setRow]
  split_ifs with hnode
  · rw [hnode]
  · rfl

lemma Indexed.pushEdgeAt (h : graph.Indexed) (fromNode : ℕ) (ge : GraphEdge) :
    (graph.pushEdgeAt fromNode ge).Indexed := by
  have hpush := Exact.push h fromNode (pushed ge)
  rw [edgePool, edge_pushed] at hpush
  exact hpush

end GraphStore

end PolygonArb

import PolygonArb.Lib.Transition
import PolygonArb.Pipeline.ArenaInvariant
import PolygonArb.Pipeline.GraphOps

/-!
# What every operation keeps

The shape of a graph is where its edges lie (`placesAt`), without their weights and ratios.  `Sound`
collects what holds of it between operations: the reverse index is exact, nodes are laid out as
`[tokens | hubs]` with every edge between the right kinds of nodes, and a pool has at most one direct
edge out of a token.

Rescoring, compaction and removal only rearrange or drop places (`Shrinks`), so most of `Sound` follows
from that at once; the reverse index is repaired by a rebuild (`Indexed.rebuild`).  Attaching appends
places, and growing renumbers the hubs (`Grown`).
-/

namespace PolygonArb

open ReverseIndex

/-! ## Shape -/

namespace GraphStore

variable {graph graph' : GraphStore} {node : ℕ} {p : Place}

/-- The places of the edges out of a node. -/
def placesAt (graph : GraphStore) (node : ℕ) : List Place := (graph.edgesAt node).map GraphEdge.place

/-- An edge out of a token: straight to another token, or into a hub. -/
structure TokenLeg (graph : GraphStore) (node : ℕ) (p : Place) : Prop where
  tokenIn : p.tokenIn = node
  tokenOut : p.tokenOut < graph.tokenCount
  target : p.phase = .direct ∧ p.target = p.tokenOut ∨
    p.phase = .enterPool ∧ graph.tokenCount ≤ p.target ∧ p.target < graph.hubEnd

/-- An edge out of a hub, to a token, of the pool the hub is for. -/
structure HubLeg (graph : GraphStore) (node : ℕ) (p : Place) : Prop where
  phase : p.phase = .exitPool
  target : p.target = p.tokenOut
  tokenOut : p.tokenOut < graph.tokenCount
  pool : (graph.virtualHubs[node - graph.tokenCount]?).map VirtualPoolHub.poolIndex = some p.pool

/-- Token nodes come first, then one node for every hub. -/
structure LaidOut (graph : GraphStore) : Prop where
  nodes : graph.adjacency.length = graph.hubEnd
  token : ∀ node < graph.tokenCount, ∀ p ∈ graph.placesAt node, TokenLeg graph node p
  hub : ∀ node, graph.tokenCount ≤ node → ∀ p ∈ graph.placesAt node, HubLeg graph node p
  v4 : ∀ node, graph.v4SingletonHub = some node → graph.tokenCount ≤ node ∧ node < graph.hubEnd

/-- The pools of the direct edges out of a node. -/
def directPools (graph : GraphStore) (node : ℕ) : List ℕ :=
  ((graph.placesAt node).filter fun p => p.phase = .direct).map Place.pool

/-- No two direct edges out of a node are of one pool. -/
def Single (graph : GraphStore) : Prop := ∀ node, (graph.directPools node).Nodup

structure Sound (graph : GraphStore) : Prop where
  indexed : graph.Indexed
  laidOut : graph.LaidOut
  single : graph.Single

lemma map_edgePool_edgesAt (graph : GraphStore) (node : ℕ) :
    (graph.edgesAt node).map edgePool = (graph.placesAt node).map Place.pool := by
  rw [placesAt, List.map_map]
  rfl

/-- What a pass over the rows computes for a row with an edge. -/
lemma mem_mapIdx_adjacency {β : Type*} {f : ℕ → List GraphEdge → β} {ge : GraphEdge}
    (h : ge ∈ graph.edgesAt node) : f node (graph.edgesAt node) ∈ graph.adjacency.mapIdx f := by
  have hlt : node < graph.adjacency.length := by
    by_contra hout
    rw [edgesAt, row_of_length_le (not_lt.mp hout)] at h
    cases h
  refine List.mem_mapIdx.mpr ⟨node, hlt, ?_⟩
  simp [edgesAt, row, hlt]

lemma sound_new (tokenCount : ℕ) : (new tokenCount).Sound := by
  have hplaces : ∀ node, (new tokenCount).placesAt node = [] := by
    intro node
    rw [placesAt, edgesAt_new, List.map_nil]
  refine ⟨indexed_new tokenCount, ⟨by simp [new, hubEnd], ?_, ?_, by simp [new]⟩, ?_⟩
  · intro node _ p hp
    rw [hplaces] at hp
    cases hp
  · intro node _ p hp
    rw [hplaces] at hp
    cases hp
  · intro node
    rw [directPools, hplaces]
    exact List.nodup_nil

/-- The reverse index has a slot for every pool with edges. -/
def Slotted (graph : GraphStore) : Prop :=
  ∀ node, ∀ p ∈ graph.placesAt node, p.pool < graph.poolEdgePositions.length

lemma Indexed.slotted (h : graph.Indexed) : graph.Slotted := by
  intro node p hp
  rcases List.mem_map.mp hp with ⟨ge, hge, rfl⟩
  rcases (h ge.edge.poolIndex).covers node ge hge rfl with ⟨j, hj⟩
  by_contra hout
  have hnone : row graph.poolEdgePositions ge.edge.poolIndex = [] := row_of_length_le (not_lt.mp hout)
  rw [hnone] at hj
  cases hj

/-! ## Rearranging -/

/-- The same nodes, and at every node some of the places in any order. -/
structure Shrinks (graph graph' : GraphStore) : Prop where
  tokens : graph'.tokenCount = graph.tokenCount
  hubs : graph'.virtualHubs.map VirtualPoolHub.poolIndex =
    graph.virtualHubs.map VirtualPoolHub.poolIndex
  v4 : graph'.v4SingletonHub = graph.v4SingletonHub
  nodes : graph'.adjacency.length = graph.adjacency.length
  places : ∀ node, (graph'.placesAt node).Subperm (graph.placesAt node)

namespace Shrinks

lemma refl (graph : GraphStore) : Shrinks graph graph := ⟨rfl, rfl, rfl, rfl, fun _ => .refl _⟩

lemma trans {graph'' : GraphStore} (h : Shrinks graph graph') (h' : Shrinks graph' graph'') :
    Shrinks graph graph'' :=
  ⟨h'.tokens.trans h.tokens, h'.hubs.trans h.hubs, h'.v4.trans h.v4, h'.nodes.trans h.nodes,
    fun node => (h'.places node).trans (h.places node)⟩

lemma rebuild (h : Shrinks graph graph') (pools : List ℕ) :
    Shrinks graph (rebuildPoolEdgePositionsForPools graph' pools) :=
  ⟨h.tokens, h.hubs, h.v4, h.nodes, h.places⟩

lemma hubEnd (h : Shrinks graph graph') : graph'.hubEnd = graph.hubEnd := by
  have hlen := congrArg List.length h.hubs
  rw [List.length_map, List.length_map] at hlen
  rw [GraphStore.hubEnd, GraphStore.hubEnd, h.tokens, hlen]

lemma laidOut (h : Shrinks graph graph') (hl : graph.LaidOut) : graph'.LaidOut where
  nodes := by rw [h.nodes, hl.nodes, h.hubEnd]
  token node hnode p hp := by
    rw [h.tokens] at hnode
    have hleg := hl.token node hnode p ((h.places node).subset hp)
    refine ⟨hleg.tokenIn, h.tokens ▸ hleg.tokenOut, ?_⟩
    rw [h.tokens, h.hubEnd]
    exact hleg.target
  hub node hnode p hp := by
    rw [h.tokens] at hnode
    have hleg := hl.hub node hnode p ((h.places node).subset hp)
    refine ⟨hleg.phase, hleg.target, h.tokens ▸ hleg.tokenOut, ?_⟩
    rw [h.tokens, ← List.getElem?_map, h.hubs, List.getElem?_map]
    exact hleg.pool
  v4 node hnode := by
    rw [h.tokens, h.hubEnd]
    exact hl.v4 node (h.v4 ▸ hnode)

lemma single (h : Shrinks graph graph') (hs : graph.Single) : graph'.Single := by
  intro node
  rcases h.places node with ⟨places, hperm, hsub⟩
  have hpools := (hperm.filter fun p : Place => decide (p.phase = .direct)).map Place.pool
  exact hpools.nodup_iff.mp ((hs node).sublist ((hsub.filter _).map _))

end Shrinks

lemma mem_pools_iff (g : GraphStore) (node pool : ℕ) :
    (∃ ge ∈ row g.adjacency node, edgePool ge = pool) ↔ ∃ p ∈ g.placesAt node, p.pool = pool := by
  simp only [placesAt, List.mem_map, exists_exists_and_eq_and]
  rfl

section Rebuild

variable (h : graph.Indexed) (hsub : ∀ node, graph'.placesAt node ⊆ graph.placesAt node)
include h hsub

/-- The index still knows the rows of every pool. -/
lemma Indexed.covers (pool : ℕ) : Covers edgePool graph'.adjacency graph.poolEdgePositions pool := by
  refine (h pool).covers.mono fun node ge hge hpool => ?_
  rcases (mem_pools_iff graph' node pool).mp ⟨ge, hge, hpool⟩ with ⟨p, hp, hpp⟩
  exact (mem_pools_iff graph node pool).mpr ⟨p, hsub node hp, hpp⟩

/-- It is right about a pool whose rows did not change. -/
lemma Indexed.exactAt {pool : ℕ}
    (hkeep : ∀ node, graph'.placesAt node = graph.placesAt node ∨
      ∀ p ∈ graph.placesAt node, p.pool ≠ pool) :
    ExactAt edgePool graph'.adjacency graph.poolEdgePositions pool := by
  refine (h pool).congr fun node hnode => ?_
  have hsome : ∃ p ∈ graph.placesAt node, p.pool = pool := by
    rcases hnode with hnode | hnode
    · exact (mem_pools_iff graph node pool).mp hnode
    · rcases (mem_pools_iff graph' node pool).mp hnode with ⟨p, hp, hpp⟩
      exact ⟨p, hsub node hp, hpp⟩
  rcases hkeep node with hsame | hall
  · exact (map_edgePool_edgesAt graph' node).trans
      ((congrArg (List.map Place.pool) hsame).trans (map_edgePool_edgesAt graph node).symm)
  · rcases hsome with ⟨p, hp, hpp⟩
    exact absurd hpp (hall p hp)

/-- The rows that changed have all their pools listed anew. -/
lemma Indexed.rebuild {pools : List ℕ} (hindex : graph'.poolEdgePositions = graph.poolEdgePositions)
    (hpools : ∀ node, graph'.placesAt node = graph.placesAt node ∨
      ∀ p ∈ graph.placesAt node, p.pool ∈ pools) :
    (rebuildPoolEdgePositionsForPools graph' pools).Indexed := by
  intro pool
  show ExactAt edgePool graph'.adjacency
    (ReverseIndex.rebuild edgePool graph'.adjacency graph'.poolEdgePositions pools) pool
  rw [hindex]
  refine exactAt_rebuild_of (h.covers hsub pool) fun hnot => h.exactAt hsub fun node => ?_
  refine (hpools node).imp id fun hall p hp heq => hnot ?_
  rw [← heq]
  exact hall p hp

/-- The same in two goes. -/
lemma Indexed.rebuild_rebuild {pools pools' : List ℕ}
    (hindex : graph'.poolEdgePositions = graph.poolEdgePositions)
    (hpools : ∀ node, graph'.placesAt node = graph.placesAt node ∨
      (∀ p ∈ graph.placesAt node, p.pool ∈ pools) ∨ ∀ p ∈ graph.placesAt node, p.pool ∈ pools') :
    (rebuildPoolEdgePositionsForPools (rebuildPoolEdgePositionsForPools graph' pools) pools').Indexed := by
  intro pool
  show ExactAt edgePool graph'.adjacency (ReverseIndex.rebuild edgePool graph'.adjacency
    (ReverseIndex.rebuild edgePool graph'.adjacency graph'.poolEdgePositions pools) pools') pool
  rw [hindex]
  have hcovers := h.covers hsub pool
  refine exactAt_rebuild_of hcovers.rebuild fun hnot' => exactAt_rebuild_of hcovers fun hnot =>
    h.exactAt hsub fun node => (hpools node).imp id ?_
  rintro (hall | hall) p hp rfl
  · exact hnot (hall p hp)
  · exact hnot' (hall p hp)

end Rebuild

end GraphStore

/-! ## Compaction -/

section Thin

variable {α : Type*} {f : GraphEdge → α} {edges : List GraphEdge}

/-- What a stub shares with its edge. -/
lemma map_keepBest (hf : ∀ ge ∈ edges, f (kill ge) = f ge) (maxPerPair : ℕ)
    (current : Option (ℕ × ℕ)) (kept : ℕ) :
    (((keepBest maxPerPair current kept edges).1 ++ (keepBest maxPerPair current kept edges).2).map
      f).Perm (edges.map f) := by
  induction edges generalizing current kept with
  | nil => exact .refl _
  | cons ge edges ih =>
      have htail := ih fun x hx => hf x (List.mem_cons_of_mem _ hx)
      rw [keepBest]
      generalize (if current = some (edgeGroup ge) then kept else 0) = kept'
      dsimp only
      split_ifs with hkept
      · exact (htail _ _).cons _
      · rw [List.map_append, List.map_cons, hf ge List.mem_cons_self]
        refine List.perm_middle.trans (.cons _ ?_)
        rw [← List.map_append]
        exact htail _ _

lemma perm_sortAdjacencyEdges (edges : List GraphEdge) : (sortAdjacencyEdges edges).Perm edges :=
  List.mergeSort_perm edges _

/-- Thinning keeps every edge, some of them as stubs. -/
lemma map_thinParallelEdges (hf : ∀ ge ∈ edges, f (kill ge) = f ge) (maxPerPair : ℕ) :
    ((thinParallelEdges edges maxPerPair).map f).Perm (edges.map f) := by
  set direct := edges.filter fun ge => ge.phase = .direct with hdirect
  set hubLegs := edges.filter fun ge => ge.phase ≠ .direct with hhub
  set live := direct.filter isLiveGraphEdge with hlive
  set stubs := direct.filter fun ge => !isLiveGraphEdge ge with hstubs
  have hsplit : (live ++ stubs ++ hubLegs).Perm edges := by
    refine ((List.filter_append_perm isLiveGraphEdge direct).append_right hubLegs).trans ?_
    simpa only [hdirect, hhub, ne_eq, decide_not] using
      List.filter_append_perm (fun ge : GraphEdge => decide (ge.phase = .direct)) edges
  rw [thinParallelEdges]
  dsimp only
  split_ifs with hfew
  · exact hsplit.map _
  · have hsorted : ∀ ge ∈ live.mergeSort edgeRankLe, f (kill ge) = f ge := by
      intro ge hge
      have hmem : ge ∈ live := (List.mergeSort_perm live edgeRankLe).mem_iff.mp hge
      exact hf ge (List.mem_of_mem_filter (List.mem_of_mem_filter hmem))
    set thinned := keepBest maxPerPair none 0 (live.mergeSort edgeRankLe) with hthinned
    have hbest : ((thinned.1 ++ thinned.2).map f).Perm (live.map f) :=
      (map_keepBest hsorted maxPerPair none 0).trans ((List.mergeSort_perm live edgeRankLe).map _)
    have hmoved : (thinned.1 ++ (stubs ++ thinned.2)).Perm (thinned.1 ++ thinned.2 ++ stubs) := by
      rw [List.append_assoc]
      exact List.perm_append_comm.append_left _
    refine List.Perm.trans ?_ (hsplit.map f)
    refine ((hmoved.append_right hubLegs).map _).trans ?_
    simp only [List.map_append] at hbest ⊢
    exact (hbest.append_right _).append_right _

lemma map_place_thinParallelEdges (edges : List GraphEdge) (maxPerPair : ℕ) :
    ((thinParallelEdges edges maxPerPair).map GraphEdge.place).Perm (edges.map GraphEdge.place) :=
  map_thinParallelEdges (fun ge _ => place_kill ge) maxPerPair

end Thin

lemma map_place_compactRow (tokenCount : ℕ) (tokenSlots : Option (List ℕ)) (node : ℕ)
    (edges : List GraphEdge) :
    ((compactRow tokenCount tokenSlots node edges).map GraphEdge.place).Perm
      (edges.map GraphEdge.place) := by
  rw [compactRow]
  split_ifs
  · exact ((perm_sortAdjacencyEdges _).map _).trans (map_place_thinParallelEdges edges _)
  · exact (perm_sortAdjacencyEdges edges).map _
  · exact .refl _

/-- A graph with other rows. -/
def GraphStore.withRows (graph : GraphStore) (f : ℕ → List GraphEdge → List GraphEdge) : GraphStore :=
  { graph with adjacency := graph.adjacency.mapIdx f }

namespace GraphStore

variable {graph graph' : GraphStore} {f : ℕ → List GraphEdge → List GraphEdge}

lemma edgesAt_withRows (hf : ∀ node, f node [] = []) (node : ℕ) :
    (graph.withRows f).edgesAt node = f node (graph.edgesAt node) :=
  row_mapIdx hf _ _

lemma placesAt_withRows (hf : ∀ node, f node [] = []) (node : ℕ) :
    (graph.withRows f).placesAt node = (f node (graph.edgesAt node)).map GraphEdge.place := by
  rw [placesAt, edgesAt_withRows hf]

lemma Shrinks.of_withRows (hf : ∀ node, f node [] = [])
    (hplaces : ∀ node edges, ((f node edges).map GraphEdge.place).Subperm (edges.map GraphEdge.place)) :
    Shrinks graph (graph.withRows f) where
  tokens := rfl
  hubs := rfl
  v4 := rfl
  nodes := List.length_mapIdx
  places node := by
    rw [placesAt_withRows hf]
    exact hplaces node _

end GraphStore

section Compact

variable {order : RoutingGraph → List Incidence} {graph : GraphStore}

lemma compactRow_nil (tokenCount : ℕ) (tokenSlots : Option (List ℕ)) (node : ℕ) :
    compactRow tokenCount tokenSlots node [] = [] := by
  have hperm := map_place_compactRow tokenCount tokenSlots node []
  rw [List.map_nil, List.perm_nil, List.map_eq_nil_iff] at hperm
  exact hperm

/-- The pools a compaction lists anew. -/
def compactedPools (graph : GraphStore) (tokenSlots : Option (List ℕ)) : List ℕ :=
  (graph.adjacency.mapIdx (reindexPools graph.tokenCount tokenSlots)).flatten

/-- Up to the coverage, a compaction is new rows and a rebuild. -/
lemma compactTokenAdjacency_eq (order : RoutingGraph → List Incidence) (graph : GraphStore)
    (tokenSlots : Option (List ℕ)) :
    ∃ coverage, compactTokenAdjacency order graph tokenSlots =
      { rebuildPoolEdgePositionsForPools (graph.withRows (compactRow graph.tokenCount tokenSlots))
          (compactedPools graph tokenSlots) with coverage := coverage } := by
  rw [compactTokenAdjacency]
  dsimp only
  split_ifs
  · exact ⟨_, rfl⟩
  · exact ⟨graph.coverage, rfl⟩

lemma edgesAt_compactTokenAdjacency (order : RoutingGraph → List Incidence) (graph : GraphStore)
    (tokenSlots : Option (List ℕ)) (node : ℕ) :
    (compactTokenAdjacency order graph tokenSlots).edgesAt node =
      compactRow graph.tokenCount tokenSlots node (graph.edgesAt node) := by
  rcases compactTokenAdjacency_eq order graph tokenSlots with ⟨coverage, heq⟩
  rw [heq]
  exact GraphStore.edgesAt_withRows (compactRow_nil _ _) node

lemma mem_compactedPools {tokenSlots : Option (List ℕ)} {node : ℕ} {p : Place}
    (hnode : compacts graph.tokenCount tokenSlots node = true) (hp : p ∈ graph.placesAt node) :
    p.pool ∈ compactedPools graph tokenSlots := by
  have hmem := (map_place_compactRow graph.tokenCount tokenSlots node (graph.edgesAt node)).mem_iff.mpr hp
  rcases List.mem_map.mp hmem with ⟨ge, hge, hplace⟩
  rcases List.mem_map.mp hp with ⟨old, hold, -⟩
  refine List.mem_flatten.mpr ⟨_, GraphStore.mem_mapIdx_adjacency hold, ?_⟩
  rw [reindexPools, if_pos hnode, ← hplace]
  exact List.mem_append_right _ (List.mem_map.mpr ⟨ge, hge, rfl⟩)

lemma compactRow_of_not_compacts {tokenSlots : Option (List ℕ)} {node : ℕ}
    (hnode : compacts graph.tokenCount tokenSlots node = false) (edges : List GraphEdge) :
    compactRow graph.tokenCount tokenSlots node edges = edges := by
  rw [compactRow, hnode]
  rfl

namespace GraphStore

/-- The coverage and the aggregates are no part of the shape. -/
lemma Sound.withCaches (h : graph.Sound) (coverage : Option CycleCapableCoverage)
    (baseView : Option GraphBaseView) :
    { graph with coverage := coverage, baseView := baseView : GraphStore }.Sound := by
  have hshrinks : Shrinks graph { graph with coverage := coverage, baseView := baseView } :=
    ⟨rfl, rfl, rfl, rfl, fun _ => .refl _⟩
  exact ⟨h.indexed, hshrinks.laidOut h.laidOut, hshrinks.single h.single⟩

lemma Sound.compact (h : graph.Sound) (tokenSlots : Option (List ℕ)) :
    (compactTokenAdjacency order graph tokenSlots).Sound := by
  rcases compactTokenAdjacency_eq order graph tokenSlots with ⟨coverage, heq⟩
  have hshrinks : Shrinks graph (graph.withRows (compactRow graph.tokenCount tokenSlots)) :=
    .of_withRows (compactRow_nil _ _) fun node edges => (map_place_compactRow _ _ node edges).subperm
  have hindexed : (rebuildPoolEdgePositionsForPools
      (graph.withRows (compactRow graph.tokenCount tokenSlots))
      (compactedPools graph tokenSlots)).Indexed := by
    refine h.indexed.rebuild (fun node => (hshrinks.places node).subset) rfl fun node => ?_
    cases hnode : compacts graph.tokenCount tokenSlots node with
    | false =>
        rw [placesAt_withRows (compactRow_nil _ _), compactRow_of_not_compacts hnode]
        exact .inl rfl
    | true => exact .inr fun p hp => mem_compactedPools hnode hp
  rw [heq]
  exact Sound.withCaches ⟨hindexed, (hshrinks.rebuild _).laidOut h.laidOut,
    (hshrinks.rebuild _).single h.single⟩ _ _

end GraphStore

end Compact

/-! ## Rescoring -/

section Rescore

variable {order : RoutingGraph → List Incidence} {arena : StateArena} {graph graph' : GraphStore}
  {rows rows' : List (List GraphEdge)}

/-- Edge by edge. -/
lemma rescoreAdjacency_row (h : rescoreAdjacency arena rows = some rows') (node : ℕ) :
    List.Forall₂ (fun ge ge' => rescoreGraphEdge arena ge = some ge') (row rows node)
      (row rows' node) := by
  have hrows := Loop.mapM_eq_some.mp h
  exact Loop.mapM_eq_some.mp
    (forall₂_row (R := fun edges edges' => edges.mapM (rescoreGraphEdge arena) = some edges') hrows rfl node)

lemma length_rescoreAdjacency (h : rescoreAdjacency arena rows = some rows') :
    rows'.length = rows.length :=
  (Loop.mapM_eq_some.mp h).length_eq.symm

/-- Rescored edges keep their places. -/
lemma map_place_of_forall₂ {edges edges' : List GraphEdge}
    (h : List.Forall₂ (fun ge ge' => ge'.place = ge.place) edges edges') :
    edges'.map GraphEdge.place = edges.map GraphEdge.place := by
  induction h with
  | nil => rfl
  | cons hge _ ih => rw [List.map_cons, List.map_cons, ih, hge]

namespace GraphStore

/-- Nothing but the rows changes, and their places stay. -/
lemma Sound.reshape (h : graph.Sound) (hlen : rows.length = graph.adjacency.length)
    (hplaces : ∀ node, (row rows node).map GraphEdge.place = graph.placesAt node) :
    { graph with adjacency := rows : GraphStore }.Sound := by
  have hsame : ∀ node, { graph with adjacency := rows : GraphStore }.placesAt node = graph.placesAt node :=
    hplaces
  have hshrinks : Shrinks graph { graph with adjacency := rows } :=
    ⟨rfl, rfl, rfl, hlen, fun node => (List.Perm.of_eq (hsame node)).subperm⟩
  refine ⟨fun pool => (h.indexed pool).congr fun node _ => ?_, hshrinks.laidOut h.laidOut,
    hshrinks.single h.single⟩
  have hpools := congrArg (List.map Place.pool) (hsame node)
  rw [← map_edgePool_edgesAt, ← map_edgePool_edgesAt] at hpools
  exact hpools

lemma Sound.rescoreGraph (h : graph.Sound) (hstep : rescoreGraphInPlace order arena graph = some graph') :
    graph'.Sound := by
  rcases Option.map_eq_some_iff.mp hstep with ⟨rows, hrows, rfl⟩
  have hsound := h.reshape (length_rescoreAdjacency hrows) fun node =>
    map_place_of_forall₂ ((rescoreAdjacency_row hrows node).imp fun _ _ => rescoreGraphEdge_place)
  exact Sound.withCaches (hsound.compact none) _ _

end GraphStore

/-! ## Rescoring some pools -/

/-- One edge is rescored, and no row changes its length. -/
lemma rescoreAt_spec {position : ℕ × ℕ} (h : rescoreAt arena rows position = some rows') :
    rows'.length = rows.length ∧ ∀ i, (row rows' i).length = (row rows i).length ∧
      ∀ j, (row rows' i)[j]? =
        if (i, j) = position then ((row rows i)[j]?).bind (rescoreGraphEdge arena)
        else (row rows i)[j]? := by
  rcases position with ⟨node, place⟩
  rw [rescoreAt] at h
  dsimp only at h
  cases hget : (row rows node)[place]? with
  | none =>
      rw [hget] at h
      cases h
      refine ⟨rfl, fun i => ⟨rfl, fun j => ?_⟩⟩
      split_ifs with hij
      · cases hij
        rw [hget, Option.bind_none]
      · rfl
  | some ge =>
      rw [hget] at h
      rcases Option.map_eq_some_iff.mp h with ⟨ge', hge', rfl⟩
      have hplace : place < (row rows node).length := (List.getElem?_eq_some_iff.mp hget).1
      have hnode : node < rows.length := by
        by_contra hout
        rw [row_of_length_le (not_lt.mp hout)] at hplace
        cases hplace
      refine ⟨Slots.length_setSlot_of_lt hnode _, fun i => ?_⟩
      rw [row_setRow]
      split_ifs with hi
      · subst hi
        refine ⟨List.length_set, fun j => ?_⟩
        by_cases hj : j = place
        · subst hj
          rw [if_pos rfl, List.getElem?_set_self hplace, hget, Option.bind_some, hge']
        · rw [if_neg fun heq => hj (congrArg Prod.snd heq), List.getElem?_set_ne (Ne.symm hj)]
      · exact ⟨rfl, fun j => by rw [if_neg fun heq => hi (congrArg Prod.fst heq)]⟩

/-- Over a list of positions, each of which may come twice. -/
lemma foldlM_rescoreAt {positions : List (ℕ × ℕ)}
    (h : positions.foldlM (rescoreAt arena) rows = some rows') :
    rows'.length = rows.length ∧ ∀ i, (row rows' i).length = (row rows i).length ∧
      ∀ j, (row rows' i)[j]? =
        if (i, j) ∈ positions then ((row rows i)[j]?).bind (rescoreGraphEdge arena)
        else (row rows i)[j]? := by
  induction positions generalizing rows with
  | nil =>
      cases h
      exact ⟨rfl, fun i => ⟨rfl, fun j => by simp⟩⟩
  | cons position positions ih =>
      rw [List.foldlM_cons, Option.bind_eq_bind, Option.bind_eq_some_iff] at h
      rcases h with ⟨rows₁, hfirst, hrest⟩
      rcases rescoreAt_spec hfirst with ⟨hlen₁, hfirst⟩
      rcases ih hrest with ⟨hlen, hrest⟩
      refine ⟨hlen.trans hlen₁, fun i => ⟨(hrest i).1.trans (hfirst i).1, fun j => ?_⟩⟩
      rw [(hrest i).2 j, (hfirst i).2 j]
      have hagain : ∀ o : Option GraphEdge,
          (o.bind (rescoreGraphEdge arena)).bind (rescoreGraphEdge arena) =
            o.bind (rescoreGraphEdge arena) := by
        intro o
        cases o with
        | none => rfl
        | some ge =>
            cases hge : rescoreGraphEdge arena ge with
            | none => simp [hge]
            | some ge' => simp [hge, rescoreGraphEdge_again hge]
      by_cases hhead : (i, j) = position <;> by_cases htail : (i, j) ∈ positions <;>
        simp [hhead, htail, hagain]

/-- With an exact index these are the edges of the pools. -/
lemma rescored_row {pools : List PoolIndex} (hindex : graph.Indexed)
    (h : (pools.flatMap graph.positionsOf).foldlM (rescoreAt arena) graph.adjacency = some rows)
    (node : ℕ) :
    List.Forall₂ (fun ge ge' => if edgePool ge ∈ pools then rescoreGraphEdge arena ge = some ge'
      else ge' = ge) (graph.edgesAt node) (row rows node) := by
  rcases (foldlM_rescoreAt h).2 node with ⟨hlen, hentry⟩
  refine List.forall₂_iff_get.mpr ⟨hlen.symm, fun j hj hj' => ?_⟩
  have hold : (graph.edgesAt node)[j]? = some ((graph.edgesAt node).get ⟨j, hj⟩) := by simp [hj]
  have hnew : (row rows node)[j]? = some ((row rows node).get ⟨j, hj'⟩) := by simp [hj']
  have hmem : (node, j) ∈ pools.flatMap graph.positionsOf ↔
      edgePool ((graph.edgesAt node).get ⟨j, hj⟩) ∈ pools := by
    rw [List.mem_flatMap]
    constructor
    · rintro ⟨pool, hpool, hpos⟩
      rcases ((hindex pool).mem_iff node j).mp hpos with ⟨ge, hge, rfl⟩
      rw [show row graph.adjacency node = graph.edgesAt node from rfl, hold] at hge
      rw [Option.some.inj hge]
      exact hpool
    · intro hpool
      exact ⟨_, hpool, ((hindex _).mem_iff node j).mpr ⟨_, hold, rfl⟩⟩
  rw [hentry j, show row graph.adjacency node = graph.edgesAt node from rfl, hold, Option.bind_some] at hnew
  split_ifs with hpool
  · rw [if_pos (hmem.mpr hpool)] at hnew
    exact hnew
  · rw [if_neg fun hpos => hpool (hmem.mp hpos)] at hnew
    exact (Option.some.inj hnew).symm

/-- The rows of a list are sorted. -/
lemma edgesAt_sortRows (graph : GraphStore) (nodes : List ℕ) (node : ℕ) :
    (sortRows graph nodes).edgesAt node =
      if nodes.contains node then sortAdjacencyEdges (graph.edgesAt node) else graph.edgesAt node := by
  refine row_mapIdx (fun i => ?_) _ _
  split_ifs
  · exact List.perm_nil.mp (perm_sortAdjacencyEdges [])
  · rfl

lemma shrinks_sortRows (graph : GraphStore) (nodes : List ℕ) :
    GraphStore.Shrinks graph (sortRows graph nodes) := by
  refine ⟨rfl, rfl, rfl, List.length_mapIdx, fun node => ?_⟩
  rw [GraphStore.placesAt, edgesAt_sortRows]
  split_ifs
  · exact ((perm_sortAdjacencyEdges _).map _).subperm
  · exact .refl _

lemma placesAt_sortRows_of_notMem {nodes : List ℕ} {node : ℕ} (h : node ∉ nodes) :
    (sortRows graph nodes).placesAt node = graph.placesAt node := by
  rw [GraphStore.placesAt, edgesAt_sortRows, if_neg (by simpa using h)]
  rfl

namespace GraphStore

/-- `touched` has the pools of the affected hubs. -/
lemma Sound.compactAffected (h : graph.Sound) {affected touched : List ℕ}
    (hhubs : ∀ node ∈ affected, graph.tokenCount ≤ node → ∀ p ∈ graph.placesAt node, p.pool ∈ touched) :
    (compactAffected order graph affected touched).Sound := by
  set slots := affected.filter fun node => decide (node < graph.tokenCount) with hslots
  set hubs := affected.filter fun node => decide (graph.tokenCount ≤ node) with hhubsDef
  have hhub : ∀ node ∈ hubs, ∀ p ∈ graph.placesAt node, p.pool ∈ touched := by
    intro node hnode
    simp only [hhubsDef, List.mem_filter, decide_eq_true_eq] at hnode
    exact hhubs node hnode.1 hnode.2
  rw [PolygonArb.compactAffected]
  dsimp only
  rw [← hslots, ← hhubsDef]
  by_cases hempty : slots.isEmpty = true
  · -- only hubs are affected
    rw [if_pos hempty]
    have hshrinks := shrinks_sortRows graph affected
    have hindexed : (rebuildPoolEdgePositionsForPools (sortRows graph affected) touched).Indexed := by
      refine h.indexed.rebuild (fun node => (hshrinks.places node).subset) rfl fun node => ?_
      by_cases hnode : node ∈ affected
      · refine .inr (hhubs node hnode (not_lt.mp fun hlt => ?_))
        have hmem : node ∈ slots := by simp [hslots, hnode, hlt]
        rw [List.isEmpty_iff.mp hempty] at hmem
        cases hmem
      · exact .inl (placesAt_sortRows_of_notMem hnode)
    exact ⟨hindexed, (hshrinks.rebuild _).laidOut h.laidOut, (hshrinks.rebuild _).single h.single⟩
  · rw [if_neg hempty]
    set sorted := sortRows graph hubs with hsorted
    set rows := sorted.withRows (compactRow sorted.tokenCount (some slots)) with hrows
    have hshrinks : Shrinks graph rows := (shrinks_sortRows graph hubs).trans
      (.of_withRows (compactRow_nil _ _) fun node edges => (map_place_compactRow _ _ node edges).subperm)
    have hsub : ∀ node, rows.placesAt node ⊆ graph.placesAt node :=
      fun node => (hshrinks.places node).subset
    -- a row is as it was, a token row that is compacted, or the row of a hub
    have hchanged : ∀ node, rows.placesAt node = graph.placesAt node ∨
        (∀ p ∈ graph.placesAt node, p.pool ∈ compactedPools sorted (some slots)) ∨ node ∈ hubs := by
      intro node
      by_cases hmem : node ∈ hubs
      · exact .inr (.inr hmem)
      have hsame : sorted.placesAt node = graph.placesAt node := placesAt_sortRows_of_notMem hmem
      cases hnode : compacts sorted.tokenCount (some slots) node with
      | false =>
          rw [placesAt_withRows (compactRow_nil _ _), compactRow_of_not_compacts hnode]
          exact .inl hsame
      | true => exact .inr (.inl fun p hp => mem_compactedPools hnode (hsame ▸ hp))
    rcases compactTokenAdjacency_eq order sorted (some slots) with ⟨coverage, heq⟩
    rw [heq]
    split_ifs with hnohubs
    · have hindexed : (rebuildPoolEdgePositionsForPools rows
          (compactedPools sorted (some slots))).Indexed := by
        refine h.indexed.rebuild hsub rfl fun node => (hchanged node).imp id fun hor => hor.resolve_right ?_
        rw [List.isEmpty_iff.mp hnohubs]
        exact List.not_mem_nil
      exact Sound.withCaches ⟨hindexed, (hshrinks.rebuild _).laidOut h.laidOut,
        (hshrinks.rebuild _).single h.single⟩ _ _
    · have hindexed : (rebuildPoolEdgePositionsForPools (rebuildPoolEdgePositionsForPools rows
          (compactedPools sorted (some slots))) touched).Indexed :=
        h.indexed.rebuild_rebuild hsub rfl fun node => (hchanged node).imp id (Or.imp id (hhub node))
      exact Sound.withCaches ⟨hindexed, ((hshrinks.rebuild _).rebuild _).laidOut h.laidOut,
        ((hshrinks.rebuild _).rebuild _).single h.single⟩ _ _

lemma mem_affectedAdjacencies {pools : List PoolIndex} {node : ℕ} (h : graph.Indexed) :
    node ∈ affectedAdjacencies graph pools ↔ ∃ p ∈ graph.placesAt node, p.pool ∈ pools := by
  simp only [affectedAdjacencies, mem_sortDedup, List.mem_map, List.mem_filter, List.mem_flatMap,
    Prod.exists, exists_and_right, exists_eq_right]
  constructor
  · rintro ⟨j, ⟨pool, hpool, hpos⟩, -⟩
    rcases ((h pool).mem_iff node j).mp hpos with ⟨ge, hge, rfl⟩
    exact ⟨ge.place, List.mem_map.mpr ⟨ge, List.mem_of_getElem? hge, rfl⟩, hpool⟩
  · rintro ⟨p, hp, hpool⟩
    rcases List.mem_map.mp hp with ⟨ge, hge, rfl⟩
    rcases List.mem_iff_getElem?.mp hge with ⟨j, hj⟩
    have hpos := ((h _).mem_iff node j).mpr ⟨ge, hj, rfl⟩
    exact ⟨j, ⟨_, hpool, hpos⟩, by simp [GraphStore.edgeAt, hj]⟩

/-- The pools of an affected hub are dirty: a hub has the edges of one pool. -/
lemma Sound.pool_mem_touched (h : graph.Sound) {pools : List PoolIndex} {node : ℕ}
    (hnode : node ∈ affectedAdjacencies graph pools) (hhub : graph.tokenCount ≤ node) {p : Place}
    (hp : p ∈ graph.placesAt node) :
    p.pool ∈ sortDedup (pools.filter fun pool => decide (pool < graph.poolEdgePositions.length)) := by
  rcases (mem_affectedAdjacencies h.indexed).mp hnode with ⟨dirty, hdirty, hpool⟩
  have hsame : p.pool = dirty.pool := Option.some.inj
    ((h.laidOut.hub node hhub p hp).pool.symm.trans (h.laidOut.hub node hhub dirty hdirty).pool)
  rw [mem_sortDedup, List.mem_filter, decide_eq_true_eq]
  exact ⟨hsame ▸ hpool, h.indexed.slotted node p hp⟩

lemma Sound.rescored (h : graph.Sound) {pools : List PoolIndex}
    (hrows : (pools.flatMap graph.positionsOf).foldlM (rescoreAt arena) graph.adjacency = some rows) :
    (∀ node, (row rows node).map GraphEdge.place = graph.placesAt node) ∧
      { graph with adjacency := rows : GraphStore }.Sound := by
  have hplaces : ∀ node, (row rows node).map GraphEdge.place = graph.placesAt node := by
    intro node
    refine map_place_of_forall₂ ((rescored_row h.indexed hrows node).imp fun ge ge' hge => ?_)
    split_ifs at hge
    · exact rescoreGraphEdge_place hge
    · rw [hge]
  exact ⟨hplaces, h.reshape (foldlM_rescoreAt hrows).1 hplaces⟩

lemma Sound.rescorePools (h : graph.Sound) {pools : List PoolIndex}
    (hstep : rescorePoolsInPlace order arena graph pools = some graph') : graph'.Sound := by
  rw [rescorePoolsInPlace] at hstep
  split_ifs at hstep
  · cases hstep
    exact h
  · rcases Option.map_eq_some_iff.mp hstep with ⟨rows, hrows, rfl⟩
    rcases h.rescored hrows with ⟨hplaces, hsound⟩
    refine (hsound.compactAffected fun node hnode hhub p hp => ?_).withCaches _ _
    exact h.pool_mem_touched hnode hhub (hplaces node ▸ hp)

end GraphStore

end Rescore

end PolygonArb

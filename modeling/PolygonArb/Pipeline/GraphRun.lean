import PolygonArb.Pipeline.ActiveGraph
import PolygonArb.Pipeline.GraphInvariant
import PolygonArb.Pipeline.Realign

/-!
# Runs of the routing graph

Removal, growth and attaching keep `GraphStore.Sound` as well, and with them every operation
(`GraphStore.Sound.step`).  `graph_shape_kept` is the result over runs: in every state the reverse index
is exact and the nodes are laid out as `[tokens | hubs]`, and growing the token range from there moves
every hub with all references to it.
-/

namespace PolygonArb

open ReverseIndex Transition

namespace GraphStore

variable {graph graph' : GraphStore}

/-! ## Removing a pool -/

/-- No edge of the graph is of the pool. -/
def Without (graph : GraphStore) (pool : PoolIndex) : Prop :=
  ∀ node, ∀ p ∈ graph.placesAt node, p.pool ≠ pool

/-- With an exact index the positions of a pool say whether it has edges. -/
lemma without_iff (h : graph.Indexed) {pool : PoolIndex} :
    graph.Without pool ↔ graph.positionsOf pool = [] := by
  constructor
  · intro hnone
    refine List.eq_nil_iff_forall_not_mem.mpr ?_
    rintro ⟨node, j⟩ hpos
    rcases ((h pool).mem_iff node j).mp hpos with ⟨ge, hge, hpool⟩
    exact hnone node ge.place (List.mem_map.mpr ⟨ge, List.mem_of_getElem? hge, rfl⟩) hpool
  · intro hpositions node p hp hpool
    rcases List.mem_map.mp hp with ⟨ge, hge, rfl⟩
    rcases (h pool).covers node ge hge hpool with ⟨j, hj⟩
    replace hpositions : row graph.poolEdgePositions pool = [] := hpositions
    rw [hpositions] at hj
    cases hj

lemma poolHasEdges_iff {pool : PoolIndex} : graph.poolHasEdges pool = false ↔ graph.positionsOf pool = [] := by
  rw [poolHasEdges, Bool.not_eq_false', List.isEmpty_iff]

end GraphStore

section Remove

variable {graph : GraphStore} {pool : PoolIndex} {touched : List ℕ}

lemma map_poolIndex_clearExitLegs (pool : PoolIndex) (hubs : List VirtualPoolHub) :
    (clearExitLegs pool hubs).map VirtualPoolHub.poolIndex = hubs.map VirtualPoolHub.poolIndex := by
  induction hubs with
  | nil => rfl
  | cons hub hubs ih =>
      rw [clearExitLegs]
      split_ifs
      · rfl
      · rw [List.map_cons, List.map_cons, ih]

lemma retainOthers_nil (pool : PoolIndex) (touched : List ℕ) (node : ℕ) :
    retainOthers pool touched node [] = [] := by
  rw [retainOthers]
  split_ifs <;> rfl

lemma retainOthers_sublist (node : ℕ) (edges : List GraphEdge) :
    (retainOthers pool touched node edges).Sublist edges := by
  rw [retainOthers]
  split_ifs
  · exact List.filter_sublist
  · exact .refl _

lemma mem_retainOthers {node : ℕ} {edges : List GraphEdge} {ge : GraphEdge} (h : ge ∈ edges)
    (hpool : ge.edge.poolIndex ≠ pool) : ge ∈ retainOthers pool touched node edges := by
  rw [retainOthers]
  split_ifs
  · exact List.mem_filter.mpr ⟨h, by simpa using hpool⟩
  · exact h

namespace GraphStore

/-- With an exact index every edge of the pool is found. -/
lemma Indexed.mem_touched (h : graph.Indexed) {node : ℕ} {p : Place} (hp : p ∈ graph.placesAt node) :
    node ∈ (graph.positionsOf p.pool).map Prod.fst := by
  rcases List.mem_map.mp hp with ⟨ge, hge, rfl⟩
  rcases (h ge.edge.poolIndex).covers node ge hge rfl with ⟨j, hj⟩
  exact List.mem_map.mpr ⟨(node, j), hj, rfl⟩

/-- The edges of the pool are there to be removed. -/
lemma Indexed.length_retainOthers_ne (h : graph.Indexed) {node : ℕ} {ge : GraphEdge}
    (hge : ge ∈ graph.edgesAt node) :
    (retainOthers ge.edge.poolIndex ((graph.positionsOf ge.edge.poolIndex).map Prod.fst) node
      (graph.edgesAt node)).length ≠ (graph.edgesAt node).length := by
  intro hlen
  have hnode : node ∈ (graph.positionsOf ge.edge.poolIndex).map Prod.fst :=
    h.mem_touched (p := ge.place) (List.mem_map.mpr ⟨ge, hge, rfl⟩)
  have hall := (retainOthers_sublist node (graph.edgesAt node)).eq_of_length hlen
  rw [retainOthers, if_pos (List.contains_iff_mem.mpr hnode), List.filter_eq_self] at hall
  exact absurd rfl (of_decide_eq_true (hall ge hge))

/-- A pool that has edges loses them. -/
lemma Indexed.any_retained_ne (h : graph.Indexed) (hpositions : graph.positionsOf pool ≠ []) :
    (graph.adjacency.mapIdx fun node edges => decide ((retainOthers pool
      ((graph.positionsOf pool).map Prod.fst) node edges).length ≠ edges.length)).any id = true := by
  rcases List.exists_mem_of_ne_nil _ hpositions with ⟨⟨node, j⟩, hpos⟩
  rcases ((h pool).mem_iff node j).mp hpos with ⟨ge, hge, rfl⟩
  have hmem : ge ∈ graph.edgesAt node := List.mem_of_getElem? hge
  exact List.any_eq_true.mpr
    ⟨_, mem_mapIdx_adjacency hmem, decide_eq_true (h.length_retainOthers_ne hmem)⟩

/-- A removal changes nothing or forgets the coverage. -/
lemma Indexed.removePool_cases (h : graph.Indexed) (pool : PoolIndex) :
    removePoolEdgesFromGraph graph pool = graph ∨
      (removePoolEdgesFromGraph graph pool).coverage = none := by
  rw [removePoolEdgesFromGraph]
  dsimp only
  split_ifs with hempty hunchanged
  · exact .inl rfl
  · rw [h.any_retained_ne (by simpa using hempty)] at hunchanged
    cases hunchanged
  · exact .inr rfl

/-- A row that lost edges has its pools listed anew. -/
lemma mem_reindexRetained {node : ℕ} {p : Place} (hp : p ∈ graph.placesAt node)
    (hlen : (retainOthers pool touched node (graph.edgesAt node)).length ≠
      (graph.edgesAt node).length) :
    p.pool ∈ pool :: (graph.adjacency.mapIdx (reindexRetained pool touched)).flatten := by
  rcases List.mem_map.mp hp with ⟨ge, hge, rfl⟩
  by_cases hpool : ge.edge.poolIndex = pool
  · exact List.mem_cons.mpr (.inl hpool)
  · refine List.mem_cons_of_mem _ (List.mem_flatten.mpr ⟨_, mem_mapIdx_adjacency hge, ?_⟩)
    rw [reindexRetained, if_pos hlen]
    exact List.mem_map.mpr ⟨ge, mem_retainOthers hge hpool, rfl⟩

/-- What is left after a removal. -/
lemma Sound.removePool (h : graph.Sound) (pool : PoolIndex) :
    (removePoolEdgesFromGraph graph pool).Sound ∧ (removePoolEdgesFromGraph graph pool).Without pool ∧
      Shrinks graph (removePoolEdgesFromGraph graph pool) := by
  rw [removePoolEdgesFromGraph]
  dsimp only
  set touched := (graph.positionsOf pool).map Prod.fst with htouched
  split_ifs with hempty hunchanged
  · exact ⟨h, (without_iff h.indexed).mpr (List.isEmpty_iff.mp hempty), .refl _⟩
  · rw [h.indexed.any_retained_ne (by simpa using hempty)] at hunchanged
    cases hunchanged
  · set rows := graph.withRows (retainOthers pool touched) with hrows
    have hplaces : ∀ node, rows.placesAt node =
        (retainOthers pool touched node (graph.edgesAt node)).map GraphEdge.place :=
      placesAt_withRows (retainOthers_nil pool touched)
    have hshrinks : Shrinks graph
        { rows with virtualHubs := clearExitLegs pool graph.virtualHubs } := by
      refine ⟨rfl, map_poolIndex_clearExitLegs pool _, rfl, List.length_mapIdx, fun node => ?_⟩
      show (rows.placesAt node).Subperm _
      rw [hplaces]
      exact ((retainOthers_sublist node _).map _).subperm
    have hindexed : (rebuildPoolEdgePositionsForPools
        { rows with virtualHubs := clearExitLegs pool graph.virtualHubs }
        (pool :: (graph.adjacency.mapIdx (reindexRetained pool touched)).flatten)).Indexed := by
      refine h.indexed.rebuild (fun node => (hshrinks.places node).subset) rfl fun node => ?_
      by_cases hlen : (retainOthers pool touched node (graph.edgesAt node)).length =
          (graph.edgesAt node).length
      · refine .inl ((hplaces node).trans ?_)
        rw [(retainOthers_sublist node _).eq_of_length hlen]
        rfl
      · exact .inr fun p hp => mem_reindexRetained hp hlen
    refine ⟨Sound.withCaches ⟨hindexed, (hshrinks.rebuild _).laidOut h.laidOut,
      (hshrinks.rebuild _).single h.single⟩ none none, fun node p hp hpool => ?_,
      ⟨hshrinks.tokens, hshrinks.hubs, hshrinks.v4, hshrinks.nodes, hshrinks.places⟩⟩
    replace hp : p ∈ rows.placesAt node := hp
    have hnode := h.indexed.mem_touched ((hshrinks.places node).subset hp)
    rw [hpool, ← htouched] at hnode
    rw [hplaces, retainOthers, if_pos (List.contains_iff_mem.mpr hnode)] at hp
    rcases List.mem_map.mp hp with ⟨ge, hge, rfl⟩
    exact of_decide_eq_true (List.mem_filter.mp hge).2 hpool

end GraphStore

end Remove

/-! ## Growing -/

/-- Where a node is after the tokens have grown: hubs move up by as many nodes as were added. -/
def GraphStore.movedNode (graph : GraphStore) (tokenCount node : ℕ) : ℕ :=
  if node < graph.tokenCount then node else node + (tokenCount - graph.tokenCount)

def GraphEdge.moveTarget (f : ℕ → ℕ) (ge : GraphEdge) : GraphEdge :=
  { ge with targetNode := f ge.targetNode }

/-- Growth loses and retargets nothing: every row is at the new number of its node, its edges lead to the
new numbers of their targets, and a node that is a hub is the same hub. -/
structure GraphStore.Grown (graph graph' : GraphStore) (tokenCount : ℕ) : Prop where
  tokens : graph'.tokenCount = max graph.tokenCount tokenCount
  hubs : graph'.virtualHubs = graph.virtualHubs
  v4 : graph'.v4SingletonHub = graph.v4SingletonHub.map (graph.movedNode tokenCount)
  edges : ∀ node, graph'.edgesAt (graph.movedNode tokenCount node) =
    (graph.edgesAt node).map (GraphEdge.moveTarget (graph.movedNode tokenCount))
  fresh : ∀ node, (∀ old, graph.movedNode tokenCount old ≠ node) → graph'.edgesAt node = []
  hub : ∀ node, graph.tokenCount ≤ node →
    graph'.routing.virtualHubIndex (graph.movedNode tokenCount node) =
      graph.routing.virtualHubIndex node

namespace GraphStore

variable {graph graph' : GraphStore} {tokenCount node : ℕ}

lemma movedNode_of_lt (h : node < graph.tokenCount) : graph.movedNode tokenCount node = node := if_pos h

lemma movedNode_of_le (h : graph.tokenCount ≤ node) :
    graph.movedNode tokenCount node = node + (tokenCount - graph.tokenCount) := if_neg (not_lt.mpr h)

lemma movedNode_injective (graph : GraphStore) (tokenCount : ℕ) :
    Function.Injective (graph.movedNode tokenCount) := by
  intro a b hab
  simp only [movedNode] at hab
  split_ifs at hab <;> omega

/-- Without new tokens nothing moves. -/
lemma movedNode_eq_self (h : tokenCount ≤ graph.tokenCount) (node : ℕ) :
    graph.movedNode tokenCount node = node := by
  rw [movedNode, Nat.sub_eq_zero_of_le h, add_zero, ite_self]

lemma Grown.refl (h : tokenCount ≤ graph.tokenCount) : Grown graph graph tokenCount := by
  have hid : graph.movedNode tokenCount = id := funext (movedNode_eq_self h)
  refine ⟨(max_eq_left h).symm, rfl, by rw [hid, Option.map_id, id], fun node => ?_, fun node hold => ?_,
    fun node _ => by rw [hid, id]⟩
  · rw [hid, id]
    exact (List.map_id _).symm
  · exact absurd (congrFun hid node) (hold node)

/-- The targets the growth rewrites are the hubs. -/
lemma LaidOut.retarget_eq_moveTarget (h : graph.LaidOut) {ge : GraphEdge} (hge : ge ∈ graph.edgesAt node) :
    retarget graph.tokenCount graph.hubEnd (tokenCount - graph.tokenCount) ge =
      ge.moveTarget (graph.movedNode tokenCount) := by
  have hplace : ge.place ∈ graph.placesAt node := List.mem_map.mpr ⟨ge, hge, rfl⟩
  have htarget : ge.targetNode < graph.tokenCount ∨
      graph.tokenCount ≤ ge.targetNode ∧ ge.targetNode < graph.hubEnd := by
    by_cases hnode : node < graph.tokenCount
    · have hleg := h.token node hnode ge.place hplace
      rcases hleg.target with ⟨-, htarget⟩ | ⟨-, htarget⟩
      · exact .inl (htarget.trans_lt hleg.tokenOut)
      · exact .inr htarget
    · have hleg := h.hub node (not_lt.mp hnode) ge.place hplace
      exact .inl (hleg.target.trans_lt hleg.tokenOut)
  rw [retarget, GraphEdge.moveTarget, movedNode]
  rcases htarget with hlt | hhub
  · rw [if_neg (by omega), if_pos hlt]
  · rw [if_pos hhub, if_neg (by omega)]

section Grow

variable (h : graph.LaidOut) (hgrows : graph.tokenCount < tokenCount)
include h hgrows

lemma edgesAt_grown (node : ℕ) :
    (graph.ensureTokenCapacity tokenCount).edgesAt node =
      (graph.grownRow tokenCount node).map
        (retarget graph.tokenCount graph.hubEnd (tokenCount - graph.tokenCount)) := by
  rw [ensureTokenCapacity, if_neg (not_le.mpr hgrows)]
  show row (List.map _ _) node = _
  rw [row, List.getElem?_map]
  by_cases hnode : node < tokenCount + graph.virtualHubs.length
  · rw [List.getElem?_range hnode, Option.map_some, Option.getD_some]
  · rw [List.getElem?_eq_none (by rw [List.length_range]; omega), Option.map_none, Option.getD_none, grownRow,
      if_neg (by omega), if_neg (by omega), edgesAt, row_of_length_le, List.map_nil]
    rw [h.nodes, hubEnd]
    omega

lemma grown_edges (node : ℕ) :
    (graph.ensureTokenCapacity tokenCount).edgesAt (graph.movedNode tokenCount node) =
      (graph.edgesAt node).map (GraphEdge.moveTarget (graph.movedNode tokenCount)) := by
  have hrow : graph.grownRow tokenCount (graph.movedNode tokenCount node) = graph.edgesAt node := by
    by_cases hnode : node < graph.tokenCount
    · rw [movedNode_of_lt hnode, grownRow, if_pos hnode]
    · rw [movedNode_of_le (not_lt.mp hnode), grownRow, if_neg (by omega), if_neg (by omega)]
      congr 1
      omega
  rw [edgesAt_grown h hgrows, hrow]
  exact List.map_congr_left fun ge hge => h.retarget_eq_moveTarget hge

lemma grown_fresh {node : ℕ} (hfresh : ∀ old, graph.movedNode tokenCount old ≠ node) :
    (graph.ensureTokenCapacity tokenCount).edgesAt node = [] := by
  have htoken : graph.tokenCount ≤ node := not_lt.mp fun hlt => hfresh node (movedNode_of_lt hlt)
  have hnew : node < tokenCount := by
    by_contra hge
    refine hfresh (node - (tokenCount - graph.tokenCount)) ?_
    rw [movedNode_of_le (by omega)]
    omega
  have hrow : graph.grownRow tokenCount node = [] := by
    rw [grownRow, if_neg (not_lt.mpr htoken), if_pos hnew]
    split_ifs with hend
    · rw [edgesAt, row_of_length_le (h.nodes ▸ hend)]
    · rfl
  rw [edgesAt_grown h hgrows, hrow, List.map_nil]

end Grow

/-- The fields of a graph that grew. -/
lemma ensureTokenCapacity_eq (hgrows : graph.tokenCount < tokenCount) :
    (graph.ensureTokenCapacity tokenCount).tokenCount = tokenCount ∧
      (graph.ensureTokenCapacity tokenCount).virtualHubs = graph.virtualHubs ∧
      (graph.ensureTokenCapacity tokenCount).adjacency.length =
        tokenCount + graph.virtualHubs.length := by
  rw [ensureTokenCapacity, if_neg (not_le.mpr hgrows)]
  exact ⟨rfl, rfl, by simp⟩

lemma LaidOut.grown (h : graph.LaidOut) (tokenCount : ℕ) :
    Grown graph (graph.ensureTokenCapacity tokenCount) tokenCount := by
  by_cases hle : tokenCount ≤ graph.tokenCount
  · rw [ensureTokenCapacity, if_pos hle]
    exact .refl hle
  have hgrows := not_le.mp hle
  rcases ensureTokenCapacity_eq hgrows with ⟨htokens, hhubs, -⟩
  refine ⟨htokens.trans (max_eq_right hgrows.le).symm, hhubs, ?_, grown_edges h hgrows,
    fun node => grown_fresh h hgrows, fun node hnode => ?_⟩
  · rw [ensureTokenCapacity, if_neg hle]
    refine Option.map_congr fun hub hhub => ?_
    rw [if_pos (h.v4 hub hhub), movedNode_of_le (h.v4 hub hhub).1]
  · have hindex : node + (tokenCount - graph.tokenCount) - tokenCount = node - graph.tokenCount := by omega
    simp only [RoutingGraph.virtualHubIndex, RoutingGraph.isVirtualNode, routing, htokens, hhubs,
      movedNode_of_le hnode, hindex]
    have hge : tokenCount ≤ node + (tokenCount - graph.tokenCount) := by omega
    simp [hnode, hge]

/-- A position of an exact index is in a row of the table. -/
lemma Indexed.lt_of_mem (h : graph.Indexed) {positions : List (ℕ × ℕ)} {p : ℕ × ℕ}
    (hpositions : positions ∈ graph.poolEdgePositions) (hp : p ∈ positions) :
    p.1 < graph.adjacency.length := by
  rcases List.mem_iff_getElem?.mp hpositions with ⟨pool, hpool⟩
  have hrow : p ∈ row graph.poolEdgePositions pool := by
    rw [row, hpool]
    exact hp
  rcases ((h pool).mem_iff p.1 p.2).mp hrow with ⟨ge, hge, -⟩
  by_contra hout
  rw [row_of_length_le (not_lt.mp hout)] at hge
  cases hge

/-- The index moves with the nodes. -/
lemma Sound.indexed_grown (h : graph.Sound) (hgrows : graph.tokenCount < tokenCount) :
    (graph.ensureTokenCapacity tokenCount).Indexed := by
  have hshift : Exact edgePool (graph.ensureTokenCapacity tokenCount).adjacency
      (graph.poolEdgePositions.map fun positions =>
        positions.map fun p => (graph.movedNode tokenCount p.1, p.2)) := by
    refine h.indexed.shift (movedNode_injective graph tokenCount) (fun node => ?_)
      fun node => grown_fresh h.laidOut hgrows
    have hedges := congrArg (List.map edgePool) (grown_edges h.laidOut hgrows node)
    rw [List.map_map] at hedges
    exact hedges
  have hindex : (graph.ensureTokenCapacity tokenCount).poolEdgePositions =
      graph.poolEdgePositions.map fun positions =>
        positions.map fun p => (graph.movedNode tokenCount p.1, p.2) := by
    rw [ensureTokenCapacity, if_neg (not_le.mpr hgrows)]
    refine List.map_congr_left fun positions hpositions => List.map_congr_left fun p hp => ?_
    have hlt : p.1 < graph.hubEnd := h.laidOut.nodes ▸ h.indexed.lt_of_mem hpositions hp
    simp only [movedNode, Prod.mk.injEq, and_true]
    split_ifs <;> omega
  rw [Indexed, hindex]
  exact hshift

lemma laidOut_grown (h : graph.LaidOut) (hgrows : graph.tokenCount < tokenCount) :
    (graph.ensureTokenCapacity tokenCount).LaidOut := by
  rcases ensureTokenCapacity_eq hgrows with ⟨htokens, hhubs, hlen⟩
  have hend : (graph.ensureTokenCapacity tokenCount).hubEnd = tokenCount + graph.virtualHubs.length := by
    rw [hubEnd, htokens, hhubs]
  have hgrown := h.grown tokenCount
  have hplace : ∀ node, ∀ p ∈ (graph.ensureTokenCapacity tokenCount).placesAt node,
      ∃ old q, graph.movedNode tokenCount old = node ∧ q ∈ graph.placesAt old ∧
        p = { q with target := graph.movedNode tokenCount q.target } := by
    intro node p hp
    by_cases hold : ∃ old, graph.movedNode tokenCount old = node
    · rcases hold with ⟨old, rfl⟩
      rw [placesAt, hgrown.edges, List.map_map] at hp
      rcases List.mem_map.mp hp with ⟨ge, hge, rfl⟩
      exact ⟨old, ge.place, rfl, List.mem_map.mpr ⟨ge, hge, rfl⟩, rfl⟩
    · rw [placesAt, hgrown.fresh node fun old heq => hold ⟨old, heq⟩] at hp
      cases hp
  refine ⟨hlen.trans hend.symm, fun node hnode p hp => ?_, fun node hnode p hp => ?_, fun node hnode => ?_⟩
  · rcases hplace node p hp with ⟨old, q, rfl, hq, rfl⟩
    rw [htokens] at hnode
    have hold : old < graph.tokenCount := by
      by_contra hge
      rw [movedNode_of_le (not_lt.mp hge)] at hnode
      omega
    have hleg := h.token old hold q hq
    have hout := hleg.tokenOut
    refine ⟨(movedNode_of_lt hold).symm ▸ hleg.tokenIn, (hout.trans hgrows).trans_eq htokens.symm, ?_⟩
    rcases hleg.target with ⟨hphase, htarget⟩ | ⟨hphase, htarget⟩
    · refine .inl ⟨hphase, ?_⟩
      show graph.movedNode tokenCount q.target = q.tokenOut
      rw [htarget, movedNode_of_lt hout]
    · refine .inr ⟨hphase, ?_⟩
      show _ ≤ graph.movedNode tokenCount q.target ∧ graph.movedNode tokenCount q.target < _
      rw [movedNode_of_le htarget.1, htokens, hend]
      have hlt := htarget.2
      rw [hubEnd] at hlt
      omega
  · rcases hplace node p hp with ⟨old, q, rfl, hq, rfl⟩
    rw [htokens] at hnode
    have hold : graph.tokenCount ≤ old := by
      by_contra hlt
      rw [movedNode_of_lt (not_le.mp hlt)] at hnode
      omega
    have hleg := h.hub old hold q hq
    have hindex : graph.movedNode tokenCount old - tokenCount = old - graph.tokenCount := by
      rw [movedNode_of_le hold]
      omega
    refine ⟨hleg.phase, ?_, (hleg.tokenOut.trans hgrows).trans_eq htokens.symm, ?_⟩
    · show graph.movedNode tokenCount q.target = q.tokenOut
      rw [hleg.target, movedNode_of_lt hleg.tokenOut]
    · rw [htokens, hhubs, hindex]
      exact hleg.pool
  · rw [hgrown.v4] at hnode
    rcases Option.map_eq_some_iff.mp hnode with ⟨old, hold, rfl⟩
    have hv4 := h.v4 old hold
    rw [movedNode_of_le hv4.1, htokens, hend]
    rw [hubEnd] at hv4
    omega

lemma Sound.grow (h : graph.Sound) (tokenCount : ℕ) : (graph.ensureTokenCapacity tokenCount).Sound := by
  by_cases hle : tokenCount ≤ graph.tokenCount
  · rw [ensureTokenCapacity, if_pos hle]
    exact h
  have hgrows := not_le.mp hle
  refine ⟨h.indexed_grown hgrows, laidOut_grown h.laidOut hgrows, fun node => ?_⟩
  have hgrown := h.laidOut.grown tokenCount
  by_cases hold : ∃ old, graph.movedNode tokenCount old = node
  · rcases hold with ⟨old, rfl⟩
    have hpools : (graph.ensureTokenCapacity tokenCount).directPools (graph.movedNode tokenCount old) =
        graph.directPools old := by
      rw [directPools, directPools, placesAt, placesAt, hgrown.edges, List.map_map, List.filter_map,
        List.filter_map, List.map_map, List.map_map]
      rfl
    rw [hpools]
    exact h.single old
  · rw [directPools, placesAt, hgrown.fresh node fun old heq => hold ⟨old, heq⟩]
    exact List.nodup_nil

end GraphStore

/-! ## Attaching -/

namespace GraphStore

variable {graph graph' : GraphStore}

lemma placesAt_pushEdgeAt (fromNode node : ℕ) (ge : GraphEdge) :
    (graph.pushEdgeAt fromNode ge).placesAt node =
      if node = fromNode then graph.placesAt node ++ [(pushed ge).place] else graph.placesAt node := by
  rw [placesAt, edgesAt_pushEdgeAt]
  split_ifs
  · rw [List.map_append]
    rfl
  · rfl

lemma Sound.push (h : graph.Sound) {fromNode : ℕ} {ge : GraphEdge} (hnode : fromNode < graph.hubEnd)
    (htoken : fromNode < graph.tokenCount → TokenLeg graph fromNode (pushed ge).place)
    (hhub : graph.tokenCount ≤ fromNode → HubLeg graph fromNode (pushed ge).place)
    (hsingle : ge.phase = .direct → ge.edge.poolIndex ∉ graph.directPools fromNode) :
    (graph.pushEdgeAt fromNode ge).Sound := by
  have hmem : ∀ {node : ℕ} {p : Place}, p ∈ (graph.pushEdgeAt fromNode ge).placesAt node →
      p ∈ graph.placesAt node ∨ node = fromNode ∧ p = (pushed ge).place := by
    intro node p hp
    rw [placesAt_pushEdgeAt] at hp
    split_ifs at hp with hsame
    · rw [List.mem_append, List.mem_singleton] at hp
      exact hp.imp id fun heq => ⟨hsame, heq⟩
    · exact .inl hp
  have hlen : (graph.pushEdgeAt fromNode ge).adjacency.length = graph.adjacency.length :=
    Slots.length_setSlot_of_lt (h.laidOut.nodes ▸ hnode) _
  refine ⟨h.indexed.pushEdgeAt fromNode ge, ⟨hlen.trans h.laidOut.nodes, ?_, ?_, h.laidOut.v4⟩,
    fun node => ?_⟩
  · intro node hlt p hp
    rcases hmem hp with hold | ⟨rfl, rfl⟩
    · exact ⟨(h.laidOut.token node hlt p hold).tokenIn, (h.laidOut.token node hlt p hold).tokenOut,
        (h.laidOut.token node hlt p hold).target⟩
    · exact ⟨(htoken hlt).tokenIn, (htoken hlt).tokenOut, (htoken hlt).target⟩
  · intro node hge p hp
    rcases hmem hp with hold | ⟨rfl, rfl⟩
    · exact ⟨(h.laidOut.hub node hge p hold).phase, (h.laidOut.hub node hge p hold).target,
        (h.laidOut.hub node hge p hold).tokenOut, (h.laidOut.hub node hge p hold).pool⟩
    · exact ⟨(hhub hge).phase, (hhub hge).target, (hhub hge).tokenOut, (hhub hge).pool⟩
  · rw [directPools, placesAt_pushEdgeAt]
    split_ifs with hsame
    · subst hsame
      rw [List.filter_append, List.map_append, List.nodup_append]
      refine ⟨h.single node, ?_, ?_⟩
      · by_cases hphase : (pushed ge).place.phase = .direct <;> simp [hphase]
      · intro pool hpool pool' hpool' heq
        rcases List.mem_map.mp hpool' with ⟨p, hp, rfl⟩
        rcases List.mem_filter.mp hp with ⟨hp, hphase⟩
        rw [List.mem_singleton.mp hp] at hphase heq
        have hdirect : ge.phase = .direct := by simpa [GraphEdge.place] using hphase
        refine hsingle hdirect ?_
        have hpoolEq : (pushed ge).place.pool = ge.edge.poolIndex := by simp [GraphEdge.place]
        rw [← hpoolEq, ← heq]
        exact hpool
    · exact h.single node

lemma hubEnd_pushHub (graph : GraphStore) (hub : VirtualPoolHub) :
    (pushHub graph hub).hubEnd = graph.hubEnd + 1 := by
  simp [hubEnd, pushHub, Nat.add_assoc]

/-- The new node is a hub node. -/
lemma hubRange_pushHub (graph : GraphStore) (hub : VirtualPoolHub) :
    graph.tokenCount ≤ graph.hubEnd ∧ graph.hubEnd < (pushHub graph hub).hubEnd :=
  ⟨Nat.le_add_right _ _, hubEnd_pushHub graph hub ▸ Nat.lt_succ_self _⟩

/-- A hub at the end has no edges yet. -/
lemma edgesAt_pushHub (graph : GraphStore) (hub : VirtualPoolHub) (node : ℕ) :
    (pushHub graph hub).edgesAt node = graph.edgesAt node := by
  have hpad := Slots.getD_append_replicate (d := []) graph.adjacency 1 node
  rw [edgesAt, edgesAt, row_eq_getD, row_eq_getD]
  exact hpad

lemma Sound.withHub (h : graph.Sound) (hub : VirtualPoolHub) : (pushHub graph hub).Sound := by
  have hedges := edgesAt_pushHub graph hub
  have hplaces : ∀ node, (pushHub graph hub).placesAt node = graph.placesAt node := by
    intro node
    rw [placesAt, hedges, placesAt]
  have hend := hubEnd_pushHub graph hub
  refine ⟨fun pool => (h.indexed pool).congr fun node _ => congrArg (List.map edgePool) (hedges node),
    ⟨?_, ?_, ?_, ?_⟩, fun node => ?_⟩
  · rw [hend, ← h.laidOut.nodes]
    simp [pushHub]
  · intro node hlt p hp
    have hleg := h.laidOut.token node hlt p (hplaces node ▸ hp)
    refine ⟨hleg.tokenIn, hleg.tokenOut, hleg.target.imp id fun hhub => ⟨hhub.1, hhub.2.1, ?_⟩⟩
    rw [hend]
    exact Nat.lt_succ_of_lt hhub.2.2
  · intro node hge p hp
    have hleg := h.laidOut.hub node hge p (hplaces node ▸ hp)
    refine ⟨hleg.phase, hleg.target, hleg.tokenOut, ?_⟩
    rcases Option.map_eq_some_iff.mp hleg.pool with ⟨old, hold, hpool⟩
    have hlt : node - graph.tokenCount < graph.virtualHubs.length := (List.getElem?_eq_some_iff.mp hold).1
    show Option.map _ ((graph.virtualHubs ++ [hub])[node - graph.tokenCount]?) = _
    rw [List.getElem?_append_left hlt, hold, Option.map_some, hpool]
  · intro node hv4
    have hold := h.laidOut.v4 node hv4
    rw [hend]
    exact ⟨hold.1, Nat.lt_succ_of_lt hold.2⟩
  · rw [directPools, hplaces]
    exact h.single node

/-- The legs into a hub. -/
lemma Sound.foldl_pushEnterEdge {hubNode : ℕ} {legs : List (ℕ × TokenIndex)} (h : graph.Sound)
    (pool : PoolMeta) (hhub : graph.tokenCount ≤ hubNode ∧ hubNode < graph.hubEnd)
    (hlegs : ∀ leg ∈ legs, leg.2 < graph.tokenCount) :
    (legs.foldl (pushEnterEdge pool hubNode) graph).Sound ∧
      (legs.foldl (pushEnterEdge pool hubNode) graph).tokenCount = graph.tokenCount ∧
      (legs.foldl (pushEnterEdge pool hubNode) graph).virtualHubs = graph.virtualHubs := by
  induction legs generalizing graph with
  | nil => exact ⟨h, rfl, rfl⟩
  | cons leg legs ih =>
      have hleg := hlegs leg List.mem_cons_self
      refine ih (h.push (lt_of_lt_of_le hleg (Nat.le_add_right _ _)) (fun _ => ⟨rfl, hleg, .inr ⟨rfl, hhub⟩⟩)
        (fun hge => absurd hleg (not_lt.mpr hge)) fun hphase => nomatch hphase) hhub fun leg' hleg' =>
        hlegs leg' (List.mem_cons_of_mem _ hleg')

/-- The legs out of the hub of a pool. -/
lemma Sound.foldl_pushExitEdge {pool : PoolMeta} {hubNode : ℕ} {legs : List (ℕ × TokenIndex)}
    (h : graph.Sound) (hhub : graph.tokenCount ≤ hubNode ∧ hubNode < graph.hubEnd)
    (hpool : (graph.virtualHubs[hubNode - graph.tokenCount]?).map VirtualPoolHub.poolIndex =
      some pool.poolIndex)
    (hlegs : ∀ leg ∈ legs, leg.2 < graph.tokenCount) :
    (legs.foldl (pushExitEdge pool hubNode) graph).Sound := by
  induction legs generalizing graph with
  | nil => exact h
  | cons leg legs ih =>
      have hleg := hlegs leg List.mem_cons_self
      refine ih (h.push hhub.2 (fun hlt => absurd hhub.1 (not_le.mpr hlt))
        (fun _ => ⟨rfl, rfl, hleg, hpool⟩) fun hphase => nomatch hphase) hhub hpool fun leg' hleg' =>
        hlegs leg' (List.mem_cons_of_mem _ hleg')

end GraphStore

/-- A pool row the arena handed out: its tokens are registered. -/
structure Registered (arena : StateArena) (pool : PoolMeta) : Prop where
  tables : arena.inner.TablesOk
  tokens : ∀ token ∈ pool.tokens, token < arena.tokenCount

lemma Registered.routingTokenAtLeg_lt {arena : StateArena} {pool : PoolMeta} {state : PoolState} {leg : ℕ}
    {token : TokenIndex} (h : Registered arena pool)
    (htoken : routingTokenAtLeg arena state pool leg = some token) : token < arena.tokenCount := by
  rw [routingTokenAtLeg] at htoken
  split at htoken
  · rcases Option.bind_eq_some_iff.mp htoken with ⟨address, -, hindex⟩
    exact h.tables.token.lt_length hindex
  · exact h.tokens token (List.mem_of_getElem? htoken)

namespace GraphStore

variable {graph : GraphStore} {arena : StateArena} {pool : PoolMeta} {state : PoolState}

lemma Sound.hubSpoke (h : graph.Sound) (hreg : Registered arena pool)
    (hroom : arena.tokenCount ≤ graph.tokenCount) : (attachHubSpokePool graph arena pool state).Sound := by
  have hlegs : ∀ leg ∈ fundedLegs arena pool state, leg.2 < graph.tokenCount := by
    intro leg hleg
    rcases List.mem_filterMap.mp hleg with ⟨i, -, hi⟩
    rcases Option.map_eq_some_iff.mp hi with ⟨token, htoken, rfl⟩
    exact (hreg.routingTokenAtLeg_lt htoken).trans_le hroom
  rw [attachHubSpokePool]
  dsimp only
  split_ifs with hfew hv4
  · exact h
  · rw [ensureV4SingletonHub]
    cases hnode : graph.v4SingletonHub with
    | some node => exact (h.foldl_pushEnterEdge pool (h.laidOut.v4 node hnode) hlegs).1
    | none =>
        have hpushed := h.withHub ⟨0, .uniswapV4, []⟩
        have hrange := hubRange_pushHub graph ⟨0, .uniswapV4, []⟩
        have hsound : { pushHub graph ⟨0, .uniswapV4, []⟩ with
            v4SingletonHub := some graph.hubEnd : GraphStore }.Sound := by
          refine ⟨hpushed.indexed, ⟨hpushed.laidOut.nodes, fun node hnode p hp => ?_,
            fun node hnode p hp => ?_, fun node heq => ?_⟩, hpushed.single⟩
          · have hleg := hpushed.laidOut.token node hnode p hp
            exact ⟨hleg.tokenIn, hleg.tokenOut, hleg.target⟩
          · have hleg := hpushed.laidOut.hub node hnode p hp
            exact ⟨hleg.phase, hleg.target, hleg.tokenOut, hleg.pool⟩
          · cases heq
            exact hrange
        exact (hsound.foldl_pushEnterEdge pool hrange hlegs).1
  · rw [ensurePerPoolHub]
    set hub : VirtualPoolHub :=
      ⟨pool.poolIndex, pool.protocol, (fundedLegs arena pool state).map Prod.fst⟩ with hhub
    have hrange := hubRange_pushHub graph hub
    rcases (h.withHub hub).foldl_pushEnterEdge pool hrange hlegs with ⟨hsound, htokens, hhubs⟩
    have hend : ((fundedLegs arena pool state).foldl (pushEnterEdge pool graph.hubEnd)
        (pushHub graph hub)).hubEnd = (pushHub graph hub).hubEnd := congrArg₂ (· + ·) htokens
          (congrArg List.length hhubs)
    refine hsound.foldl_pushExitEdge ?_ ?_ fun leg hleg => htokens ▸ hlegs leg hleg
    · rw [htokens, hend]
      exact hrange
    · rw [htokens, hhubs]
      show Option.map _ ((graph.virtualHubs ++ [hub])[graph.hubEnd - graph.tokenCount]?) = _
      rw [hubEnd, Nat.add_sub_cancel_left, List.getElem?_append_right le_rfl, Nat.sub_self]
      rfl

lemma Without.notMem_directPools {pool : PoolIndex} (h : graph.Without pool) (node : ℕ) :
    pool ∉ graph.directPools node := by
  intro hmem
  rcases List.mem_map.mp hmem with ⟨p, hp, hpool⟩
  exact h node p (List.mem_filter.mp hp).1 hpool

lemma Sound.direct (h : graph.Sound) {edge : Edge} (hin : edge.tokenIn < graph.tokenCount)
    (hout : edge.tokenOut < graph.tokenCount) (hsingle : edge.poolIndex ∉ graph.directPools edge.tokenIn) :
    (pushDirectEdge arena graph edge).Sound :=
  h.push (lt_of_lt_of_le hin (Nat.le_add_right _ _)) (fun _ => ⟨rfl, hout, .inl ⟨rfl, rfl⟩⟩)
    (fun hge => absurd hin (not_lt.mpr hge)) fun _ => hsingle

/-- The two edges of a pair leave different tokens. -/
lemma Sound.pair (h : graph.Sound) {poolIndex : PoolIndex} {protocol : ProtocolType}
    {token0 token1 : TokenIndex} {feeBps : ℕ} (hwithout : graph.Without poolIndex)
    (h0 : token0 < graph.tokenCount) (h1 : token1 < graph.tokenCount) (hne : token0 ≠ token1) :
    ((edgesForPair poolIndex protocol token0 token1 feeBps state).foldl (pushDirectEdge arena)
      graph).Sound := by
  have hsingle := hwithout.notMem_directPools
  rw [edgesForPair]
  by_cases hforth : state.hopPairRoutable 0 1 = true
  · rw [if_pos hforth]
    have hfirst : (pushDirectEdge arena graph ⟨poolIndex, token0, token1, 0, 1, protocol, feeBps,
        pairZeroForOne 0⟩).Sound := h.direct h0 h1 (hsingle token0)
    split_ifs
    · refine hfirst.direct h1 h0 ?_
      show poolIndex ∉ (graph.pushEdgeAt token0 _).directPools token1
      rw [directPools, placesAt_pushEdgeAt, if_neg hne.symm]
      exact hsingle token1
    · exact hfirst
  · rw [if_neg hforth, List.nil_append]
    split_ifs
    · exact h.direct h1 h0 (hsingle token1)
    · exact h

lemma Sound.without_grow {pool : PoolIndex} (h : graph.Sound) (hwithout : graph.Without pool)
    (tokenCount : ℕ) : (graph.ensureTokenCapacity tokenCount).Without pool := by
  have hgrown := h.laidOut.grown tokenCount
  intro node p hp
  by_cases hold : ∃ old, graph.movedNode tokenCount old = node
  · rcases hold with ⟨old, rfl⟩
    rw [placesAt, hgrown.edges, List.map_map] at hp
    rcases List.mem_map.mp hp with ⟨ge, hge, rfl⟩
    exact hwithout old ge.place (List.mem_map.mpr ⟨ge, hge, rfl⟩)
  · rw [placesAt, hgrown.fresh node fun old heq => hold ⟨old, heq⟩] at hp
    cases hp

lemma Sound.attachEdges {graph' : GraphStore} (h : graph.Sound) (hreg : Registered arena pool)
    (hroom : arena.tokenCount ≤ graph.tokenCount) (hwithout : graph.Without pool.poolIndex)
    (hattach : attachEdges graph arena pool state = some graph') : graph'.Sound := by
  rw [PolygonArb.attachEdges] at hattach
  by_cases hspoke : usesHubSpoke pool = true
  · rw [if_pos hspoke] at hattach
    cases hattach
    exact h.hubSpoke hreg hroom
  · rw [if_neg hspoke] at hattach
    by_cases hpair : pool.tokens.length = 2
    swap
    · rw [if_neg hpair] at hattach
      cases hattach
    rw [if_pos hpair] at hattach
    simp only [Option.bind_eq_bind, Option.bind_eq_some_iff] at hattach
    rcases hattach with ⟨token0, h0, token1, h1, hattach⟩
    by_cases hne : token0 = token1
    · rw [if_pos hne] at hattach
      cases hattach
    rw [if_neg hne] at hattach
    cases hattach
    exact h.pair hwithout ((hreg.routingTokenAtLeg_lt h0).trans_le hroom)
      ((hreg.routingTokenAtLeg_lt h1).trans_le hroom) hne

lemma Sound.attachAbsent (h : graph.Sound) (gate : AttachGate) (hreg : Registered arena pool)
    (hwithout : graph.Without pool.poolIndex) : (attachAbsentPool gate graph arena pool).2.Sound := by
  rw [attachAbsentPool]
  cases (arena.poolState pool.poolIndex).filter PoolState.isTradable with
  | none => exact h
  | some state =>
      dsimp only
      split_ifs
      · exact h
      · have hgrown := h.grow arena.tokenCount
        have hroom : arena.tokenCount ≤ (graph.ensureTokenCapacity arena.tokenCount).tokenCount := by
          rw [(h.laidOut.grown arena.tokenCount).tokens]
          exact le_max_right _ _
        cases hattach : PolygonArb.attachEdges (graph.ensureTokenCapacity arena.tokenCount) arena pool
          state with
        | none => exact hgrown
        | some attached => exact hgrown.attachEdges hreg hroom (h.without_grow hwithout _) hattach

lemma Sound.attachPool (h : graph.Sound) (gate : AttachGate) (hreg : Registered arena pool) :
    (attachPoolToGraph gate graph arena pool).2.Sound := by
  rw [attachPoolToGraph]
  split_ifs with hlive hmatch hstubs
  · exact h
  · exact (h.removePool _).1.attachAbsent gate hreg (h.removePool _).2.1
  · exact h
  · exact h.attachAbsent gate hreg
      ((without_iff h.indexed).mpr (poolHasEdges_iff.mp (Bool.eq_false_of_not_eq_true hstubs)))

lemma Sound.tryAttach (h : graph.Sound) (gate : AttachGate) (attached : List PoolIndex)
    (hreg : Registered arena pool) :
    (tryAttachMissingPool gate arena (graph, attached) pool).1.Sound := by
  rw [tryAttachMissingPool]
  dsimp only
  split_ifs
  · exact h
  · exact h
  · exact h
  · exact (h.removePool _).1.attachPool gate hreg
  · exact (h.removePool _).1.attachPool gate hreg
  · exact h.attachPool gate hreg
  · exact h.attachPool gate hreg

/-- Every pool of the batch. -/
lemma Sound.foldl_tryAttach (gate : AttachGate) {pools : List PoolMeta}
    (hreg : ∀ pool ∈ pools, Registered arena pool) {batch : GraphStore × List PoolIndex}
    (h : batch.1.Sound) : (pools.foldl (tryAttachMissingPool gate arena) batch).1.Sound := by
  induction pools generalizing batch with
  | nil => exact h
  | cons pool pools ih =>
      exact ih (fun p hp => hreg p (List.mem_cons_of_mem _ hp))
        (h.tryAttach gate batch.2 (hreg pool List.mem_cons_self))

lemma Sound.attachMissing {order : RoutingGraph → List Incidence} {graph' : GraphStore} {pools : List PoolMeta}
    (h : graph.Sound) (gate : AttachGate) (hreg : ∀ pool ∈ pools, Registered arena pool)
    (hstep : attachMissingEligiblePools order gate arena graph pools = some graph') : graph'.Sound := by
  have hbatch : (attachMissingBatch gate arena graph pools).1.Sound := by
    have hpass : ∀ {batch : GraphStore × List PoolIndex} (preferHub : Bool), batch.1.Sound →
        ((pools.filter fun pool => poolTouchesHub gate arena pool = preferHub).foldl
          (tryAttachMissingPool gate arena) batch).1.Sound :=
      fun preferHub hb => Sound.foldl_tryAttach gate
        (fun pool hpool => hreg pool (List.mem_filter.mp hpool).1) hb
    exact hpass false (hpass true (h.grow arena.tokenCount))
  rw [attachMissingEligiblePools] at hstep
  dsimp only at hstep
  split_ifs at hstep
  · cases hstep
    exact hbatch
  · rcases Option.map_eq_some_iff.mp hstep with ⟨rescored, hrescored, rfl⟩
    exact (hbatch.rescorePools hrescored).withCaches _ _

end GraphStore

/-! ## Runs -/

/-- What the pipeline does to the graph it keeps. -/
inductive GraphOp
  | attachPool (arena : StateArena) (pool : PoolMeta)
  | attachMissing (arena : StateArena) (pools : List PoolMeta)
  | growTokens (tokenCount : ℕ)
  | removePool (pool : PoolIndex)
  | rescoreGraph (arena : StateArena)
  | rescorePools (arena : StateArena) (pools : List PoolIndex)
  | refreshCoverage

/-- Pool rows come from the arena they are attached with. -/
def GraphOp.Registered : GraphOp → Prop
  | .attachPool arena pool => PolygonArb.Registered arena pool
  | .attachMissing arena pools => ∀ pool ∈ pools, PolygonArb.Registered arena pool
  | _ => True

/-- One operation; `none` when pricing an edge panics. -/
def graphStep (order : RoutingGraph → List Incidence) (gate : AttachGate) (graph : GraphStore) :
    GraphOp → Option GraphStore
  | .attachPool arena pool => some (attachPoolToGraph gate graph arena pool).2
  | .attachMissing arena pools => attachMissingEligiblePools order gate arena graph pools
  | .growTokens tokenCount => some (graph.ensureTokenCapacity tokenCount)
  | .removePool pool => some (removePoolEdgesFromGraph graph pool)
  | .rescoreGraph arena => rescoreGraphInPlace order arena graph
  | .rescorePools arena pools => rescorePoolsInPlace order arena graph pools
  | .refreshCoverage => some (refreshGraphCycleCoverage order graph)

/-- The graph a build starts from. -/
def IsNewGraph (graph : GraphStore) : Prop := ∃ tokenCount, graph = GraphStore.new tokenCount

/-- The states of the graph: whatever the operations, in whatever order. -/
def GraphReachable (order : RoutingGraph → List Incidence) (gate : AttachGate) : GraphStore → Prop :=
  Reachable (graphStep order gate) (fun _ op => op.Registered) IsNewGraph

section Run

variable {order : RoutingGraph → List Incidence} {gate : AttachGate} {graph graph' : GraphStore}
  {op : GraphOp}

theorem GraphStore.Sound.step (h : graph.Sound) (hop : op.Registered)
    (hstep : graphStep order gate graph op = some graph') : graph'.Sound := by
  cases op with
  | attachPool arena pool =>
      cases hstep
      exact h.attachPool gate hop
  | attachMissing arena pools => exact h.attachMissing gate hop hstep
  | growTokens tokenCount =>
      cases hstep
      exact h.grow tokenCount
  | removePool pool =>
      cases hstep
      exact (h.removePool pool).1
  | rescoreGraph arena => exact h.rescoreGraph hstep
  | rescorePools arena pools => exact h.rescorePools hstep
  | refreshCoverage =>
      cases hstep
      exact h.withCaches _ _

theorem GraphReachable.sound (h : GraphReachable order gate graph) : graph.Sound := by
  refine Reachable.inv GraphStore.Sound ?_ (fun _ _ _ hsound hop hstep => hsound.step hop hstep) h
  rintro _ ⟨tokenCount, rfl⟩
  exact GraphStore.sound_new tokenCount

/-- Whatever the operations did, the reverse index lists every edge once and under its pool, tokens come
before hubs, and growth moves the hubs with every reference to them. -/
theorem graph_shape_kept (h : GraphReachable order gate graph) :
    graph.Indexed ∧ graph.LaidOut ∧
      ∀ tokenCount, graph.Grown (graph.ensureTokenCapacity tokenCount) tokenCount :=
  ⟨h.sound.indexed, h.sound.laidOut, h.sound.laidOut.grown⟩

end Run

/-! ### A pair of tokens -/

/-- An arena with tokens and pools. -/
def poolArena (tokens addresses : List Address) (states : List PoolState) : StateArena where
  inner := { (tokenArena tokens).inner with
    pools := states.map PoolArc.new
    poolAddresses := addresses
    addressToPool := fun a => addresses.findIdx? (· = a) }
  hotOverlay := []
  hotRevisions := []

lemma tablesOk_poolArena {tokens addresses : List Address} {states : List PoolState}
    (htokens : tokens.Nodup) (haddresses : addresses.Nodup) (hlen : states.length = addresses.length) :
    (poolArena tokens addresses states).inner.TablesOk where
  decimals := List.length_map _
  pools := (List.length_map _).trans hlen
  token := IndexTable.inverseIndex_findIdx? htokens
  pool := IndexTable.inverseIndex_findIdx? haddresses

/-- A Uniswap V2 pool with the usual fee. -/
def pairPool (reserve0 reserve1 : Word.U256) : PoolState := .v2 ⟨reserve0, reserve1, 997, 1000, 0⟩

def openGate : AttachGate := ⟨fun _ _ => true, fun _ _ => true, fun _ => false⟩

lemma registered_pair {addresses : List Address} {states : List PoolState} (haddresses : addresses.Nodup)
    (hlen : states.length = addresses.length) (index : PoolIndex) :
    Registered (poolArena [1, 2] addresses states) (pairMeta index 0 1) where
  tables := tablesOk_poolArena (by decide) haddresses hlen
  tokens := by
    show ∀ token ∈ [0, 1], token < 2
    decide

/-- The arena of one balanced pair. -/
def onePairArena : StateArena :=
  poolArena [1, 2] [9] [pairPool 1000000000000000000000 1000000000000000000000]

/-- A graph without nodes that a pair is attached to. -/
def onePairGraph : GraphStore :=
  (attachPoolToGraph openGate (.new 0) onePairArena (pairMeta 0 0 1)).2

theorem graph_shape_kept_onePair :
    onePairGraph.poolEdgePositions = [[(0, 0), (1, 0)]] ∧ onePairGraph.Indexed ∧
      onePairGraph.Grown (onePairGraph.ensureTokenCapacity 5) 5 := by
  have hop : GraphOp.Registered (.attachPool onePairArena (pairMeta 0 0 1)) :=
    registered_pair (by decide) rfl 0
  have hreach : GraphReachable metOrder openGate onePairGraph := .step (.init ⟨0, rfl⟩) hop rfl
  exact ⟨by decide, (graph_shape_kept hreach).1, (graph_shape_kept hreach).2.2 5⟩

end PolygonArb

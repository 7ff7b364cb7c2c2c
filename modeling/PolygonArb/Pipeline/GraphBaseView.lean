import PolygonArb.Pipeline.GraphStore

/-!
# Graph aggregates

`pipeline/graph_base_view.rs`: counts of live and dead edges for every node, of live edges for every
pool, and their totals.  `build` counts the whole graph.  `patch` is told which nodes and pools changed;
it recounts those and corrects the totals, with subtractions that stop at zero.

The totals are right after any sequence of corrections because each of them keeps `Tallied`, whatever it
writes.  What is left is that the slots a patch does not write still hold (`Confined`).
-/

namespace PolygonArb

open ReverseIndex Slots

namespace GraphBaseView

/-! ## Counting -/

def nodeAggregate (graph : GraphStore) (node : ℕ) : GraphNodeAggregate where
  liveDirectEdges := (graph.edgesAt node).countP fun ge => ge.phase = .direct && isLiveGraphEdge ge
  deadDirectEdges := (graph.edgesAt node).countP fun ge => ge.phase = .direct && !isLiveGraphEdge ge
  hubLegEdges := (graph.edgesAt node).countP fun ge =>
    ge.phase ≠ .direct && decide (node < graph.tokenCount) && isLiveGraphEdge ge

def addNodeAggregate (index : GraphAggregateIndex) (aggregate : GraphNodeAggregate) :
    GraphAggregateIndex :=
  { index with
    liveDirectEdges := index.liveDirectEdges + aggregate.liveDirectEdges
    deadDirectEdges := index.deadDirectEdges + aggregate.deadDirectEdges
    hubLegEdges := index.hubLegEdges + aggregate.hubLegEdges }

/-- Each difference stops at zero. -/
def subtractNodeAggregate (index : GraphAggregateIndex) (aggregate : GraphNodeAggregate) :
    GraphAggregateIndex :=
  { index with
    liveDirectEdges := index.liveDirectEdges - aggregate.liveDirectEdges
    deadDirectEdges := index.deadDirectEdges - aggregate.deadDirectEdges
    hubLegEdges := index.hubLegEdges - aggregate.hubLegEdges }

/-- One more live edge of a pool. -/
def countLiveEdge (counts : List ℕ) (ge : GraphEdge) : List ℕ :=
  if isLiveGraphEdge ge then
    setSlot 0 counts ge.edge.poolIndex (counts.getD ge.edge.poolIndex 0 + 1)
  else counts

def build (graph : GraphStore) : GraphBaseView :=
  let nodeAggregates := (List.range graph.adjacency.length).map (nodeAggregate graph)
  let counts := graph.adjacency.flatten.foldl countLiveEdge []
  { nodeAggregates
    poolLiveEdgeCounts := counts
    aggregateIndex :=
      { nodeAggregates.foldl addNodeAggregate ⟨0, 0, 0, 0⟩ with
        activePools := counts.countP fun count => 0 < count } }

/-! ## Patching -/

/-- The live edges of a pool, through the reverse index. -/
def liveEdgeCountForPool (graph : GraphStore) (pool : ℕ) : ℕ :=
  (graph.positionsOf pool).countP fun p => (graph.edgeAt p).any isLiveGraphEdge

def patchNode (graph : GraphStore) (view : GraphBaseView) (node : ℕ) : GraphBaseView :=
  if graph.adjacency.length ≤ node then view
  else
    let prior := view.nodeAggregates.getD node default
    let current := nodeAggregate graph node
    { view with
      nodeAggregates := view.nodeAggregates.set node current
      aggregateIndex := addNodeAggregate (subtractNodeAggregate view.aggregateIndex prior) current }

def patchPool (graph : GraphStore) (view : GraphBaseView) (pool : ℕ) : GraphBaseView :=
  let prior := view.poolLiveEdgeCounts.getD pool 0
  let current := liveEdgeCountForPool graph pool
  let active := view.aggregateIndex.activePools
  { view with
    poolLiveEdgeCounts := setSlot 0 view.poolLiveEdgeCounts pool current
    aggregateIndex :=
      { view.aggregateIndex with
        activePools :=
          if prior = 0 ∧ 0 < current then active + 1
          else if 0 < prior ∧ current = 0 then active - 1
          else active } }

def patch (view : GraphBaseView) (graph : GraphStore) (nodes pools : List ℕ) : GraphBaseView :=
  let view :=
    { view with nodeAggregates := resize default view.nodeAggregates graph.adjacency.length }
  let view := (sortDedup nodes).foldl (patchNode graph) view
  (sortDedup pools).foldl (patchPool graph) view

/-! ## The totals -/

/-- The totals are those of the tables. -/
structure Tallied (view : GraphBaseView) : Prop where
  live : view.aggregateIndex.liveDirectEdges =
    (view.nodeAggregates.map GraphNodeAggregate.liveDirectEdges).sum
  dead : view.aggregateIndex.deadDirectEdges =
    (view.nodeAggregates.map GraphNodeAggregate.deadDirectEdges).sum
  hub : view.aggregateIndex.hubLegEdges =
    (view.nodeAggregates.map GraphNodeAggregate.hubLegEdges).sum
  active : view.aggregateIndex.activePools = view.poolLiveEdgeCounts.countP fun count => 0 < count

/-- Two views say the same: the counts of the pools may differ in trailing zeros. -/
structure SameView (view view' : GraphBaseView) : Prop where
  nodes : view.nodeAggregates = view'.nodeAggregates
  counts : ∀ pool, view.poolLiveEdgeCounts.getD pool 0 = view'.poolLiveEdgeCounts.getD pool 0
  index : view.aggregateIndex = view'.aggregateIndex

variable {graph graph' : GraphStore} {view view' : GraphBaseView} {nodes pools : List ℕ}

/-- The pools with a live edge do not depend on the padding. -/
lemma activePools_eq {counts counts' : List ℕ} (h : ∀ pool, counts.getD pool 0 = counts'.getD pool 0) :
    (counts.countP fun count => 0 < count) = counts'.countP fun count => 0 < count := by
  rw [countP_eq_sum, countP_eq_sum]
  exact sum_map_eq_of_getD (f := fun count => (decide (0 < count)).toNat) rfl h

/-- Tables that say the same have the same totals. -/
lemma Tallied.sameView (h : Tallied view) (h' : Tallied view')
    (hnodes : view.nodeAggregates = view'.nodeAggregates)
    (hcounts : ∀ pool, view.poolLiveEdgeCounts.getD pool 0 = view'.poolLiveEdgeCounts.getD pool 0) :
    SameView view view' := by
  refine ⟨hnodes, hcounts, ?_⟩
  have hactive := activePools_eq hcounts
  rcases h with ⟨hlive, hdead, hhub, hpools⟩
  rcases h' with ⟨hlive', hdead', hhub', hpools'⟩
  rw [GraphAggregateIndex.mk.injEq]
  rw [hlive, hlive', hdead, hdead', hhub, hhub', hpools, hpools', hnodes, hactive]
  exact ⟨rfl, rfl, rfl, rfl⟩

lemma SameView.tallied (h : SameView view view') (h' : Tallied view') : Tallied view where
  live := by rw [h.index, h.nodes, h'.live]
  dead := by rw [h.index, h.nodes, h'.dead]
  hub := by rw [h.index, h.nodes, h'.hub]
  active := by rw [h.index, activePools_eq h.counts, h'.active]

/-- Adding up nodes one by one. -/
lemma foldl_addNodeAggregate (aggregates : List GraphNodeAggregate) (index : GraphAggregateIndex) :
    aggregates.foldl addNodeAggregate index =
      { liveDirectEdges :=
          index.liveDirectEdges + (aggregates.map GraphNodeAggregate.liveDirectEdges).sum
        deadDirectEdges :=
          index.deadDirectEdges + (aggregates.map GraphNodeAggregate.deadDirectEdges).sum
        hubLegEdges := index.hubLegEdges + (aggregates.map GraphNodeAggregate.hubLegEdges).sum
        activePools := index.activePools } := by
  induction aggregates generalizing index with
  | nil => rfl
  | cons aggregate aggregates ih =>
      rw [List.foldl_cons, ih]
      simp only [addNodeAggregate, List.map_cons, List.sum_cons, Nat.add_assoc]

lemma tallied_build (graph : GraphStore) : Tallied (build graph) := by
  constructor <;> simp [build, foldl_addNodeAggregate]

lemma Tallied.resize (h : Tallied view) {n : ℕ} (hn : view.nodeAggregates.length ≤ n) :
    Tallied { view with nodeAggregates := resize default view.nodeAggregates n } := by
  have hsum : ∀ f : GraphNodeAggregate → ℕ, f default = 0 →
      ((Slots.resize default view.nodeAggregates n).map f).sum = (view.nodeAggregates.map f).sum := by
    intro f hf
    rw [resize_of_length_le hn, sum_map_append_replicate hf]
  exact ⟨h.live.trans (hsum _ rfl).symm, h.dead.trans (hsum _ rfl).symm, h.hub.trans (hsum _ rfl).symm,
    h.active⟩

/-- The saturating subtraction is exact: what it takes away is part of the total. -/
lemma Tallied.patchNode (h : Tallied view) {node : ℕ}
    (hlen : view.nodeAggregates.length = graph.adjacency.length) :
    Tallied (patchNode graph view node) := by
  rw [GraphBaseView.patchNode]
  split_ifs with hnode
  · exact h
  have hlt : node < view.nodeAggregates.length := by omega
  have hset : ∀ f : GraphNodeAggregate → ℕ, ((view.nodeAggregates.set node
      (nodeAggregate graph node)).map f).sum =
      (view.nodeAggregates.map f).sum - f (view.nodeAggregates.getD node default) +
        f (nodeAggregate graph node) := by
    intro f
    have hsum := sum_map_set (f := f) (d := default) (nodeAggregate graph node) hlt
    have hle : f (view.nodeAggregates.getD node default) ≤ (view.nodeAggregates.map f).sum := by
      have hmem : view.nodeAggregates.getD node default ∈ view.nodeAggregates := by
        rw [List.getD_eq_getElem _ _ hlt]
        exact List.getElem_mem hlt
      exact List.single_le_sum (fun _ _ => Nat.zero_le _) _ (List.mem_map_of_mem hmem)
    omega
  constructor
  · simp only [addNodeAggregate, subtractNodeAggregate, hset, h.live]
  · simp only [addNodeAggregate, subtractNodeAggregate, hset, h.dead]
  · simp only [addNodeAggregate, subtractNodeAggregate, hset, h.hub]
  · exact h.active

/-- `activePools` moves when a pool crosses zero. -/
lemma Tallied.patchPool (h : Tallied view) (pool : ℕ) : Tallied (patchPool graph view pool) := by
  refine ⟨h.live, h.dead, h.hub, ?_⟩
  have hset := sum_map_setSlot (d := 0) (f := fun count : ℕ => (decide (0 < count)).toNat) rfl
    view.poolLiveEdgeCounts pool (liveEdgeCountForPool graph pool)
  have hactive := h.active
  rw [countP_eq_sum] at hactive
  simp only [GraphBaseView.patchPool]
  rw [countP_eq_sum]
  generalize view.poolLiveEdgeCounts.getD pool 0 = prior at hset ⊢
  generalize liveEdgeCountForPool graph pool = current at hset ⊢
  have hbit : ∀ count : ℕ, (decide (0 < count)).toNat = if 0 < count then 1 else 0 := by
    intro count
    by_cases hcount : 0 < count <;> simp [hcount]
  simp only [hbit] at hset hactive ⊢
  split_ifs at hset ⊢ <;> omega

/-! ## The slots -/

lemma nodeAggregate_of_length_le {node : ℕ} (h : graph.adjacency.length ≤ node) :
    nodeAggregate graph node = default := by
  rw [nodeAggregate, GraphStore.edgesAt, row_of_length_le h]
  rfl

lemma getD_nodeAggregates_patchNode (hlen : view.nodeAggregates.length = graph.adjacency.length)
    (node i : ℕ) :
    (patchNode graph view node).nodeAggregates.getD i default =
      if i = node then nodeAggregate graph i else view.nodeAggregates.getD i default := by
  rw [patchNode]
  split_ifs with hout hi hi
  · rw [hi, nodeAggregate_of_length_le hout, List.getD_eq_default _ _ (hlen ▸ hout)]
  · rfl
  · rw [getD_set (by omega), if_pos hi, hi]
  · rw [getD_set (by omega), if_neg hi]

lemma length_nodeAggregates_patchNode (node : ℕ) :
    (patchNode graph view node).nodeAggregates.length = view.nodeAggregates.length := by
  rw [patchNode]
  split_ifs
  · rfl
  · exact List.length_set

/-- After the nodes of a list: they are recounted, the others are left. -/
lemma foldl_patchNode (h : Tallied view)
    (hlen : view.nodeAggregates.length = graph.adjacency.length) (nodes : List ℕ) :
    Tallied (nodes.foldl (patchNode graph) view) ∧
      (nodes.foldl (patchNode graph) view).nodeAggregates.length = graph.adjacency.length ∧
      (nodes.foldl (patchNode graph) view).poolLiveEdgeCounts = view.poolLiveEdgeCounts ∧
      ∀ i, (nodes.foldl (patchNode graph) view).nodeAggregates.getD i default =
        if i ∈ nodes then nodeAggregate graph i else view.nodeAggregates.getD i default := by
  induction nodes generalizing view with
  | nil => exact ⟨h, hlen, rfl, fun i => by simp⟩
  | cons node nodes ih =>
      have hpatched : Tallied (patchNode graph view node) := h.patchNode hlen
      rcases ih hpatched ((length_nodeAggregates_patchNode node).trans hlen) with
        ⟨htally, hlength, hcounts, hslots⟩
      have hkeep : (patchNode graph view node).poolLiveEdgeCounts = view.poolLiveEdgeCounts := by
        rw [patchNode]
        split_ifs <;> rfl
      refine ⟨htally, hlength, hcounts.trans hkeep, fun i => ?_⟩
      rw [List.foldl_cons, hslots, getD_nodeAggregates_patchNode hlen]
      by_cases hi : i = node <;> simp [hi]

variable (graph) in
lemma foldl_patchPool (h : Tallied view) (pools : List ℕ) :
    Tallied (pools.foldl (patchPool graph) view) ∧
      (pools.foldl (patchPool graph) view).nodeAggregates = view.nodeAggregates ∧
      ∀ pool, (pools.foldl (patchPool graph) view).poolLiveEdgeCounts.getD pool 0 =
        if pool ∈ pools then liveEdgeCountForPool graph pool
        else view.poolLiveEdgeCounts.getD pool 0 := by
  induction pools generalizing view with
  | nil => exact ⟨h, rfl, fun pool => by simp⟩
  | cons pool pools ih =>
      have hpatched : Tallied (patchPool graph view pool) := h.patchPool pool
      rcases ih hpatched with ⟨htally, hnodes, hslots⟩
      refine ⟨htally, hnodes, fun p => ?_⟩
      have hwritten : (patchPool graph view pool).poolLiveEdgeCounts.getD p 0 =
          if p = pool then liveEdgeCountForPool graph p else view.poolLiveEdgeCounts.getD p 0 := by
        simp only [patchPool, getD_setSlot]
        split_ifs with hp
        · rw [hp]
        · rfl
      rw [List.foldl_cons, hslots, hwritten]
      by_cases hp : p = pool <;> simp [hp]

/-- The live edges of a pool. -/
def liveEdges (graph : GraphStore) (pool : ℕ) : ℕ :=
  graph.adjacency.flatten.countP fun ge => decide (edgePool ge = pool) && isLiveGraphEdge ge

/-- The reverse index counts what is in the rows. -/
lemma liveEdgeCountForPool_eq (h : graph.Indexed) (pool : ℕ) :
    liveEdgeCountForPool graph pool = liveEdges graph pool :=
  (h pool).countP

lemma getD_build_counts (graph : GraphStore) (pool : ℕ) :
    (build graph).poolLiveEdgeCounts.getD pool 0 = liveEdges graph pool := by
  have hfold : ∀ (edges : List GraphEdge) (counts : List ℕ),
      (edges.foldl countLiveEdge counts).getD pool 0 = counts.getD pool 0 +
        edges.countP fun ge => decide (edgePool ge = pool) && isLiveGraphEdge ge := by
    intro edges
    induction edges with
    | nil => intro counts; rfl
    | cons ge edges ih =>
        intro counts
        rw [List.foldl_cons, ih, List.countP_cons, countLiveEdge]
        by_cases hlive : isLiveGraphEdge ge = true
        · rw [if_pos hlive, getD_setSlot]
          by_cases hpool : pool = ge.edge.poolIndex
          · subst hpool
            simp only [edgePool, hlive, if_true, decide_true, Bool.and_self]
            omega
          · have hne : edgePool ge ≠ pool := Ne.symm hpool
            simp [hpool, hne]
        · simp [hlive]
  exact (hfold graph.adjacency.flatten []).trans (Nat.zero_add _)

lemma getD_build_nodeAggregates (graph : GraphStore) (node : ℕ) :
    (build graph).nodeAggregates.getD node default = nodeAggregate graph node := by
  by_cases hnode : node < graph.adjacency.length
  · simp [build, List.getD_eq_getElem?_getD, hnode]
  · rw [nodeAggregate_of_length_le (not_lt.mp hnode)]
    exact List.getD_eq_default _ _ (by simpa [build] using not_lt.mp hnode)

/-! ## Patching is rebuilding -/

/-- A change of edges at some nodes and of some pools.  An edge that only moves in its row is not
changed, and no node leaves the table. -/
structure Confined (nodes pools : List ℕ) (graph graph' : GraphStore) : Prop where
  tokens : graph'.tokenCount = graph.tokenCount
  grows : graph.adjacency.length ≤ graph'.adjacency.length
  outside_nodes : ∀ node ∉ nodes, (graph'.edgesAt node).Perm (graph.edgesAt node)
  outside_pools : ∀ node, ∀ pool ∉ pools,
    ((graph'.edgesAt node).filter fun ge => edgePool ge = pool).Perm
      ((graph.edgesAt node).filter fun ge => edgePool ge = pool)

namespace Confined

variable (h : Confined nodes pools graph graph')
include h

lemma nodeAggregate_eq {node : ℕ} (hnode : node ∉ nodes) :
    nodeAggregate graph' node = nodeAggregate graph node := by
  have hperm := h.outside_nodes node hnode
  simp only [nodeAggregate, hperm.countP_eq, h.tokens]

lemma liveEdges_eq {pool : ℕ} (hpool : pool ∉ pools) : liveEdges graph' pool = liveEdges graph pool := by
  rw [liveEdges, liveEdges, countP_flatten_eq_sum le_rfl, countP_flatten_eq_sum h.grows]
  refine congrArg List.sum (List.map_congr_left fun node _ => ?_)
  have hperm := (h.outside_pools node pool hpool).countP_eq isLiveGraphEdge
  simp only [List.countP_filter, GraphStore.edgesAt] at hperm
  simpa only [Bool.and_comm] using hperm

end Confined

/-- One patch. -/
lemma SameView.patch (h : SameView view (build graph)) (hchange : Confined nodes pools graph graph')
    (hindex : graph'.Indexed) : SameView (view.patch graph' nodes pools) (build graph') := by
  have htally := h.tallied (tallied_build graph)
  have hlength : view.nodeAggregates.length = graph.adjacency.length := by
    rw [h.nodes]
    simp [build]
  have hle : view.nodeAggregates.length ≤ graph'.adjacency.length := hlength.trans_le hchange.grows
  have hresized : (resize default view.nodeAggregates graph'.adjacency.length).length =
      graph'.adjacency.length := by
    rw [resize_of_length_le hle, List.length_append, List.length_replicate]
    omega
  rcases foldl_patchNode (htally.resize hle) hresized (sortDedup nodes) with
    ⟨htallyNodes, hlenNodes, hkeep, hnodes⟩
  rcases foldl_patchPool graph' htallyNodes (sortDedup pools) with
    ⟨htallyPools, hkeepNodes, hpools⟩
  refine htallyPools.sameView (tallied_build graph') ?_ fun pool => ?_
  · -- the recounted nodes, and the others as they were counted before
    rw [hkeepNodes]
    refine List.ext_getElem (hlenNodes.trans (by simp [build])) fun i hi hi' => ?_
    rw [← List.getD_eq_getElem _ default hi, ← List.getD_eq_getElem _ default hi', hnodes,
      getD_build_nodeAggregates]
    split_ifs with hmem
    · rfl
    · rw [mem_sortDedup] at hmem
      rw [resize_of_length_le hle, getD_append_replicate, h.nodes, getD_build_nodeAggregates,
        hchange.nodeAggregate_eq hmem]
  · rw [hpools, getD_build_counts]
    split_ifs with hmem
    · exact liveEdgeCountForPool_eq hindex pool
    · rw [mem_sortDedup] at hmem
      rw [hkeep, hchange.liveEdges_eq hmem, ← getD_build_counts]
      exact h.counts pool

/-- A view that was built once and patched at every change since. -/
inductive Maintained : GraphStore → GraphBaseView → Prop
  | built {graph : GraphStore} (hindex : graph.Indexed) : Maintained graph (build graph)
  | patched {graph graph' : GraphStore} {view : GraphBaseView} {nodes pools : List ℕ}
      (before : Maintained graph view) (hchange : Confined nodes pools graph graph')
      (hindex : graph'.Indexed) : Maintained graph' (view.patch graph' nodes pools)

/-- However many patches, the view is the one a rebuild would give. -/
theorem maintained_eq_rebuild (h : Maintained graph view) : SameView view (build graph) := by
  induction h with
  | built _ => exact ⟨rfl, fun _ => rfl, rfl⟩
  | patched _ hchange hindex ih => exact ih.patch hchange hindex

/-! A pool with one edge, live and then dead. -/

def oneEdge (ratio : ℕ) : GraphStore :=
  (GraphStore.new 2).pushEdgeAt 0
    { edge := { poolIndex := 0, tokenIn := 0, tokenOut := 1, tokenInIdx := 0, tokenOutIdx := 1,
                protocol := .uniswapV2, feeBps := 30, zeroForOne := true }
      phase := .direct
      targetNode := 1
      logWeight := 0
      ratio := ratio }

lemma confined_oneEdge : Confined [0] [0] (oneEdge 1) (oneEdge 0) where
  tokens := rfl
  grows := by decide
  outside_nodes node hnode := by
    rw [List.mem_singleton] at hnode
    rw [oneEdge, oneEdge, GraphStore.edgesAt_pushEdgeAt, GraphStore.edgesAt_pushEdgeAt, if_neg hnode,
      if_neg hnode]
  outside_pools node pool hpool := by
    rw [List.mem_singleton] at hpool
    have hother : ∀ ratio, (((oneEdge ratio).edgesAt node).filter fun ge => edgePool ge = pool) = [] := by
      intro ratio
      refine List.filter_eq_nil_iff.mpr fun ge hge => ?_
      rw [oneEdge, GraphStore.edgesAt_pushEdgeAt, GraphStore.edgesAt_new] at hge
      split_ifs at hge
      · rw [List.nil_append, List.mem_singleton] at hge
        rw [hge, edgePool, edge_pushed, decide_eq_true_eq]
        exact Ne.symm hpool
      · cases hge
    rw [hother, hother]

theorem maintained_eq_rebuild_oneEdge :
    ((build (oneEdge 1)).patch (oneEdge 0) [0] [0]).aggregateIndex = ⟨0, 1, 0, 0⟩ :=
  (maintained_eq_rebuild (.patched (.built ((GraphStore.indexed_new 2).pushEdgeAt _ _))
    confined_oneEdge ((GraphStore.indexed_new 2).pushEdgeAt _ _))).index.trans (by decide)

end GraphBaseView

end PolygonArb

import PolygonArb.Pipeline.Coverage

/-!
# The active graph

`prepare_active_graph` of `pipeline/cycle_finder.rs`: the live edges the search walks, the tokens it
starts from, and the bounds it prunes with.  Edges out of a token that is not in the coverage are
dropped.

`coverage_exact` collects what the coverage promises, up to `prepareActiveGraph` keeping every edge of
a closed route.  The graph may carry a coverage that was computed earlier, which a rescore that brings
an edge back to life does not renew; `prepareActiveGraph_drops_route` is what happens then.
-/

namespace PolygonArb

open Word

structure NodePrep where
  live : List GraphEdge
  protos : ℕ
  minOutgoing : Option Float
  maxOutgoingRatio : U256
  enterLegs : ℕ
  directLegs : ℕ

structure ActiveGraph where
  adjacency : List (List GraphEdge)
  startTokens : List TokenIndex
  hubHeavy : Bool
  minOutgoingWeight : List Float
  globalMinLiveEdgeWeight : Float
  maxOutgoingRatio : List U256
  globalMaxLiveEdgeRatio : U256
  firstHopPools : Option (List PoolIndex)

def ActiveGraph.edgesAt (active : ActiveGraph) (node : ℕ) : List GraphEdge :=
  (active.adjacency[node]?).getD []

def dfsMaxStartSources : ℕ := 32

/-- Edges in ascending weight; weights that do not compare count as equal. -/
def sortByLogWeight (edges : List GraphEdge) : List GraphEdge :=
  edges.mergeSort fun a b => !decide (b.logWeight < a.logWeight)

/-- A saturating sixteen-bit count. -/
def countLegs (edges : List GraphEdge) (phase : GraphHopPhase) : ℕ :=
  min (edges.countP fun ge => ge.phase = phase) (2 ^ 16 - 1)

def lowerWeight (best : Option Float) (weight : Float) : Option Float :=
  match best with
  | some b => if weight < b then some weight else some b
  | none => some weight

def raiseRatio (best ratio : U256) : U256 := if one18 ≤ ratio ∧ best < ratio then ratio else best

/-- The live edges of a node with its statistics, which only token nodes have. -/
def prepNode (graph : RoutingGraph) (coverage : CycleCapableCoverage) (index : ℕ) : NodePrep :=
  if index < graph.tokenCount ∧ coverage.isTokenCapable index = false then ⟨[], 0, none, one18, 0, 0⟩
  else
    let live := (graph.edgesAt index).filter isLiveGraphEdge
    if index < graph.tokenCount then
      let direct := live.filter fun ge => ge.phase = .direct
      { live := sortByLogWeight live
        protos := ((live.map fun ge => ge.edge.protocol).dedup).length
        minOutgoing := (direct.map GraphEdge.logWeight).foldl lowerWeight none
        maxOutgoingRatio := (direct.map GraphEdge.ratio).foldl raiseRatio one18
        enterLegs := countLegs live .enterPool
        directLegs := countLegs live .direct }
    else ⟨sortByLogWeight live, 0, none, one18, 0, 0⟩

/-- Most protocols first, then most edges, then the lower index. -/
def compareCycleStartSource (a b : TokenIndex × ℕ × ℕ) : Bool :=
  decide (b.2.1 < a.2.1) || decide (b.2.1 = a.2.1) &&
    (decide (b.2.2 < a.2.2) || decide (b.2.2 = a.2.2) && decide (a.1 ≤ b.1))

def selectCycleStartTokens (scored : List (TokenIndex × ℕ × ℕ)) : List TokenIndex :=
  ((scored.mergeSort compareCycleStartSource).take dfsMaxStartSources).map Prod.fst

/-- The coverage in use: the one the graph carries, or a new one. -/
def activeCoverage (graph : RoutingGraph) (incidences : List Incidence) : CycleCapableCoverage :=
  graph.coverage.getD (cycleCapableCoverage graph incidences)

/-- `incidences` is the order of the hash set, should the coverage be computed here. -/
def prepareActiveGraph (graph : RoutingGraph) (incidences : List Incidence) : ActiveGraph :=
  let perNode :=
    (List.range graph.adjacency.length).map (prepNode graph (activeCoverage graph incidences))
  let tokenNodes := perNode.take graph.tokenCount
  let globalMin := (tokenNodes.filterMap NodePrep.minOutgoing).foldl
    (fun best weight => if weight < best then weight else best) f64Infinity
  { adjacency := perNode.map NodePrep.live
    startTokens :=
      selectCycleStartTokens
        ((tokenNodes.zipIdx.filter fun node => node.1.live ≠ []).map fun node =>
          (node.2, node.1.protos, node.1.live.length))
    hubHeavy := (tokenNodes.map NodePrep.directLegs).sum < (tokenNodes.map NodePrep.enterLegs).sum
    minOutgoingWeight :=
      (List.range graph.tokenCount).map fun i =>
        ((tokenNodes[i]?).bind NodePrep.minOutgoing).getD f64Infinity
    globalMinLiveEdgeWeight := if globalMin == f64Infinity then 0.0 else globalMin
    maxOutgoingRatio :=
      (List.range graph.tokenCount).map fun i =>
        ((tokenNodes[i]?).map NodePrep.maxOutgoingRatio).getD one18
    globalMaxLiveEdgeRatio :=
      (tokenNodes.map NodePrep.maxOutgoingRatio).foldl
        (fun best ratio => if best < ratio then ratio else best) one18
    firstHopPools := none }

/-! ## What is kept -/

section Kept

variable {graph : RoutingGraph} {coverage : CycleCapableCoverage} {incidences : List Incidence}
  {ge : GraphEdge} {node : ℕ}

@[simp] lemma mem_sortByLogWeight (edges : List GraphEdge) :
    ge ∈ sortByLogWeight edges ↔ ge ∈ edges :=
  (List.mergeSort_perm edges _).mem_iff

/-- A node keeps its live edges, unless it is a token outside the coverage. -/
lemma mem_live_prepNode :
    ge ∈ (prepNode graph coverage node).live ↔
      ge ∈ graph.edgesAt node ∧ isLiveGraphEdge ge = true ∧
        (node < graph.tokenCount → coverage.isTokenCapable node = true) := by
  by_cases hdropped : node < graph.tokenCount ∧ coverage.isTokenCapable node = false
  · simp [prepNode, hdropped]
  · have hkept : node < graph.tokenCount → coverage.isTokenCapable node = true := by
      intro hnode
      by_contra hcapable
      exact hdropped ⟨hnode, Bool.eq_false_of_not_eq_true hcapable⟩
    rw [prepNode, if_neg hdropped, eq_true hkept, and_true]
    dsimp only
    split_ifs <;> simp [List.mem_filter]

lemma mem_edgesAt_prepareActiveGraph :
    ge ∈ (prepareActiveGraph graph incidences).edgesAt node ↔
      ge ∈ graph.edgesAt node ∧ isLiveGraphEdge ge = true ∧
        (node < graph.tokenCount →
          (activeCoverage graph incidences).isTokenCapable node = true) := by
  rw [← mem_live_prepNode]
  by_cases hnode : node < graph.adjacency.length
  · simp [ActiveGraph.edgesAt, prepareActiveGraph, hnode]
  · have hnone : graph.edgesAt node = [] := by
      simp [RoutingGraph.edgesAt, List.getElem?_eq_none (not_lt.mp hnode)]
    rw [mem_live_prepNode, hnone]
    simp [ActiveGraph.edgesAt, prepareActiveGraph, hnode]

end Kept

/-! ## Routes of the graph -/

/-- The hash set of the live incidences, in some order. -/
structure Enumerates (graph : RoutingGraph) (incidences : List Incidence) : Prop where
  nodup : incidences.Nodup
  mem_iff : ∀ e, e ∈ incidences ↔ e ∈ liveIncidences graph

/-- The order in which the incidences are met. -/
def metOrder (graph : RoutingGraph) : List Incidence := (liveIncidences graph).dedup

lemma enumerates_metOrder (graph : RoutingGraph) : Enumerates graph (metOrder graph) :=
  ⟨List.nodup_dedup _, fun _ => List.mem_dedup⟩

/-- The edges of one hop with the nodes they leave: one direct edge, or the way into a hub and out of
it. -/
inductive HopEdges (graph : RoutingGraph) (tokenIn pool tokenOut : ℕ) :
    List (ℕ × GraphEdge) → Prop
  | direct {ge : GraphEdge} (mem : ge ∈ graph.edgesAt tokenIn) (phase : ge.phase = .direct)
      (live : ge.ratio ≠ 0) (hpool : ge.edge.poolIndex = pool) (hin : ge.edge.tokenIn = tokenIn)
      (hout : ge.edge.tokenOut = tokenOut) : HopEdges graph tokenIn pool tokenOut [(tokenIn, ge)]
  | hub {enter leave : GraphEdge} (mem : enter ∈ graph.edgesAt tokenIn)
      (phase : enter.phase = .enterPool) (hpool : enter.edge.poolIndex = pool)
      (hin : enter.edge.tokenIn = tokenIn) (hnode : graph.tokenCount ≤ enter.targetNode)
      (mem_leave : leave ∈ graph.edgesAt enter.targetNode) (phase_leave : leave.phase = .exitPool)
      (hpool_leave : leave.edge.poolIndex = pool) (hout : leave.edge.tokenOut = tokenOut) :
      HopEdges graph tokenIn pool tokenOut [(tokenIn, enter), (enter.targetNode, leave)]

/-- A closed route of the graph with the edges it takes.  Its tokens and pools are in the tables, as
those of every edge that was pushed are. -/
structure GraphRoute (graph : RoutingGraph) {n : ℕ} (tokens pools : Fin (n + 2) → ℕ)
    (edges : Fin (n + 2) → List (ℕ × GraphEdge)) : Prop where
  tokens_inj : Function.Injective tokens
  pools_inj : Function.Injective pools
  tokens_lt : ∀ i, tokens i < graph.tokenCount
  pools_lt : ∀ i, pools i < graph.poolSlots
  hops : ∀ i, HopEdges graph (tokens i) (pools i) (tokens (i + 1)) (edges i)

section Routes

variable {graph : RoutingGraph} {incidences : List Incidence} {ge : GraphEdge} {node : ℕ}

lemma isLiveGraphEdge_direct (hphase : ge.phase = .direct) (hratio : ge.ratio ≠ 0) :
    isLiveGraphEdge ge = true := by
  simp only [isLiveGraphEdge, hphase]
  exact decide_eq_true hratio

lemma exists_of_mem_edgesAt (h : ge ∈ graph.edgesAt node) :
    ∃ edges, graph.adjacency[node]? = some edges ∧ ge ∈ edges := by
  rw [RoutingGraph.edgesAt] at h
  cases hget : graph.adjacency[node]? with
  | none =>
      rw [hget] at h
      cases h
  | some edges =>
      rw [hget] at h
      exact ⟨edges, rfl, h⟩

lemma mem_liveIncidences_of_token (hnode : node < graph.tokenCount) (hmem : ge ∈ graph.edgesAt node)
    {e : Incidence} (he : e ∈ tokenIncidences ge) : e ∈ liveIncidences graph := by
  rcases exists_of_mem_edgesAt hmem with ⟨edges, hget, hmem⟩
  have hedges : edges ∈ graph.adjacency.take graph.tokenCount := by
    refine List.mem_of_getElem? (i := node) ?_
    rw [List.getElem?_take_of_lt hnode, hget]
  rw [liveIncidences, List.mem_append]
  exact .inl (List.mem_flatMap.mpr ⟨ge, List.mem_flatten.mpr ⟨edges, hedges, hmem⟩, he⟩)

lemma mem_liveIncidences_of_hub (hnode : graph.tokenCount ≤ node) (hmem : ge ∈ graph.edgesAt node)
    {e : Incidence} (he : e ∈ hubIncidences ge) : e ∈ liveIncidences graph := by
  rcases exists_of_mem_edgesAt hmem with ⟨edges, hget, hmem⟩
  have hedges : edges ∈ graph.adjacency.drop graph.tokenCount := by
    refine List.mem_of_getElem? (i := node - graph.tokenCount) ?_
    rw [List.getElem?_drop, Nat.add_sub_cancel' hnode, hget]
  rw [liveIncidences, List.mem_append]
  exact .inr (List.mem_flatMap.mpr ⟨ge, List.mem_flatten.mpr ⟨edges, hedges, hmem⟩, he⟩)

/-- Both ends of a hop are incidences. -/
lemma HopEdges.mem_incidences {tokenIn pool tokenOut : ℕ} {edges : List (ℕ × GraphEdge)}
    (h : HopEdges graph tokenIn pool tokenOut edges) (hin : tokenIn < graph.tokenCount) :
    (pool, tokenIn) ∈ liveIncidences graph ∧ (pool, tokenOut) ∈ liveIncidences graph := by
  cases h with
  | direct hmem hphase hlive hpool htoken hout =>
      subst hpool hout
      refine ⟨mem_liveIncidences_of_token hin hmem ?_, mem_liveIncidences_of_token hin hmem ?_⟩
      · simp [tokenIncidences, isLiveGraphEdge_direct hphase hlive, hphase, htoken]
      · simp [tokenIncidences, isLiveGraphEdge_direct hphase hlive, hphase]
  | hub hmem hphase hpool htoken hnode hmem_leave hphase_leave hpool_leave hout =>
      subst hout
      refine ⟨mem_liveIncidences_of_token hin hmem ?_, mem_liveIncidences_of_hub hnode hmem_leave ?_⟩
      · simp [tokenIncidences, isLiveGraphEdge, hphase, htoken, hpool]
      · simp [hubIncidences, isLiveGraphEdge, hphase_leave, hpool_leave]

variable {n : ℕ} {tokens pools : Fin (n + 2) → ℕ} {edges : Fin (n + 2) → List (ℕ × GraphEdge)}

lemma GraphRoute.closedRoute (h : GraphRoute graph tokens pools edges)
    (henum : Enumerates graph incidences) :
    ClosedRoute (coverageEdges graph incidences) tokens pools where
  tokens_inj := h.tokens_inj
  pools_inj := h.pools_inj
  enters i := by
    simp [incidenceEdges, henum.mem_iff, h.pools_lt i, h.tokens_lt i,
      ((h.hops i).mem_incidences (h.tokens_lt i)).1]
  leaves i := by
    simp [incidenceEdges, henum.mem_iff, h.pools_lt i, h.tokens_lt (i + 1),
      ((h.hops i).mem_incidences (h.tokens_lt i)).2]

/-- The edges of a hop out of a capable token are kept. -/
lemma HopEdges.kept {tokenIn pool tokenOut : ℕ} {hop : List (ℕ × GraphEdge)}
    (h : HopEdges graph tokenIn pool tokenOut hop)
    (hcapable : (activeCoverage graph incidences).isTokenCapable tokenIn = true) :
    ∀ e ∈ hop, e.2 ∈ (prepareActiveGraph graph incidences).edgesAt e.1 := by
  cases h with
  | direct hmem hphase hlive _ _ _ =>
      simp only [List.mem_singleton, forall_eq, mem_edgesAt_prepareActiveGraph]
      exact ⟨hmem, isLiveGraphEdge_direct hphase hlive, fun _ => hcapable⟩
  | hub hmem hphase _ _ hnode hmem_leave hphase_leave _ _ =>
      simp only [List.mem_cons, List.not_mem_nil, or_false, forall_eq_or_imp, forall_eq,
        mem_edgesAt_prepareActiveGraph]
      refine ⟨⟨hmem, by simp [isLiveGraphEdge, hphase], fun _ => hcapable⟩, hmem_leave, ?_, ?_⟩
      · simp [isLiveGraphEdge, hphase_leave]
      · intro hlt
        omega

/-- The coverage the graph carries, if any, was computed from its present live edges. -/
def FreshCoverage (graph : RoutingGraph) : Prop :=
  ∀ coverage, graph.coverage = some coverage →
    ∃ incidences, Enumerates graph incidences ∧ coverage = cycleCapableCoverage graph incidences

lemma exists_activeCoverage_eq (henum : Enumerates graph incidences) (hfresh : FreshCoverage graph) :
    ∃ incidences', Enumerates graph incidences' ∧
      activeCoverage graph incidences = cycleCapableCoverage graph incidences' := by
  cases hcoverage : graph.coverage with
  | none => exact ⟨incidences, henum, by rw [activeCoverage, hcoverage]; rfl⟩
  | some coverage =>
      rcases hfresh coverage hcoverage with ⟨incidences', henum', rfl⟩
      exact ⟨incidences', henum', by rw [activeCoverage, hcoverage]; rfl⟩

/-- The coverage is exact: the flags are the bridges, its pools are those with two non-bridge
incidences, every closed route is in it, and the active graph keeps the edges of every closed route
when the coverage in use is up to date. -/
theorem coverage_exact (graph : RoutingGraph) {incidences : List Incidence}
    (henum : Enumerates graph incidences) :
    (∀ id pool token, (coverageEdges graph incidences)[id]? = some (pool, token) →
      (bridgeFlags graph.tokenCount graph.poolSlots (coverageEdges graph incidences) id = true ↔
        (incidenceGraph graph.tokenCount (coverageEdges graph incidences)).IsBridge
          s(token, graph.tokenCount + pool))) ∧
    (∀ pool, pool ∈ (cycleCapableCoverage graph incidences).poolIndices ↔
      CycleCapable graph incidences pool) ∧
    (∀ (n : ℕ) (tokens pools : Fin (n + 2) → ℕ) (edges : Fin (n + 2) → List (ℕ × GraphEdge)),
      GraphRoute graph tokens pools edges →
        (∀ i, pools i ∈ (cycleCapableCoverage graph incidences).poolIndices ∧
          (cycleCapableCoverage graph incidences).isTokenCapable (tokens i) = true) ∧
        (FreshCoverage graph → ∀ i, ∀ e ∈ edges i,
          e.2 ∈ (prepareActiveGraph graph incidences).edgesAt e.1)) := by
  refine ⟨?_, fun pool => mem_poolIndices_iff henum.nodup pool, ?_⟩
  · intro id pool token hget
    exact bridgeFlags_iff (indexed_incidenceEdges henum.nodup) hget
  · intro n tokens pools edges hroute
    refine ⟨fun i => (hroute.closedRoute henum).covered henum.nodup i, fun hfresh i => ?_⟩
    rcases exists_activeCoverage_eq henum hfresh with ⟨incidences', henum', hactive⟩
    refine (hroute.hops i).kept ?_
    rw [hactive]
    exact ((hroute.closedRoute henum').covered henum'.nodup i).2

end Routes

/-! ### Two pools between two tokens -/

def directEdge (pool tokenIn tokenOut : ℕ) (ratio : U256) : GraphEdge where
  edge :=
    { poolIndex := pool
      tokenIn := tokenIn
      tokenOut := tokenOut
      tokenInIdx := 0
      tokenOutIdx := 1
      protocol := .uniswapV2
      feeBps := 30
      zeroForOne := true }
  phase := .direct
  targetNode := tokenOut
  logWeight := 0.0
  ratio := ratio

/-- Token 0 to token 1 through pool 0 and back through pool 1. -/
def twoPoolGraph (back : U256) (coverage : Option CycleCapableCoverage) : RoutingGraph where
  adjacency := [[directEdge 0 0 1 one18], [directEdge 1 1 0 back]]
  tokenCount := 2
  virtualHubs := []
  poolSlots := 2
  coverage := coverage

def twoPoolEdges : Fin 2 → List (ℕ × GraphEdge) :=
  ![[(0, directEdge 0 0 1 one18)], [(1, directEdge 1 1 0 one18)]]

lemma graphRoute_twoPoolGraph (coverage : Option CycleCapableCoverage) :
    GraphRoute (n := 0) (twoPoolGraph one18 coverage) ![0, 1] ![0, 1] twoPoolEdges where
  tokens_inj := by decide
  pools_inj := by decide
  tokens_lt := show ∀ i : Fin 2, ![0, 1] i < 2 by decide
  pools_lt := show ∀ i : Fin 2, ![0, 1] i < 2 by decide
  hops := by
    intro i
    fin_cases i
    · exact .direct List.mem_cons_self rfl (by decide) rfl rfl rfl
    · exact .direct List.mem_cons_self rfl (by decide) rfl rfl rfl

theorem coverage_exact_twoPoolGraph :
    GraphRoute (n := 0) (twoPoolGraph one18 none) ![0, 1] ![0, 1] twoPoolEdges ∧
      ∀ i, ∀ e ∈ twoPoolEdges i,
        e.2 ∈ (prepareActiveGraph (twoPoolGraph one18 none) [(0, 0), (0, 1), (1, 1), (1, 0)]).edgesAt
          e.1 := by
  have henum : Enumerates (twoPoolGraph one18 none) [(0, 0), (0, 1), (1, 1), (1, 0)] :=
    ⟨by decide, fun e => Iff.rfl⟩
  have hfresh : FreshCoverage (twoPoolGraph one18 none) := by
    intro coverage hsome
    cases hsome
  exact ⟨graphRoute_twoPoolGraph none,
    ((coverage_exact _ henum).2.2 0 _ _ _ (graphRoute_twoPoolGraph none)).2 hfresh⟩

/-- The coverage of the graph while pool 1 had no price: nothing is on a cycle. -/
def staleCoverage : CycleCapableCoverage :=
  cycleCapableCoverage (twoPoolGraph 0 none) [(0, 0), (0, 1)]

/-- Pool 1 is priced again and the coverage is not renewed: the edges of the route are dropped. -/
theorem prepareActiveGraph_drops_route :
    GraphRoute (n := 0) (twoPoolGraph one18 (some staleCoverage)) ![0, 1] ![0, 1] twoPoolEdges ∧
      ∃ e ∈ twoPoolEdges 0,
        e.2 ∉ (prepareActiveGraph (twoPoolGraph one18 (some staleCoverage))
          [(0, 0), (0, 1), (1, 1), (1, 0)]).edgesAt e.1 := by
  refine ⟨graphRoute_twoPoolGraph _, (0, directEdge 0 0 1 one18), List.mem_cons_self, ?_⟩
  rw [mem_edgesAt_prepareActiveGraph]
  rintro ⟨-, -, hcapable⟩
  have hincapable : staleCoverage.isTokenCapable 0 = false := by
    decide
  have htoken : staleCoverage.isTokenCapable 0 = true := hcapable (by decide)
  rw [hincapable] at htoken
  cases htoken

end PolygonArb

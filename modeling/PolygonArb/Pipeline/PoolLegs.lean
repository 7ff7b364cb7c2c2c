import PolygonArb.Pipeline.GraphGate
import PolygonArb.Pipeline.PartialRescore

/-!
# The legs of one pool

What the attach passes ask of a graph about a pool is a matter of the legs the pool has there, wherever
they lie: whether there are any, whether one is live, and which tokens the direct ones join
(`GraphStore.legsOf`, `edgesMissing_eq_false_iff`).

Growing the tokens, adding a hub and pushing or removing the edges of another pool leave the legs of a
pool alone.  A rescore keeps the legs and may bring to life those of the pools it prices only
(`legs_rescorePools`).
-/

namespace PolygonArb

open ReverseIndex

/-- An edge of a pool without its node, its weight and its indices. -/
structure Leg where
  phase : GraphHopPhase
  tokenIn : TokenIndex
  tokenOut : TokenIndex
  live : Bool

def GraphEdge.leg (ge : GraphEdge) : Leg where
  phase := ge.phase
  tokenIn := ge.edge.tokenIn
  tokenOut := ge.edge.tokenOut
  live := isLiveGraphEdge ge

/-- The leg without its life. -/
def Leg.way (leg : Leg) : GraphHopPhase × TokenIndex × TokenIndex := (leg.phase, leg.tokenIn, leg.tokenOut)

def GraphStore.legsOf (graph : GraphStore) (pool : PoolIndex) : Set Leg :=
  {leg | ∃ node, ∃ ge ∈ graph.edgesAt node, ge.edge.poolIndex = pool ∧ ge.leg = leg}

/-- Tokens the direct edges of a row may lie on: those of the row and those of its first two legs. -/
def onRowTokens (arena : StateArena) (pool : PoolMeta) (token : TokenIndex) : Bool :=
  let legs := match arena.poolState pool.poolIndex with
    | some state => [0, 1].filterMap (routingTokenAtLeg arena state pool)
    | none => []
  (pool.tokens ++ legs).any fun t =>
    t = token || ((arena.tokenAddress t).isSome && arena.tokenAddress t = arena.tokenAddress token)

/-- The direct legs join tokens of the row. -/
def OnRow (arena : StateArena) (pool : PoolMeta) (legs : Set Leg) : Prop :=
  pool.tokens.length < 2 ∨ ∀ leg ∈ legs, leg.phase = .direct →
    onRowTokens arena pool leg.tokenIn = true ∧ onRowTokens arena pool leg.tokenOut = true

def AnyLive (legs : Set Leg) : Prop := ∃ leg ∈ legs, leg.live = true

/-- Nothing is missing: there are legs, and if one is live they join tokens of the row. -/
def LegsSettled (arena : StateArena) (pool : PoolMeta) (legs : Set Leg) : Prop :=
  legs.Nonempty ∧ (AnyLive legs → OnRow arena pool legs)

lemma not_legsSettled_empty (arena : StateArena) (pool : PoolMeta) : ¬ LegsSettled arena pool ∅ :=
  fun h => Set.not_nonempty_empty h.1

namespace GraphStore

variable {graph graph' : GraphStore} {arena : StateArena} {pool : PoolMeta} {index : PoolIndex}

/-! ## Read off the reverse index -/

/-- The positions of a pool are its edges. -/
lemma Indexed.exists_position (h : graph.Indexed) (index : PoolIndex) (test : GraphEdge → Prop) :
    (∃ p ∈ graph.positionsOf index, ∃ ge, graph.edgeAt p = some ge ∧ test ge) ↔
      ∃ node, ∃ ge ∈ graph.edgesAt node, ge.edge.poolIndex = index ∧ test ge := by
  constructor
  · rintro ⟨⟨node, j⟩, hpos, ge, hge, htest⟩
    rcases ((h index).mem_iff node j).mp hpos with ⟨ge', hge', hpool⟩
    have hsame : ge' = ge := Option.some.inj (hge'.symm.trans hge)
    exact ⟨node, ge, List.mem_of_getElem? hge, hsame ▸ hpool, htest⟩
  · rintro ⟨node, ge, hge, hpool, htest⟩
    rcases List.mem_iff_getElem?.mp hge with ⟨j, hj⟩
    exact ⟨(node, j), ((h index).mem_iff node j).mpr ⟨ge, hj, hpool⟩, ge, hj, htest⟩

lemma Indexed.edgeAt_isSome (h : graph.Indexed) {p : ℕ × ℕ} (hp : p ∈ graph.positionsOf index) :
    ∃ ge, graph.edgeAt p = some ge := by
  rcases p with ⟨node, j⟩
  rcases ((h index).mem_iff node j).mp hp with ⟨ge, hge, -⟩
  exact ⟨ge, hge⟩

lemma Indexed.poolHasEdges_iff (h : graph.Indexed) :
    graph.poolHasEdges index = true ↔ (graph.legsOf index).Nonempty := by
  rw [poolHasEdges, Bool.not_eq_true', List.isEmpty_eq_false_iff]
  constructor
  · intro hne
    rcases List.exists_mem_of_ne_nil _ hne with ⟨p, hp⟩
    rcases h.edgeAt_isSome hp with ⟨ge, hge⟩
    rcases (h.exists_position index fun _ => True).mp ⟨p, hp, ge, hge, trivial⟩ with
      ⟨node, ge, hge, hpool, -⟩
    exact ⟨ge.leg, node, ge, hge, hpool, rfl⟩
  · rintro ⟨_, node, ge, hge, hpool, -⟩ hnil
    rcases (h.exists_position index fun _ => True).mpr ⟨node, ge, hge, hpool, trivial⟩ with ⟨p, hp, -⟩
    rw [hnil] at hp
    cases hp

lemma Indexed.poolHasLiveEdges_iff (h : graph.Indexed) :
    graph.poolHasLiveEdges index = true ↔ AnyLive (graph.legsOf index) := by
  have hlive := h.exists_position index fun ge => isLiveGraphEdge ge = true
  rw [poolHasLiveEdges, List.any_eq_true]
  simp only [Option.any_eq_true]
  rw [hlive]
  constructor
  · rintro ⟨node, ge, hge, hpool, hge'⟩
    exact ⟨ge.leg, ⟨node, ge, hge, hpool, rfl⟩, hge'⟩
  · rintro ⟨_, ⟨node, ge, hge, hpool, rfl⟩, hge'⟩
    exact ⟨node, ge, hge, hpool, hge'⟩

lemma Indexed.poolDirectEdgesMatchMeta_iff (h : graph.Indexed) :
    poolDirectEdgesMatchMeta graph arena pool = true ↔
      OnRow arena pool (graph.legsOf pool.poolIndex) := by
  have heq : poolDirectEdgesMatchMeta graph arena pool =
      (decide (pool.tokens.length < 2) || (graph.positionsOf pool.poolIndex).all fun p =>
        (graph.edgeAt p).all fun ge => decide (ge.phase ≠ .direct) ||
          (onRowTokens arena pool ge.edge.tokenIn && onRowTokens arena pool ge.edge.tokenOut)) := by
    rw [poolDirectEdgesMatchMeta]
    refine congrArg _ (congrArg _ (funext fun p => ?_))
    cases graph.edgeAt p <;> rfl
  rw [heq, Bool.or_eq_true, decide_eq_true_eq, OnRow, List.all_eq_true]
  refine or_congr_right ⟨?_, ?_⟩
  · rintro hall _ ⟨node, ge, hge, hpool, rfl⟩ hdirect
    rcases List.mem_iff_getElem?.mp hge with ⟨j, hj⟩
    have hpos := hall (node, j) (((h pool.poolIndex).mem_iff node j).mpr ⟨ge, hj, hpool⟩)
    rw [show graph.edgeAt (node, j) = some ge from hj] at hpos
    have hphase : ge.phase = .direct := hdirect
    simpa [hphase, GraphEdge.leg] using hpos
  · intro hall p hp
    rcases h.edgeAt_isSome hp with ⟨ge, hge⟩
    rcases (h.exists_position pool.poolIndex (· = ge)).mp ⟨p, hp, ge, hge, rfl⟩ with
      ⟨node, edge, hmem, hpool, rfl⟩
    have hleg := hall _ ⟨node, edge, hmem, hpool, rfl⟩
    rw [hge]
    by_cases hphase : edge.phase = .direct
    · have := hleg hphase
      simpa [hphase, GraphEdge.leg] using this
    · simp [hphase]

/-- A pool is missing as far as its legs are not settled. -/
lemma Indexed.edgesMissing_eq_false_iff (h : graph.Indexed) :
    edgesMissing arena graph pool = false ↔ LegsSettled arena pool (graph.legsOf pool.poolIndex) := by
  rw [edgesMissing, LegsSettled, ← h.poolHasEdges_iff, ← h.poolHasLiveEdges_iff,
    ← h.poolDirectEdgesMatchMeta_iff]
  have hedges : graph.poolHasLiveEdges pool.poolIndex = true → graph.poolHasEdges pool.poolIndex = true := by
    rw [h.poolHasLiveEdges_iff, h.poolHasEdges_iff]
    rintro ⟨leg, hleg, -⟩
    exact ⟨leg, hleg⟩
  cases hlive : graph.poolHasLiveEdges pool.poolIndex with
  | false => simp
  | true => simp [hedges hlive]

/-! ## What leaves the legs alone -/

@[simp] lemma leg_pushed (ge : GraphEdge) : (pushed ge).leg = ge.leg := by
  rw [pushed]
  split_ifs <;> rfl

lemma legsOf_congr (h : ∀ node, graph'.edgesAt node = graph.edgesAt node) :
    graph'.legsOf index = graph.legsOf index := by
  simp only [legsOf, h]

/-- A pushed edge is one more leg of its pool. -/
lemma legsOf_pushEdgeAt (fromNode : ℕ) (ge : GraphEdge) :
    (graph.pushEdgeAt fromNode ge).legsOf index =
      graph.legsOf index ∪ {leg | ge.edge.poolIndex = index ∧ ge.leg = leg} := by
  ext leg
  simp only [legsOf, edgesAt_pushEdgeAt, Set.mem_union, Set.mem_ofPred_eq]
  constructor
  · rintro ⟨node, x, hx, hpool, rfl⟩
    split_ifs at hx with hnode
    · rcases List.mem_append.mp hx with hold | hnew
      · exact .inl ⟨node, x, hold, hpool, rfl⟩
      · rw [List.mem_singleton.mp hnew, edge_pushed] at hpool
        rw [List.mem_singleton.mp hnew, leg_pushed]
        exact .inr ⟨hpool, rfl⟩
    · exact .inl ⟨node, x, hx, hpool, rfl⟩
  · rintro (⟨node, x, hx, hpool, rfl⟩ | ⟨hpool, rfl⟩)
    · refine ⟨node, x, ?_, hpool, rfl⟩
      split_ifs
      · exact List.mem_append_left _ hx
      · exact hx
    · refine ⟨fromNode, pushed ge, ?_, by rwa [edge_pushed], leg_pushed ge⟩
      rw [if_pos rfl]
      exact List.mem_append_right _ (List.mem_singleton.mpr rfl)

/-- Several of them. -/
lemma legsOf_foldl_pushEdgeAt {α : Type*} (place : α → ℕ) (edge : α → GraphEdge) (items : List α)
    (graph : GraphStore) :
    (items.foldl (fun graph a => graph.pushEdgeAt (place a) (edge a)) graph).legsOf index =
      graph.legsOf index ∪ {leg | ∃ a ∈ items, (edge a).edge.poolIndex = index ∧ (edge a).leg = leg} := by
  induction items generalizing graph with
  | nil => simp
  | cons a items ih =>
      rw [List.foldl_cons, ih, legsOf_pushEdgeAt, Set.union_assoc]
      congr 1
      ext leg
      simp only [Set.mem_union, Set.mem_ofPred_eq, List.exists_mem_cons_iff]

/-- Growth moves the edges and keeps them. -/
lemma LaidOut.legsOf_grow (h : graph.LaidOut) (tokenCount : ℕ) :
    (graph.ensureTokenCapacity tokenCount).legsOf index = graph.legsOf index := by
  have hgrown := h.grown tokenCount
  ext leg
  constructor
  · rintro ⟨node, x, hx, hpool, rfl⟩
    by_cases hold : ∃ old, graph.movedNode tokenCount old = node
    · rcases hold with ⟨old, rfl⟩
      rw [hgrown.edges] at hx
      rcases List.mem_map.mp hx with ⟨ge, hge, rfl⟩
      exact ⟨old, ge, hge, hpool, rfl⟩
    · rw [hgrown.fresh node fun old heq => hold ⟨old, heq⟩] at hx
      cases hx
  · rintro ⟨node, ge, hge, hpool, rfl⟩
    refine ⟨graph.movedNode tokenCount node, ge.moveTarget (graph.movedNode tokenCount), ?_, hpool, rfl⟩
    rw [hgrown.edges]
    exact List.mem_map.mpr ⟨ge, hge, rfl⟩

/-- A removal takes the edges of its pool, and no others. -/
lemma Indexed.mem_edgesAt_removePool (h : graph.Indexed) {node : ℕ} {ge : GraphEdge} :
    ge ∈ (removePoolEdgesFromGraph graph index).edgesAt node ↔
      ge ∈ graph.edgesAt node ∧ ge.edge.poolIndex ≠ index := by
  have hne : graph.positionsOf index = [] → ge ∈ graph.edgesAt node → ge.edge.poolIndex ≠ index := by
    intro hnil hge
    exact (without_iff h).mpr hnil node ge.place (List.mem_map.mpr ⟨ge, hge, rfl⟩)
  rw [removePoolEdgesFromGraph]
  dsimp only
  split_ifs with hempty hunchanged
  · exact (and_iff_left_of_imp (hne (List.isEmpty_iff.mp hempty))).symm
  · rw [h.any_retained_ne (by simpa using hempty)] at hunchanged
    cases hunchanged
  · set touched := (graph.positionsOf index).map Prod.fst with htouched
    have hrow : (graph.withRows (retainOthers index touched)).edgesAt node =
        retainOthers index touched node (graph.edgesAt node) :=
      edgesAt_withRows (retainOthers_nil index touched) node
    refine (iff_of_eq (congrArg (ge ∈ ·) hrow)).trans ⟨fun hge => ?_, fun hge => mem_retainOthers hge.1 hge.2⟩
    have hold := (retainOthers_sublist node _).subset hge
    refine ⟨hold, fun hpool => ?_⟩
    have hnode := h.mem_touched (List.mem_map.mpr ⟨ge, hold, rfl⟩)
    rw [show (ge.place).pool = index from hpool, ← htouched] at hnode
    rw [retainOthers, if_pos (List.contains_iff_mem.mpr hnode)] at hge
    exact of_decide_eq_true (List.mem_filter.mp hge).2 hpool

lemma Indexed.legsOf_removePool_self (h : graph.Indexed) :
    (removePoolEdgesFromGraph graph index).legsOf index = ∅ := by
  refine Set.eq_empty_of_forall_notMem ?_
  rintro _ ⟨node, ge, hge, hpool, -⟩
  exact (h.mem_edgesAt_removePool.mp hge).2 hpool

lemma Indexed.legsOf_removePool_of_ne (h : graph.Indexed) {other : PoolIndex} (hne : other ≠ index) :
    (removePoolEdgesFromGraph graph index).legsOf other = graph.legsOf other := by
  ext leg
  simp only [legsOf, h.mem_edgesAt_removePool, Set.mem_ofPred_eq]
  constructor
  · rintro ⟨node, ge, ⟨hge, -⟩, hpool, hleg⟩
    exact ⟨node, ge, hge, hpool, hleg⟩
  · rintro ⟨node, ge, hge, hpool, hleg⟩
    exact ⟨node, ge, ⟨hge, fun heq => hne (hpool.symm.trans heq)⟩, hpool, hleg⟩

end GraphStore

/-! ## What a rescore leaves -/

section Rescore

variable {order : RoutingGraph → List Incidence} {arena : StateArena} {graph graph' : GraphStore}
  {pools : List PoolIndex} {index : PoolIndex}

/-- Edges at the same places are legs the same way. -/
lemma image_way_eq (h : ∀ node p, p ∈ graph'.placesAt node ↔ p ∈ graph.placesAt node) :
    Leg.way '' graph'.legsOf index = Leg.way '' graph.legsOf index := by
  have hway : ∀ (graph : GraphStore) way, way ∈ Leg.way '' graph.legsOf index ↔
      ∃ node, ∃ p ∈ graph.placesAt node, p.pool = index ∧ (p.phase, p.tokenIn, p.tokenOut) = way := by
    intro graph way
    simp only [Set.mem_image, GraphStore.placesAt, List.mem_map]
    constructor
    · rintro ⟨_, ⟨node, ge, hge, hpool, rfl⟩, rfl⟩
      exact ⟨node, ge.place, ⟨ge, hge, rfl⟩, hpool, rfl⟩
    · rintro ⟨node, _, ⟨ge, hge, rfl⟩, hpool, rfl⟩
      exact ⟨ge.leg, ⟨node, ge, hge, hpool, rfl⟩, rfl⟩
  ext way
  simp only [hway, h]

lemma mem_placesAt_rescorePools (hsound : graph.Sound)
    (hstep : rescorePoolsInPlace order arena graph pools = some graph') (node : ℕ) (p : Place) :
    p ∈ graph'.placesAt node ↔ p ∈ graph.placesAt node := by
  rw [rescorePoolsInPlace] at hstep
  split_ifs at hstep with hempty
  · cases hstep
    exact Iff.rfl
  · rcases Option.map_eq_some_iff.mp hstep with ⟨rows, hrows, rfl⟩
    have hplaces := (hsound.rescored hrows).1 node
    have hmem := mem_compactAffected order { graph with adjacency := rows }
      (affectedAdjacencies graph pools)
      (sortDedup (pools.filter fun pool => decide (pool < graph.poolEdgePositions.length))) node
    have hthin := (map_place_thinParallelEdges (row rows node) maxParallelEdgesPerPair).mem_iff (a := p)
    rw [hplaces] at hthin
    show p ∈ List.map GraphEdge.place _ ↔ _
    rw [List.mem_map]
    refine (exists_congr fun ge => and_congr_left fun _ => hmem ge).trans ?_
    rw [← List.mem_map]
    split_ifs
    · exact hthin
    · exact iff_of_eq (congrArg (p ∈ ·) hplaces)

/-- A partial rescore keeps the legs, and brings only those of its pools to life. -/
lemma legs_rescorePools (hsound : graph.Sound)
    (hstep : rescorePoolsInPlace order arena graph pools = some graph') :
    Leg.way '' graph'.legsOf index = Leg.way '' graph.legsOf index ∧
      (AnyLive (graph'.legsOf index) → index ∈ pools ∨ AnyLive (graph.legsOf index)) := by
  refine ⟨image_way_eq (mem_placesAt_rescorePools hsound hstep), ?_⟩
  rintro ⟨_, ⟨node, ge, hge, rfl, rfl⟩, hlive⟩
  rw [mem_rescorePools hsound hstep hlive] at hge
  split_ifs at hge with hnode
  · rcases List.mem_map.mp hge.1 with ⟨old, hold, rfl⟩
    rw [partly] at hlive ⊢
    split_ifs at hlive ⊢ with hdirty
    · have hpool : (repriced arena old).edge.poolIndex = old.edge.poolIndex :=
        congrArg Place.pool (repriced_place arena old)
      rw [hpool]
      exact .inl (of_decide_eq_true hdirty)
    · exact .inr ⟨old.leg, ⟨node, old, hold, rfl, rfl⟩, hlive⟩
  · exact .inr ⟨ge.leg, ⟨node, ge, hge, rfl, rfl⟩, hlive⟩

/-- A full rescore keeps the legs. -/
lemma legs_rescoreGraph (hstep : rescoreGraphInPlace order arena graph = some graph') :
    Leg.way '' graph'.legsOf index = Leg.way '' graph.legsOf index := by
  refine image_way_eq fun node p => ?_
  rw [GraphStore.placesAt, (edgesAt_rescoreGraph hstep node).2,
    ((perm_sortAdjacencyEdges _).map GraphEdge.place).mem_iff]
  have hrow : ((graph.edgesAt node).map (repriced arena)).map GraphEdge.place = graph.placesAt node := by
    rw [List.map_map]
    exact List.map_congr_left fun ge _ => repriced_place arena ge
  split_ifs
  · rw [(map_place_thinParallelEdges _ _).mem_iff, hrow]
  · rw [hrow]

lemma nonempty_of_image_way {legs legs' : Set Leg} (h : Leg.way '' legs' = Leg.way '' legs) :
    legs'.Nonempty ↔ legs.Nonempty := by
  rw [← Set.image_nonempty, h, Set.image_nonempty]

/-- Direct legs are what the way says. -/
lemma OnRow.of_image_way {pool : PoolMeta} {legs legs' : Set Leg}
    (hway : Leg.way '' legs' = Leg.way '' legs) (h : OnRow arena pool legs) : OnRow arena pool legs' := by
  refine h.imp id fun hall leg hleg hdirect => ?_
  have hmem : leg.way ∈ Leg.way '' legs := hway ▸ Set.mem_image_of_mem _ hleg
  rcases hmem with ⟨old, hold, hsame⟩
  simp only [Leg.way, Prod.mk.injEq] at hsame
  have := hall old hold (hsame.1.trans hdirect)
  rw [hsame.2.1, hsame.2.2] at this
  exact this

end Rescore

end PolygonArb

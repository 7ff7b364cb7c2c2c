import PolygonArb.Pipeline.GraphRun
import PolygonArb.Pipeline.ParallelEdges

/-!
# Rescoring some pools against rescoring all

After a full rescore the states of some pools change.  Rescoring only those pools prices the same
edges as a second full rescore, except for the stubs of the other pools: a full rescore gives a stub
its ratio back before it thins, a partial one does not.

So the two leave the same live edges exactly when every such stub would be thinned away again
(`rescorePools_sameLive_iff`), which fails as soon as an edge that kept it out drops behind it
(`rescorePools_hides_pair`).

* `liveAt_rescoreGraph`, `liveAt_rescorePools` — the live edges each of the two leaves at a node.
* `sameBest_iff` — the comparison at one node, by `best_filter_iff`.
* `isSome_rescorePools_iff` — neither stops at an edge where the other does not.
-/

namespace PolygonArb

open ReverseIndex TopRanked Word

/-- The arenas differ in the states of the pools at most. -/
structure ChangedOnly (pools : List PoolIndex) (arena arena' : StateArena) : Prop where
  states : ∀ pool ∉ pools, arena'.poolState pool = arena.poolState pool
  addresses : ∀ token, arena'.tokenAddress token = arena.tokenAddress token
  decimals : ∀ token, arena'.tokenDecimals token = arena.tokenDecimals token

/-- The edge as the arena prices it. -/
def repriced (arena : StateArena) (ge : GraphEdge) : GraphEdge := (rescoreGraphEdge arena ge).getD ge

/-- The same live edges with the same ratios, at every node. -/
def SameLive (graph graph' : GraphStore) : Prop :=
  ∀ node ge, isLiveGraphEdge ge = true → (ge ∈ graph.edgesAt node ↔ ge ∈ graph'.edgesAt node)

/-- Every stub of another pool that has a price has enough better edges in its group. -/
def StubsOutranked (arena : StateArena) (graph : GraphStore) (pools : List PoolIndex) : Prop :=
  ∀ node, ∀ ge ∈ graph.edgesAt node, ge.edge.poolIndex ∉ pools → isLiveGraphEdge ge = false →
    isLiveGraphEdge (repriced arena ge) = true →
    maxParallelEdgesPerPair ≤
      rank Outranks (((graph.edgesAt node).map (repriced arena)).filter competes) (repriced arena ge)

/-- Among the edges, and among the best of its group if it is direct. -/
def Best (edges : List GraphEdge) (ge : GraphEdge) : Prop :=
  ge ∈ edges ∧ (ge.phase = .direct →
    rank Outranks (edges.filter competes) ge < maxParallelEdgesPerPair)

/-! ## One row -/

section Row

variable {edges edges' : List GraphEdge} {ge : GraphEdge}

lemma Best.congr (h : edges.Perm edges') : Best edges ge ↔ Best edges' ge := by
  have hrank : rank Outranks (edges.filter competes) ge = rank Outranks (edges'.filter competes) ge :=
    (h.filter competes).countP_eq _
  rw [Best, Best, h.mem_iff, hrank]

variable {dirty : GraphEdge → Bool} {f : GraphEdge → GraphEdge}

/-- The rescored edges of the dirty pools among the others. -/
def partly (dirty : GraphEdge → Bool) (f : GraphEdge → GraphEdge) (ge : GraphEdge) : GraphEdge :=
  if dirty ge then f ge else ge

variable (hphase : ∀ ge ∈ edges, (f ge).phase = ge.phase)
  (hlive : ∀ ge ∈ edges, dirty ge = false → isLiveGraphEdge ge = true → f ge = ge)
  (hinj : ∀ x ∈ edges, ∀ y ∈ edges, competes (f x) = true → f x = f y → x = y)

/-- Of one of the pools that are rescored. -/
def dirtyIn (pools : List PoolIndex) (ge : GraphEdge) : Bool := decide (edgePool ge ∈ pools)

/-- What a partial rescore does not hide. -/
def shown (dirty : GraphEdge → Bool) (ge : GraphEdge) : Bool := dirty ge || isLiveGraphEdge ge

omit hphase hinj in
include hlive in
lemma partly_of_shown (hge : ge ∈ edges) (h : shown dirty ge = true) : partly dirty f ge = f ge := by
  rw [partly]
  cases hdirty : dirty ge with
  | true => rfl
  | false =>
      have hge' : isLiveGraphEdge ge = true := by simpa [shown, hdirty] using h
      exact (hlive ge hge hdirty hge').symm

omit hphase hlive hinj in
lemma partly_of_not_shown (h : shown dirty ge = false) :
    partly dirty f ge = ge ∧ isLiveGraphEdge ge = false := by
  rw [shown, Bool.or_eq_false_iff] at h
  exact ⟨if_neg (by simp [h.1]), h.2⟩

/-- The stored edges that would compete, by what they are worth. -/
def rivals (f : GraphEdge → GraphEdge) (edges : List GraphEdge) : List GraphEdge :=
  edges.filter (competes ∘ f)

lemma mem_rivals : ge ∈ rivals f edges ↔ ge ∈ edges ∧ competes (f ge) = true := List.mem_filter

lemma rank_map (f : GraphEdge → GraphEdge) (edges : List GraphEdge) (ge : GraphEdge) :
    rank Outranks ((edges.map f).filter competes) (f ge) =
      rank (Order.Preimage f Outranks) (rivals f edges) ge := by
  rw [List.filter_map, rank, List.countP_map]
  rfl

include hlive in
lemma rank_partly (ge : GraphEdge) :
    rank Outranks ((edges.map (partly dirty f)).filter competes) (f ge) =
      rank (Order.Preimage f Outranks) ((rivals f edges).filter (shown dirty)) ge := by
  rw [List.filter_map, rank, rank, List.countP_map, List.countP_filter, rivals, List.filter_filter,
    List.countP_filter]
  refine List.countP_congr fun x hx => ?_
  cases hshown : shown dirty x with
  | true =>
      simp only [Function.comp_apply, partly_of_shown hlive hx hshown, Bool.true_and,
        Bool.and_eq_true, decide_eq_true_eq]
      exact Iff.rfl
  | false =>
      have hdead := partly_of_not_shown hshown (f := f)
      simp [hdead.1, competes, hdead.2]

lemma best_map_iff (hcompetes : competes ge = true) :
    Best (edges.map f) ge ↔ ∃ x ∈ rivals f edges, f x = ge ∧
      rank (Order.Preimage f Outranks) (rivals f edges) x < maxParallelEdgesPerPair := by
  simp only [Best, (competes_iff.mp hcompetes).2, forall_const, List.mem_map]
  constructor
  · rintro ⟨⟨x, hx, rfl⟩, hrank⟩
    exact ⟨x, mem_rivals.mpr ⟨hx, hcompetes⟩, rfl, rank_map f edges x ▸ hrank⟩
  · rintro ⟨x, hx, rfl, hrank⟩
    exact ⟨⟨x, (mem_rivals.mp hx).1, rfl⟩, (rank_map f edges x).symm ▸ hrank⟩

include hlive in
lemma best_partly_iff (hcompetes : competes ge = true) :
    Best (edges.map (partly dirty f)) ge ↔ ∃ x ∈ rivals f edges, f x = ge ∧ shown dirty x = true ∧
      rank (Order.Preimage f Outranks) ((rivals f edges).filter (shown dirty)) x <
        maxParallelEdgesPerPair := by
  simp only [Best, (competes_iff.mp hcompetes).2, forall_const, List.mem_map]
  constructor
  · rintro ⟨⟨x, hx, hpart⟩, hrank⟩
    cases hshown : shown dirty x with
    | true =>
        rw [partly_of_shown hlive hx hshown] at hpart
        subst hpart
        exact ⟨x, mem_rivals.mpr ⟨hx, hcompetes⟩, rfl, hshown, rank_partly hlive x ▸ hrank⟩
    | false =>
        rw [(partly_of_not_shown hshown).1] at hpart
        rw [← hpart, competes, (partly_of_not_shown hshown (f := f)).2] at hcompetes
        cases hcompetes
  · rintro ⟨x, hx, rfl, hshown, hrank⟩
    have hmem := (mem_rivals.mp hx).1
    exact ⟨⟨x, hmem, partly_of_shown hlive hmem hshown⟩, (rank_partly hlive x).symm ▸ hrank⟩

include hphase hlive in
/-- The legs of hubs are the same. -/
lemma best_hub_iff (hhub : ge.phase ≠ .direct) :
    Best (edges.map f) ge ↔ Best (edges.map (partly dirty f)) ge := by
  have hshown : ∀ x ∈ edges, x.phase ≠ .direct → partly dirty f x = f x := by
    intro x hx hphase
    refine partly_of_shown hlive hx ?_
    rw [shown, isLiveGraphEdge_of_hub hphase, Bool.or_true]
  simp only [Best, hhub, false_imp_iff, and_true, List.mem_map]
  constructor
  · rintro ⟨x, hx, rfl⟩
    exact ⟨x, hx, hshown x hx (hphase x hx ▸ hhub)⟩
  · rintro ⟨x, hx, hpart⟩
    have hx' : x.phase ≠ .direct := by
      intro hdirect
      refine hhub ?_
      rw [← hpart, partly]
      split_ifs
      · rw [hphase x hx, hdirect]
      · exact hdirect
    exact ⟨x, hx, (hshown x hx hx').symm.trans hpart⟩

include hphase hlive hinj in
/-- At one node, the two choices agree when no hidden edge would be chosen. -/
theorem sameBest_iff :
    (∀ ge, isLiveGraphEdge ge = true →
      (Best (edges.map f) ge ↔ Best (edges.map (partly dirty f)) ge)) ↔
    ∀ ge ∈ rivals f edges, shown dirty ge = false →
      maxParallelEdgesPerPair ≤ rank (Order.Preimage f Outranks) (rivals f edges) ge := by
  have hunique : ∀ x ∈ rivals f edges, ∀ y ∈ rivals f edges, f y = f x → y = x := by
    intro x hx y hy heq
    exact hinj y (mem_rivals.mp hy).1 x (mem_rivals.mp hx).1 (mem_rivals.mp hy).2 heq
  rw [← best_filter_iff]
  constructor
  · intro h x hx
    have hcompetes := (mem_rivals.mp hx).2
    have hiff := h (f x) (competes_iff.mp hcompetes).1
    rw [best_map_iff hcompetes, best_partly_iff hlive hcompetes] at hiff
    constructor
    · intro hrank
      rcases hiff.mp ⟨x, hx, rfl, hrank⟩ with ⟨y, hy, heq, hshown, hrank'⟩
      rw [hunique x hx y hy heq] at hshown hrank'
      exact ⟨hshown, hrank'⟩
    · rintro ⟨hshown, hrank⟩
      rcases hiff.mpr ⟨x, hx, rfl, hshown, hrank⟩ with ⟨y, hy, heq, hrank'⟩
      rw [hunique x hx y hy heq] at hrank'
      exact hrank'
  · intro h ge hge
    by_cases hdirect : ge.phase = .direct
    · have hcompetes : competes ge = true := competes_iff.mpr ⟨hge, hdirect⟩
      rw [best_map_iff hcompetes, best_partly_iff hlive hcompetes]
      refine exists_congr fun x => and_congr_right fun hx => and_congr_right fun _ => h x hx
    · exact best_hub_iff hphase hlive hdirect

end Row

/-! ## What each rescore leaves -/

section Leaves

variable {order : RoutingGraph → List Incidence} {arena : StateArena} {graph graph' : GraphStore}
  {edges edges' : List GraphEdge} {pools : List PoolIndex} {node : ℕ} {ge : GraphEdge}

lemma eq_map_repriced
    (h : List.Forall₂ (fun ge ge' => rescoreGraphEdge arena ge = some ge') edges edges') :
    edges' = edges.map (repriced arena) ∧
      ∀ ge ∈ edges, rescoreGraphEdge arena ge = some (repriced arena ge) := by
  induction h with
  | nil => exact ⟨rfl, fun _ hge => by cases hge⟩
  | @cons ge ge' _ _ hge _ ih =>
      have hprice : repriced arena ge = ge' := by rw [repriced, hge, Option.getD_some]
      refine ⟨by rw [List.map_cons, hprice, ← ih.1], fun x hx => ?_⟩
      rcases List.mem_cons.mp hx with rfl | hx
      · rw [hprice, hge]
      · exact ih.2 x hx

lemma eq_map_partly
    (h : List.Forall₂ (fun ge ge' => if edgePool ge ∈ pools then rescoreGraphEdge arena ge = some ge'
      else ge' = ge) edges edges') :
    edges' = edges.map (partly (dirtyIn pools) (repriced arena)) := by
  induction h with
  | nil => rfl
  | @cons ge ge' _ _ hge _ ih =>
      rw [List.map_cons, ← ih, partly]
      simp only [dirtyIn, decide_eq_true_eq]
      split_ifs at hge ⊢ with hdirty
      · rw [repriced, hge, Option.getD_some]
      · rw [hge]

/-- The row of a node of the graph, perhaps with other prices. -/
structure RowOf (graph : GraphStore) (node : ℕ) (edges : List GraphEdge) : Prop where
  places : (edges.map GraphEdge.place).Perm (graph.placesAt node)

lemma RowOf.nodup (h : RowOf graph node edges) (hsound : graph.Sound) :
    ((edges.filter fun ge => ge.phase = .direct).map edgePool).Nodup := by
  have hpools := ((h.places.filter fun p : Place => decide (p.phase = .direct)).map
    Place.pool).nodup_iff.mpr (hsound.single node)
  rw [List.filter_map, List.map_map] at hpools
  exact hpools

lemma RowOf.phase_ne (h : RowOf graph node edges) (hsound : graph.Sound)
    (hnode : graph.tokenCount ≤ node) (hge : ge ∈ edges) : ge.phase ≠ .direct := by
  have hleg := hsound.laidOut.hub node hnode ge.place
    (h.places.mem_iff.mp (List.mem_map.mpr ⟨ge, hge, rfl⟩))
  intro hdirect
  have hexit : ge.phase = .exitPool := hleg.phase
  rw [hdirect] at hexit
  cases hexit

/-- Thinning the token rows and sorting leaves the best. -/
lemma RowOf.best_iff (h : RowOf graph node edges) (hsound : graph.Sound)
    (hlive : isLiveGraphEdge ge = true) :
    ge ∈ (if node < graph.tokenCount then thinParallelEdges edges maxParallelEdgesPerPair else edges) ↔
      Best edges ge := by
  split_ifs with hnode
  · exact mem_thinParallelEdges (h.nodup hsound) (by decide) hlive
  · exact (and_iff_left_of_imp fun hmem hdirect =>
      absurd hdirect (h.phase_ne hsound (not_lt.mp hnode) hmem)).symm

lemma repriced_place (arena : StateArena) (ge : GraphEdge) : (repriced arena ge).place = ge.place := by
  rw [repriced]
  cases hprice : rescoreGraphEdge arena ge with
  | none => rfl
  | some ge' => exact rescoreGraphEdge_place hprice

lemma partly_place (dirty : GraphEdge → Bool) (arena : StateArena) (ge : GraphEdge) :
    (partly dirty (repriced arena) ge).place = ge.place := by
  rw [partly]
  split_ifs
  · exact repriced_place arena ge
  · rfl

lemma repriced_kill (h : (rescoreGraphEdge arena ge).isSome = true) :
    repriced arena (kill ge) = repriced arena ge := by
  rcases Option.isSome_iff_exists.mp h with ⟨ge', hge'⟩
  rw [repriced, repriced, rescoreGraphEdge_kill, hge', Option.getD_some, Option.getD_some]

lemma rowOf_edgesAt (graph : GraphStore) (node : ℕ) : RowOf graph node (graph.edgesAt node) := ⟨.refl _⟩

lemma rowOf_map {f : GraphEdge → GraphEdge} (h : ∀ ge ∈ graph.edgesAt node, (f ge).place = ge.place) :
    RowOf graph node ((graph.edgesAt node).map f) := by
  refine ⟨List.Perm.of_eq ?_⟩
  rw [List.map_map]
  exact List.map_congr_left h

/-- The rows of a full rescore. -/
lemma edgesAt_rescoreGraph (hstep : rescoreGraphInPlace order arena graph = some graph') (node : ℕ) :
    (∀ ge ∈ graph.edgesAt node, rescoreGraphEdge arena ge = some (repriced arena ge)) ∧
      graph'.edgesAt node = sortAdjacencyEdges (if node < graph.tokenCount then
        thinParallelEdges ((graph.edgesAt node).map (repriced arena)) maxParallelEdgesPerPair
        else (graph.edgesAt node).map (repriced arena)) := by
  rcases Option.map_eq_some_iff.mp hstep with ⟨rows, hrows, rfl⟩
  rcases eq_map_repriced (rescoreAdjacency_row hrows node) with ⟨hrow, hprice⟩
  refine ⟨hprice, ?_⟩
  refine (edgesAt_compactTokenAdjacency order { graph with adjacency := rows } none node).trans ?_
  show compactRow graph.tokenCount none node (row rows node) = _
  rw [hrow, compactRow]
  rfl

lemma liveAt_rescoreGraph (hsound : graph.Sound)
    (hstep : rescoreGraphInPlace order arena graph = some graph') (hlive : isLiveGraphEdge ge = true) :
    ge ∈ graph'.edgesAt node ↔ Best ((graph.edgesAt node).map (repriced arena)) ge := by
  rw [(edgesAt_rescoreGraph hstep node).2, (perm_sortAdjacencyEdges _).mem_iff]
  exact (rowOf_map fun ge _ => repriced_place arena ge).best_iff hsound hlive

/-- The affected rows are thinned or sorted, and the others left. -/
lemma mem_compactAffected (order : RoutingGraph → List Incidence) (graph : GraphStore)
    (affected touched : List ℕ) (node : ℕ) (ge : GraphEdge) :
    ge ∈ (compactAffected order graph affected touched).edgesAt node ↔
      ge ∈ if node ∈ affected ∧ node < graph.tokenCount then
        thinParallelEdges (graph.edgesAt node) maxParallelEdgesPerPair else graph.edgesAt node := by
  have hsort : ∀ nodes, ge ∈ (sortRows graph nodes).edgesAt node ↔ ge ∈ graph.edgesAt node := by
    intro nodes
    rw [edgesAt_sortRows]
    split_ifs
    · exact (perm_sortAdjacencyEdges _).mem_iff
    · exact Iff.rfl
  set slots := affected.filter fun node => decide (node < graph.tokenCount) with hslots
  set hubs := affected.filter fun node => decide (graph.tokenCount ≤ node) with hhubs
  have hmem : node ∈ slots ↔ node ∈ affected ∧ node < graph.tokenCount := by
    rw [hslots, List.mem_filter, decide_eq_true_eq]
  have hrow : ge ∈ (compactTokenAdjacency order (sortRows graph hubs) (some slots)).edgesAt node ↔
      ge ∈ if node ∈ slots then thinParallelEdges (graph.edgesAt node) maxParallelEdgesPerPair
        else graph.edgesAt node := by
    rw [edgesAt_compactTokenAdjacency, compactRow]
    by_cases hnode : node ∈ slots
    · have hlt : node < (sortRows graph hubs).tokenCount := (hmem.mp hnode).2
      have hkeep : (sortRows graph hubs).edgesAt node = graph.edgesAt node := by
        rw [edgesAt_sortRows, if_neg]
        have hnothub : node ∉ hubs := by simpa [hhubs] using fun _ => (hmem.mp hnode).2
        simpa using hnothub
      have hcompacts : compacts (sortRows graph hubs).tokenCount (some slots) node = true := by
        rw [compacts, Bool.and_eq_true, decide_eq_true_eq, List.contains_iff_mem]
        exact ⟨hlt, hnode⟩
      rw [if_pos hcompacts, if_pos hlt, if_pos hnode, (perm_sortAdjacencyEdges _).mem_iff, hkeep]
    · have hcompacts : compacts (sortRows graph hubs).tokenCount (some slots) node = false := by
        simp [compacts, hnode]
      rw [hcompacts, if_neg hnode]
      exact hsort hubs
  rw [compactAffected]
  dsimp only
  rw [← hslots, ← hhubs]
  simp only [← hmem]
  by_cases hempty : slots.isEmpty = true
  · have hnone : node ∉ slots := by simp [List.isEmpty_iff.mp hempty]
    rw [if_pos hempty, if_neg hnone]
    exact hsort affected
  · rw [if_neg hempty]
    split_ifs at hrow ⊢ <;> exact hrow

/-- A row no edge of which is dirty is as it was. -/
lemma map_partly_of_notMem (hsound : graph.Sound) (hnode : node ∉ affectedAdjacencies graph pools) :
    (graph.edgesAt node).map (partly (dirtyIn pools) (repriced arena)) =
      graph.edgesAt node := by
  refine (List.map_congr_left fun ge hge => ?_).trans (List.map_id _)
  have hclean : edgePool ge ∉ pools := fun hpool => hnode
    ((GraphStore.mem_affectedAdjacencies hsound.indexed).mpr
      ⟨ge.place, List.mem_map.mpr ⟨ge, hge, rfl⟩, hpool⟩)
  rw [partly, if_neg (by simpa [dirtyIn] using hclean)]
  rfl

/-- The rows of a partial rescore. -/
lemma mem_rescorePools (hsound : graph.Sound)
    (hstep : rescorePoolsInPlace order arena graph pools = some graph')
    (hlive : isLiveGraphEdge ge = true) :
    ge ∈ graph'.edgesAt node ↔
      if node ∈ affectedAdjacencies graph pools then
        Best ((graph.edgesAt node).map (partly (dirtyIn pools) (repriced arena))) ge
      else ge ∈ graph.edgesAt node := by
  have hbest := (rowOf_map fun ge (_ : ge ∈ graph.edgesAt node) =>
    partly_place (dirtyIn pools) arena ge).best_iff hsound hlive
  rw [rescorePoolsInPlace] at hstep
  split_ifs at hstep with hempty
  · cases hstep
    rw [if_neg]
    intro hnode
    rw [List.isEmpty_iff.mp hempty] at hnode
    rcases (GraphStore.mem_affectedAdjacencies hsound.indexed).mp hnode with ⟨_, -, hnil⟩
    cases hnil
  · rcases Option.map_eq_some_iff.mp hstep with ⟨rows, hrows, rfl⟩
    have hrow := eq_map_partly (rescored_row hsound.indexed hrows node)
    refine (mem_compactAffected order { graph with adjacency := rows } _ _ node ge).trans ?_
    show ge ∈ (if node ∈ affectedAdjacencies graph pools ∧ node < graph.tokenCount then
      thinParallelEdges (row rows node) maxParallelEdgesPerPair else row rows node) ↔ _
    by_cases hnode : node ∈ affectedAdjacencies graph pools
    · rw [hrow, if_pos hnode, ← hbest]
      simp only [hnode, true_and]
    · rw [if_neg fun h => hnode h.1, if_neg hnode, hrow]
      exact iff_of_eq (congrArg (ge ∈ ·) (map_partly_of_notMem hsound hnode))

/-- The same in a graph whose own rows are thinned. -/
lemma liveAt_rescorePools (hsound : graph.Sound)
    (hthinned : ∀ ge, isLiveGraphEdge ge = true → ge ∈ graph.edgesAt node → Best (graph.edgesAt node) ge)
    (hstep : rescorePoolsInPlace order arena graph pools = some graph')
    (hlive : isLiveGraphEdge ge = true) :
    ge ∈ graph'.edgesAt node ↔
      Best ((graph.edgesAt node).map (partly (dirtyIn pools) (repriced arena))) ge := by
  rw [mem_rescorePools hsound hstep hlive]
  split_ifs with hnode
  · exact Iff.rfl
  · rw [map_partly_of_notMem hsound hnode]
    exact ⟨hthinned ge hlive, And.left⟩

end Leaves

/-! ## When a rescore returns -/

section Returns

variable {order : RoutingGraph → List Incidence} {arena : StateArena} {graph : GraphStore}
  {rows : List (List GraphEdge)} {pools : List PoolIndex}

lemma isSome_rescoreGraph :
    (rescoreGraphInPlace order arena graph).isSome = true ↔
      ∀ node, ∀ ge ∈ graph.edgesAt node, (rescoreGraphEdge arena ge).isSome = true := by
  rw [rescoreGraphInPlace, Option.isSome_map, rescoreAdjacency, Loop.isSome_mapM]
  simp only [Loop.isSome_mapM]
  constructor
  · intro h node
    rcases lt_or_ge node graph.adjacency.length with hlt | hge
    · refine h (graph.edgesAt node) ?_
      rw [GraphStore.edgesAt, row_eq_getD, List.getD_eq_getElem _ _ hlt]
      exact List.getElem_mem hlt
    · rw [GraphStore.edgesAt, row_of_length_le hge]
      exact fun ge hge => by cases hge
  · intro h edges hedges
    rcases List.mem_iff_getElem.mp hedges with ⟨node, hlt, rfl⟩
    have hrow : graph.edgesAt node = graph.adjacency[node] := by
      rw [GraphStore.edgesAt, row_eq_getD, List.getD_eq_getElem _ _ hlt]
    exact hrow ▸ h node

lemma isSome_foldlM_rescoreAt {positions : List (ℕ × ℕ)} :
    (positions.foldlM (rescoreAt arena) rows).isSome = true ↔
      ∀ position ∈ positions, ∀ ge, (row rows position.1)[position.2]? = some ge →
        (rescoreGraphEdge arena ge).isSome = true := by
  induction positions generalizing rows with
  | nil => simp
  | cons position positions ih =>
      rw [List.foldlM_cons, List.forall_mem_cons, Option.bind_eq_bind]
      rcases position with ⟨node, place⟩
      cases hget : (row rows node)[place]? with
      | none =>
          have hfirst : rescoreAt arena rows (node, place) = some rows := by
            simp only [rescoreAt, hget]
          rw [hfirst, Option.bind_some, ih]
          simp
      | some ge =>
          cases hprice : rescoreGraphEdge arena ge with
          | none =>
              have hfirst : rescoreAt arena rows (node, place) = none := by
                simp only [rescoreAt, hget, hprice, Option.map_none]
              simp [hfirst, hprice]
          | some ge' =>
              have hfirst : rescoreAt arena rows (node, place) =
                  some (setRow rows node ((row rows node).set place ge')) := by
                simp only [rescoreAt, hget, hprice, Option.map_some]
              have hentry := (rescoreAt_spec hfirst).2
              rw [hfirst, Option.bind_some, ih]
              simp only [Option.some.injEq, forall_eq', hprice, Option.isSome_some, true_and]
              refine forall₂_congr fun position _ => ?_
              rw [(hentry position.1).2 position.2]
              split_ifs with hsame
              · rw [show position = (node, place) from hsame, hget, Option.bind_some, hprice]
                simp [rescoreGraphEdge_again hprice, hprice]
              · exact Iff.rfl

lemma isSome_rescorePools (hindex : graph.Indexed) :
    (rescorePoolsInPlace order arena graph pools).isSome = true ↔
      ∀ node, ∀ ge ∈ graph.edgesAt node, edgePool ge ∈ pools →
        (rescoreGraphEdge arena ge).isSome = true := by
  rw [rescorePoolsInPlace]
  split_ifs with hempty
  · simp [List.isEmpty_iff.mp hempty]
  · rw [Option.isSome_map, isSome_foldlM_rescoreAt]
    simp only [List.mem_flatMap, forall_exists_index, and_imp, Prod.forall]
    constructor
    · intro h node ge hge hpool
      rcases List.mem_iff_getElem?.mp hge with ⟨place, hplace⟩
      exact h node place _ hpool (((hindex _).mem_iff node place).mpr ⟨ge, hplace, rfl⟩) ge hplace
    · intro h node place pool hpool hpos ge hget
      rcases ((hindex pool).mem_iff node place).mp hpos with ⟨ge', hget', rfl⟩
      rw [hget] at hget'
      cases hget'
      exact h node ge (List.mem_of_getElem? hget) hpool

end Returns

/-! ## A graph that was rescored -/

section Current

variable {order : RoutingGraph → List Incidence} {arena arena' : StateArena} {start graph : GraphStore}
  {pools : List PoolIndex} {node : ℕ} {ge : GraphEdge}

variable (hsound : start.Sound) (hcurrent : rescoreGraphInPlace order arena start = some graph)
include hsound hcurrent

omit hsound in
lemma rescoreGraphEdge_of_rescored (hge : ge ∈ (start.edgesAt node).map (repriced arena)) :
    rescoreGraphEdge arena ge = some ge := by
  rcases List.mem_map.mp hge with ⟨old, hold, rfl⟩
  exact rescoreGraphEdge_again ((edgesAt_rescoreGraph hcurrent node).1 old hold)

/-- A live edge has the ratio its state gives it. -/
lemma rescoreGraphEdge_of_live (hge : ge ∈ graph.edgesAt node) (hlive : isLiveGraphEdge ge = true) :
    rescoreGraphEdge arena ge = some ge := by
  exact rescoreGraphEdge_of_rescored hcurrent ((liveAt_rescoreGraph hsound hcurrent hlive).mp hge).1

lemma repriced_of_live (hge : ge ∈ graph.edgesAt node) (hlive : isLiveGraphEdge ge = true) :
    repriced arena ge = ge := by
  rw [repriced, rescoreGraphEdge_of_live hsound hcurrent hge hlive, Option.getD_some]

omit hsound in
/-- What stubs share with their edges, the graph shares with its rescored rows. -/
lemma map_current_perm {α : Type*} {f : GraphEdge → α}
    (hf : ∀ ge ∈ (start.edgesAt node).map (repriced arena), f (kill ge) = f ge) :
    ((graph.edgesAt node).map f).Perm (((start.edgesAt node).map (repriced arena)).map f) := by
  rw [(edgesAt_rescoreGraph hcurrent node).2]
  refine ((perm_sortAdjacencyEdges _).map _).trans ?_
  split_ifs
  · exact map_thinParallelEdges hf _
  · exact .refl _

omit hsound in
/-- Repriced, the stubs are again what they were before thinning. -/
lemma map_repriced_perm : ((graph.edgesAt node).map (repriced arena)).Perm
    ((start.edgesAt node).map (repriced arena)) := by
  refine (map_current_perm hcurrent fun ge hge => ?_).trans (List.Perm.of_eq ?_)
  · refine repriced_kill ?_
    rw [rescoreGraphEdge_of_rescored hcurrent hge, Option.isSome_some]
  · refine (List.map_congr_left fun ge hge => ?_).trans (List.map_id _)
    rw [repriced, rescoreGraphEdge_of_rescored hcurrent hge]
    rfl

omit hsound in
/-- No stored edge fails to be priced again. -/
lemma isSome_of_current (hge : ge ∈ graph.edgesAt node) : (rescoreGraphEdge arena ge).isSome = true := by
  have hperm := map_current_perm hcurrent fun ge (_ : ge ∈ (start.edgesAt node).map (repriced arena)) =>
    rescoreGraphEdge_kill arena ge
  rcases List.mem_map.mp (hperm.mem_iff.mp (List.mem_map.mpr ⟨ge, hge, rfl⟩)) with ⟨x, hx, heq⟩
  rw [← heq, rescoreGraphEdge_of_rescored hcurrent hx, Option.isSome_some]

section Again

omit hsound

variable (hprice : ∀ node, ∀ ge ∈ (start.edgesAt node).map (repriced arena),
  (rescoreGraphEdge arena' ge).isSome = true)
include hprice

/-- A second rescore, of edges that all have a price in its arena. -/
lemma isSome_rescoreGraph_again : (rescoreGraphInPlace order arena' graph).isSome = true := by
  refine isSome_rescoreGraph.mpr fun node ge hge => ?_
  have hperm := map_current_perm hcurrent fun ge (_ : ge ∈ (start.edgesAt node).map (repriced arena)) =>
    rescoreGraphEdge_kill arena' ge
  rcases List.mem_map.mp (hperm.mem_iff.mp (List.mem_map.mpr ⟨ge, hge, rfl⟩)) with ⟨x, hx, heq⟩
  rw [← heq]
  exact hprice node x hx

lemma map_repriced_again (node : ℕ) : ((graph.edgesAt node).map (repriced arena')).Perm
    (((start.edgesAt node).map (repriced arena)).map (repriced arena')) :=
  map_current_perm hcurrent fun ge hge => repriced_kill (hprice node ge hge)

end Again

/-- Thinned rows stay as they are under thinning. -/
lemma best_of_live (hge : ge ∈ graph.edgesAt node) (hlive : isLiveGraphEdge ge = true) :
    Best (graph.edgesAt node) ge := by
  refine ⟨hge, fun hdirect => ?_⟩
  have hbest := (Best.congr (map_repriced_perm hcurrent)).mpr
    ((liveAt_rescoreGraph hsound hcurrent hlive).mp hge)
  refine lt_of_le_of_lt ?_ (hbest.2 hdirect)
  rw [List.filter_map, rank, rank, List.countP_map, List.countP_filter, List.countP_filter]
  refine List.countP_mono_left fun x hx hcount => ?_
  rw [Bool.and_eq_true, competes_iff] at hcount
  have hsame := repriced_of_live hsound hcurrent hx hcount.2.1
  rw [Function.comp_apply, Function.comp_apply, hsame, Bool.and_eq_true, competes_iff]
  exact hcount

variable (hchange : ChangedOnly pools arena arena')
include hchange

/-- The ratio of a clean live edge is still right. -/
lemma repriced_of_clean (hge : ge ∈ graph.edgesAt node) (hclean : edgePool ge ∉ pools)
    (hlive : isLiveGraphEdge ge = true) : repriced arena' ge = ge := by
  have hsame : rescoreGraphEdge arena' ge = rescoreGraphEdge arena ge :=
    rescoreGraphEdge_congr (hchange.states _ hclean) hchange.addresses hchange.decimals
  rw [repriced, hsame, rescoreGraphEdge_of_live hsound hcurrent hge hlive, Option.getD_some]

end Current

section Compare

variable {order : RoutingGraph → List Incidence} {gate : AttachGate} {arena arena' : StateArena}
  {start graph full part : GraphStore} {pools : List PoolIndex}

section Dirty

variable (hreach : GraphReachable order gate start)
  (hcurrent : rescoreGraphInPlace order arena start = some graph)
  (hchange : ChangedOnly pools arena arena')
include hreach hcurrent hchange

lemma isSome_rescorePools_iff :
    (rescorePoolsInPlace order arena' graph pools).isSome = true ↔
      (rescoreGraphInPlace order arena' graph).isSome = true := by
  rw [isSome_rescoreGraph, isSome_rescorePools (hreach.sound.rescoreGraph hcurrent).indexed]
  refine forall₃_congr fun node ge hge => ⟨fun h => ?_, fun h _ => h⟩
  by_cases hdirty : edgePool ge ∈ pools
  · exact h hdirty
  · rw [rescoreGraphEdge_congr (hchange.states _ hdirty) hchange.addresses hchange.decimals]
    exact isSome_of_current hcurrent hge

lemma sameLive_iff (hfull : rescoreGraphInPlace order arena' graph = some full)
    (hpart : rescorePoolsInPlace order arena' graph pools = some part) :
    SameLive full part ↔ StubsOutranked arena' graph pools := by
  have hsound := hreach.sound
  have hsound' : graph.Sound := hsound.rescoreGraph hcurrent
  refine forall_congr' fun node => ?_
  have hplace := repriced_place arena'
  have hphase : ∀ ge ∈ graph.edgesAt node, (repriced arena' ge).phase = ge.phase :=
    fun ge _ => congrArg Place.phase (hplace ge)
  have hlive : ∀ ge ∈ graph.edgesAt node, dirtyIn pools ge = false → isLiveGraphEdge ge = true →
      repriced arena' ge = ge := fun ge hge hclean =>
    repriced_of_clean hsound hcurrent hchange hge (of_decide_eq_false hclean)
  have hinj : ∀ x ∈ graph.edgesAt node, ∀ y ∈ graph.edgesAt node, competes (repriced arena' x) = true →
      repriced arena' x = repriced arena' y → x = y := by
    intro x hx y hy hcompetes heq
    have hx' : x.phase = .direct := (hphase x hx).symm.trans (competes_iff.mp hcompetes).2
    have hsame : x.place = y.place := by rw [← hplace x, ← hplace y, heq]
    have hy' : y.phase = .direct := (congrArg Place.phase hsame).symm.trans hx'
    refine List.inj_on_of_nodup_map ((rowOf_edgesAt graph node).nodup hsound') ?_ ?_
      (congrArg Place.pool hsame)
    · exact List.mem_filter.mpr ⟨hx, decide_eq_true hx'⟩
    · exact List.mem_filter.mpr ⟨hy, decide_eq_true hy'⟩
  have hthinned : ∀ ge, isLiveGraphEdge ge = true → ge ∈ graph.edgesAt node →
      Best (graph.edgesAt node) ge := fun ge hge hmem => best_of_live hsound hcurrent hmem hge
  have hrows : (∀ ge, isLiveGraphEdge ge = true → (ge ∈ full.edgesAt node ↔ ge ∈ part.edgesAt node)) ↔
      ∀ ge, isLiveGraphEdge ge = true → (Best ((graph.edgesAt node).map (repriced arena')) ge ↔
        Best ((graph.edgesAt node).map (partly (dirtyIn pools) (repriced arena'))) ge) := by
    refine forall₂_congr fun ge hge => ?_
    rw [liveAt_rescoreGraph hsound' hfull hge,
      liveAt_rescorePools hsound' hthinned hpart hge]
  rw [hrows, sameBest_iff hphase hlive hinj]
  refine forall_congr' fun ge => ?_
  rw [mem_rivals, ← rank_map, and_imp]
  refine forall_congr' fun hge => ?_
  constructor
  · intro h hclean hdead hpriced
    have hdirect : ge.phase = .direct := by
      by_contra hhub
      rw [isLiveGraphEdge_of_hub hhub] at hdead
      cases hdead
    refine h (competes_iff.mpr ⟨hpriced, (hphase ge hge).trans hdirect⟩) ?_
    rw [shown, hdead, Bool.or_false]
    exact decide_eq_false hclean
  · intro h hcompetes hhidden
    rw [shown, Bool.or_eq_false_iff] at hhidden
    exact h (of_decide_eq_false hhidden.1) hhidden.2 (competes_iff.mp hcompetes).1

end Dirty

/-- After a full rescore, rescoring the pools whose states changed leaves the live edges of a second
full rescore if and only if no stub of the other pools would come back. -/
theorem rescorePools_sameLive_iff (hreach : GraphReachable order gate start)
    (hcurrent : rescoreGraphInPlace order arena start = some graph)
    (hchange : ChangedOnly pools arena arena') :
    ((rescorePoolsInPlace order arena' graph pools).isSome = true ↔
      (rescoreGraphInPlace order arena' graph).isSome = true) ∧
    ∀ full part, rescoreGraphInPlace order arena' graph = some full →
      rescorePoolsInPlace order arena' graph pools = some part →
      (SameLive full part ↔ StubsOutranked arena' graph pools) :=
  ⟨isSome_rescorePools_iff hreach hcurrent hchange,
    fun _ _ hfull hpart => sameLive_iff hreach hcurrent hchange hfull hpart⟩

end Compare

/-! ### Three pools of a pair -/

/-- Three pools of one pair; the first has the given reserve of the second token. -/
def threePairArena (reserve : U256) : StateArena :=
  poolArena [1, 2] [9, 10, 11] [pairPool 1000000000000000000000 reserve,
    pairPool 1000000000000000000000 1000000000000000000000,
    pairPool 1000000000000000000000 990000000000000000000]

def threePairGraph : GraphStore :=
  let arena := threePairArena 1010000000000000000000
  let one := (attachPoolToGraph openGate (.new 0) arena (pairMeta 0 0 1)).2
  let two := (attachPoolToGraph openGate one arena (pairMeta 1 0 1)).2
  (attachPoolToGraph openGate two arena (pairMeta 2 0 1)).2

lemma reachable_threePairGraph : GraphReachable metOrder openGate threePairGraph := by
  set arena := threePairArena 1010000000000000000000 with harena
  have hop : ∀ index, GraphOp.Registered (.attachPool arena (pairMeta index 0 1)) := by
    intro index
    exact registered_pair (by decide) rfl index
  have hone : GraphReachable metOrder openGate
      (attachPoolToGraph openGate (.new 0) arena (pairMeta 0 0 1)).2 := .step (.init ⟨0, rfl⟩) (hop 0) rfl
  have htwo := Transition.Reachable.step hone (hop 1) rfl
  exact .step htwo (hop 2) rfl

lemma changedOnly_threePairArena (reserve reserve' : U256) :
    ChangedOnly [0] (threePairArena reserve) (threePairArena reserve') := by
  refine ⟨fun pool hpool => ?_, fun _ => rfl, fun _ => rfl⟩
  cases pool with
  | zero => exact absurd List.mem_cons_self hpool
  | succ pool => rfl

/-- The edge of the third pool after the first rescore, before it is thinned. -/
def thirdEdge : GraphEdge :=
  ((threePairGraph.edgesAt 0).map (repriced (threePairArena 1010000000000000000000))).get
    ⟨2, by decide⟩

lemma exists_rescored_threePairGraph :
    ∃ graph, rescoreGraphInPlace metOrder (threePairArena 1010000000000000000000) threePairGraph =
      some graph := by
  rw [← Option.isSome_iff_exists, rescoreGraphInPlace, Option.isSome_map]
  decide

theorem rescorePools_sameLive_iff_threePairs :
    ∃ graph, rescoreGraphInPlace metOrder (threePairArena 1010000000000000000000) threePairGraph =
        some graph ∧
      ∀ full part, rescoreGraphInPlace metOrder (threePairArena 900000000000000000000) graph =
          some full →
        rescorePoolsInPlace metOrder (threePairArena 900000000000000000000) graph [0] = some part →
        (SameLive full part ↔ StubsOutranked (threePairArena 900000000000000000000) graph [0]) := by
  rcases exists_rescored_threePairGraph with ⟨graph, hcurrent⟩
  have hchange := changedOnly_threePairArena 1010000000000000000000 900000000000000000000
  exact ⟨graph, hcurrent, (rescorePools_sameLive_iff reachable_threePairGraph hcurrent hchange).2⟩

/-- The first pool falls behind the third: rescored alone, it stays and the third stays a stub. -/
theorem rescorePools_hides_pair :
    GraphReachable metOrder openGate threePairGraph ∧ ∃ graph full part,
      rescoreGraphInPlace metOrder (threePairArena 1010000000000000000000) threePairGraph = some graph ∧
      ChangedOnly [0] (threePairArena 1010000000000000000000) (threePairArena 900000000000000000000) ∧
      rescoreGraphInPlace metOrder (threePairArena 900000000000000000000) graph = some full ∧
      rescorePoolsInPlace metOrder (threePairArena 900000000000000000000) graph [0] = some part ∧
      ¬ SameLive full part := by
  set arena := threePairArena 1010000000000000000000 with harena
  set arena' := threePairArena 900000000000000000000 with harena'
  have hchange : ChangedOnly [0] arena arena' := changedOnly_threePairArena _ _
  have hreach := reachable_threePairGraph
  rcases exists_rescored_threePairGraph with ⟨graph, hcurrent⟩
  -- every edge of the first rescore has a price in the second arena
  have hprice : ∀ node, ∀ ge ∈ (threePairGraph.edgesAt node).map (repriced arena),
      (rescoreGraphEdge arena' ge).isSome = true := by
    intro node
    rcases lt_or_ge node 2 with hlt | hge
    · interval_cases node <;> decide
    · have hnone : threePairGraph.edgesAt node = [] := row_of_length_le (show 2 ≤ node from hge)
      rw [hnone]
      intro ge hge
      cases hge
  have hreturns' : (rescoreGraphInPlace metOrder arena' graph).isSome = true :=
    isSome_rescoreGraph_again hcurrent hprice
  have hpartly := (isSome_rescorePools_iff hreach hcurrent hchange).mpr hreturns'
  rcases Option.isSome_iff_exists.mp hreturns' with ⟨full, hfull⟩
  rcases Option.isSome_iff_exists.mp hpartly with ⟨part, hpart⟩
  refine ⟨hreach, graph, full, part, hcurrent, hchange, hfull, hpart, ?_⟩
  rw [sameLive_iff hreach hcurrent hchange hfull hpart]
  intro hout
  have hmem : thirdEdge ∈ (threePairGraph.edgesAt 0).map (repriced arena) := List.get_mem _ _
  have hstub : kill thirdEdge ∈ graph.edgesAt 0 := by
    have hrowOf := rowOf_map fun ge (_ : ge ∈ threePairGraph.edgesAt 0) => repriced_place arena ge
    have htoken : 0 < threePairGraph.tokenCount := by decide
    rw [(edgesAt_rescoreGraph hcurrent 0).2, (perm_sortAdjacencyEdges _).mem_iff, if_pos htoken]
    exact kill_mem_thinParallelEdges (hrowOf.nodup hreach.sound) (by decide) hmem (by decide)
      (by decide)
  have hrevived : repriced arena' (kill thirdEdge) = repriced arena' thirdEdge := by
    exact repriced_kill (hprice 0 _ hmem)
  have hperm := map_repriced_again hcurrent hprice 0
  have hclean : (kill thirdEdge).edge.poolIndex ∉ [0] := by decide
  have hdead : isLiveGraphEdge (kill thirdEdge) = false := by decide
  have hlive : isLiveGraphEdge (repriced arena' (kill thirdEdge)) = true := by
    rw [hrevived]
    decide
  have hrank := hout 0 (kill thirdEdge) hstub hclean hdead hlive
  rw [hrevived, rank, (hperm.filter competes).countP_eq] at hrank
  exact absurd hrank (by decide)

end PolygonArb

import PolygonArb.Pipeline.PartialRescore

/-!
# The cached coverage over runs

The graph keeps a coverage until an operation forgets it, and computes one when there is none.  What
it was computed from was, at that time, every live incidence; it goes on covering the live edges as
long as no incidence comes to life while it is kept.

* `LiveAt` — the live incidences of a graph, and `liveAt_iff` that the coverage is computed from them.
* `Recorded` — the cached coverage comes from incidences that include the live ones.
* `Quiet` — a change that forgets the coverage or brings no incidence to life; `Recorded.quiet`.
* `KeepsCover` — what an operation must find for that, and `Recorded.step` that it is enough.

Thinning keeps the length of every row, so a rescore renews the coverage only if there is none:
`rescore_hides_route` is a pool that gets its price back.
-/

namespace PolygonArb

open ReverseIndex TopRanked Transition Word

/-- The pool and the tokens an edge joins while it is live. -/
def Place.incidences (p : Place) : List Incidence :=
  match p.phase with
  | .direct => [(p.pool, p.tokenIn), (p.pool, p.tokenOut)]
  | .enterPool => [(p.pool, p.tokenIn)]
  | .exitPool => [(p.pool, p.tokenOut)]

/-- A live edge joins the pool and the token. -/
def GraphStore.LiveAt (graph : GraphStore) (e : Incidence) : Prop :=
  ∃ node, ∃ ge ∈ graph.edgesAt node, isLiveGraphEdge ge = true ∧ e ∈ ge.place.incidences

/-! ## Live incidences -/

lemma Place.pool_of_mem_incidences {p : Place} {e : Incidence} (h : e ∈ p.incidences) : e.1 = p.pool := by
  rw [Place.incidences] at h
  split at h
  · rcases List.mem_cons.mp h with rfl | h
    · rfl
    · rw [List.mem_singleton.mp h]
  · rw [List.mem_singleton.mp h]
  · rw [List.mem_singleton.mp h]

namespace GraphStore

variable {graph graph' : GraphStore} {e : Incidence} {ge : GraphEdge} {node : ℕ}

lemma mem_incidences_of_tokenIncidences (h : e ∈ tokenIncidences ge) :
    isLiveGraphEdge ge = true ∧ e ∈ ge.place.incidences := by
  rw [tokenIncidences] at h
  split_ifs at h with hlive
  · refine ⟨hlive, ?_⟩
    cases hphase : ge.phase <;> simp_all [Place.incidences, GraphEdge.place]
  · cases h

lemma mem_incidences_of_hubIncidences (h : e ∈ hubIncidences ge) :
    isLiveGraphEdge ge = true ∧ e ∈ ge.place.incidences := by
  rw [hubIncidences] at h
  split_ifs at h with hlive
  · refine ⟨hlive.2, ?_⟩
    simpa [Place.incidences, GraphEdge.place, hlive.1] using h
  · cases h

lemma exists_mem_edgesAt {edges : List GraphEdge} (hedges : edges ∈ graph.adjacency) (hge : ge ∈ edges) :
    ∃ node, ge ∈ graph.edgesAt node := by
  rcases List.mem_iff_getElem?.mp hedges with ⟨node, hnode⟩
  refine ⟨node, ?_⟩
  rw [edgesAt, row, hnode]
  exact hge

/-- The coverage is computed from the live incidences. -/
lemma liveAt_iff (h : graph.LaidOut) : e ∈ liveIncidences graph.routing ↔ graph.LiveAt e := by
  constructor
  · intro he
    rw [liveIncidences, List.mem_append, List.mem_flatMap, List.mem_flatMap] at he
    rcases he with ⟨ge, hge, he⟩ | ⟨ge, hge, he⟩
    · rcases List.mem_flatten.mp hge with ⟨edges, hedges, hge⟩
      rcases exists_mem_edgesAt (List.mem_of_mem_take hedges) hge with ⟨node, hnode⟩
      exact ⟨node, ge, hnode, mem_incidences_of_tokenIncidences he⟩
    · rcases List.mem_flatten.mp hge with ⟨edges, hedges, hge⟩
      rcases exists_mem_edgesAt (List.mem_of_mem_drop hedges) hge with ⟨node, hnode⟩
      exact ⟨node, ge, hnode, mem_incidences_of_hubIncidences he⟩
  · rintro ⟨node, ge, hge, hlive, he⟩
    have hplace : ge.place ∈ graph.placesAt node := List.mem_map.mpr ⟨ge, hge, rfl⟩
    have hmem : ge ∈ graph.routing.edgesAt node := hge
    rcases lt_or_ge node graph.tokenCount with hnode | hnode
    · refine mem_liveIncidences_of_token (show node < graph.routing.tokenCount from hnode) hmem ?_
      rcases (h.token node hnode _ hplace).target with ⟨hphase, -⟩ | ⟨hphase, -⟩
      · replace hphase : ge.phase = .direct := hphase
        simpa [tokenIncidences, hlive, hphase, Place.incidences, GraphEdge.place] using he
      · replace hphase : ge.phase = .enterPool := hphase
        simpa [tokenIncidences, hlive, hphase, Place.incidences, GraphEdge.place] using he
    · refine mem_liveIncidences_of_hub (show graph.routing.tokenCount ≤ node from hnode) hmem ?_
      have hphase : ge.phase = .exitPool := (h.hub node hnode _ hplace).phase
      simpa [hubIncidences, hlive, hphase, Place.incidences, GraphEdge.place] using he

lemma LiveAt.lt (h : graph.LaidOut) (hslots : graph.Slotted) (he : graph.LiveAt e) :
    e.1 < graph.poolEdgePositions.length ∧ e.2 < graph.tokenCount := by
  rcases he with ⟨node, ge, hge, -, he⟩
  have hplace : ge.place ∈ graph.placesAt node := List.mem_map.mpr ⟨ge, hge, rfl⟩
  have hpool := hslots node _ hplace
  have hout : ge.place.tokenOut < graph.tokenCount := by
    rcases lt_or_ge node graph.tokenCount with hnode | hnode
    · exact (h.token node hnode _ hplace).tokenOut
    · exact (h.hub node hnode _ hplace).tokenOut
  have hin : ge.place.phase ≠ .exitPool → ge.place.tokenIn < graph.tokenCount := by
    intro hphase
    rcases lt_or_ge node graph.tokenCount with hnode | hnode
    · rw [(h.token node hnode _ hplace).tokenIn]
      exact hnode
    · exact absurd (h.hub node hnode _ hplace).phase hphase
  rw [Place.incidences] at he
  split at he
  · rename_i hphase
    rcases List.mem_cons.mp he with rfl | he
    · exact ⟨hpool, hin (by rw [hphase]; decide)⟩
    · rw [List.mem_singleton.mp he]
      exact ⟨hpool, hout⟩
  · rename_i hphase
    rw [List.mem_singleton.mp he]
    exact ⟨hpool, hin (by rw [hphase]; decide)⟩
  · rw [List.mem_singleton.mp he]
    exact ⟨hpool, hout⟩

end GraphStore

/-! ## Recorded coverages -/

/-- The cached coverage was computed from incidences that include the live ones. -/
def Recorded (graph : GraphStore) : Prop :=
  ∀ coverage, graph.coverage = some coverage →
    ∃ old incidences, old.tokenCount = graph.tokenCount ∧ incidences.Nodup ∧
      coverage = cycleCapableCoverage old incidences ∧
      ∀ e, graph.LiveAt e → e ∈ coverageEdges old incidences

/-- The coverage is forgotten, or nothing comes to life. -/
def Quiet (graph graph' : GraphStore) : Prop :=
  graph'.coverage = none ∨
    graph'.coverage = graph.coverage ∧ graph'.tokenCount = graph.tokenCount ∧
      ∀ e, graph'.LiveAt e → graph.LiveAt e

section Recorded

variable {order : RoutingGraph → List Incidence} {graph graph' graph'' : GraphStore}

lemma Quiet.refl (graph : GraphStore) : Quiet graph graph := .inr ⟨rfl, rfl, fun _ he => he⟩

lemma Quiet.trans (h : Quiet graph graph') (h' : Quiet graph' graph'') : Quiet graph graph'' := by
  rcases h' with hnone | ⟨hcoverage', htokens', hlive'⟩
  · exact .inl hnone
  · rcases h with hnone | ⟨hcoverage, htokens, hlive⟩
    · exact .inl (hcoverage'.trans hnone)
    · exact .inr ⟨hcoverage'.trans hcoverage, htokens'.trans htokens, fun e he => hlive e (hlive' e he)⟩

lemma Recorded.quiet (h : Recorded graph) (hquiet : Quiet graph graph') : Recorded graph' := by
  intro coverage hsome
  rcases hquiet with hnone | ⟨hcoverage, htokens, hlive⟩
  · rw [hnone] at hsome
    cases hsome
  · rcases h coverage (hcoverage ▸ hsome) with ⟨old, incidences, htoken, hnodup, heq, hall⟩
    exact ⟨old, incidences, htoken.trans htokens.symm, hnodup, heq, fun e he => hall e (hlive e he)⟩

lemma recorded_of_none (h : graph.coverage = none) : Recorded graph := by
  intro coverage hsome
  rw [h] at hsome
  cases hsome

/-- Rows, tokens and coverage are all that counts. -/
lemma quiet_of_edgesAt (hcoverage : graph'.coverage = graph.coverage)
    (htokens : graph'.tokenCount = graph.tokenCount)
    (hedges : ∀ node, graph'.edgesAt node = graph.edgesAt node) : Quiet graph graph' := by
  refine .inr ⟨hcoverage, htokens, ?_⟩
  rintro e ⟨node, ge, hge, hlive⟩
  exact ⟨node, ge, hedges node ▸ hge, hlive⟩

/-- A coverage that has just been computed. -/
lemma recorded_refresh (horder : ∀ graph, Enumerates graph (order graph)) (hlaid : graph.LaidOut)
    (hslots : graph.Slotted) : Recorded (refreshGraphCycleCoverage order graph) := by
  intro coverage hsome
  cases hsome
  refine ⟨graph.routing, order graph.routing, rfl, (horder _).nodup, rfl, fun e he => ?_⟩
  have he' : graph.LiveAt e := he
  have hlt := he'.lt hlaid hslots
  rw [coverageEdges, incidenceEdges, List.mem_filter, (horder _).mem_iff, GraphStore.liveAt_iff hlaid]
  refine ⟨he', ?_⟩
  rw [Bool.and_eq_true, decide_eq_true_eq, decide_eq_true_eq]
  exact hlt

/-- A recorded coverage holds what a new one would. -/
lemma Recorded.covers (h : Recorded graph) (hlaid : graph.LaidOut) {coverage : CycleCapableCoverage}
    (hsome : graph.coverage = some coverage) {incidences : List Incidence}
    (henum : Enumerates graph.routing incidences) :
    (cycleCapableCoverage graph.routing incidences).poolIndices ⊆ coverage.poolIndices ∧
      ∀ token, (cycleCapableCoverage graph.routing incidences).isTokenCapable token = true →
        coverage.isTokenCapable token = true := by
  rcases h coverage hsome with ⟨old, incidences', htokens, hnodup, rfl, hlive⟩
  have hsub : coverageEdges graph.routing incidences ⊆ coverageEdges old incidences' := by
    intro e he
    have hmem := (henum.mem_iff e).mp (List.mem_filter.mp he).1
    exact hlive e ((GraphStore.liveAt_iff hlaid).mp hmem)
  have hindexed : Indexed graph.tokenCount graph.routing.poolSlots (coverageEdges graph.routing incidences) :=
    indexed_incidenceEdges henum.nodup
  have hindexed' : Indexed graph.tokenCount old.poolSlots (coverageEdges old incidences') :=
    htokens ▸ indexed_incidenceEdges hnodup
  have hmono : ∀ pool, CycleCapable graph.routing incidences pool → CycleCapable old incidences' pool := by
    rintro pool ⟨token₁, token₂, hne, h₁, h₂⟩
    rw [CycleCapable, htokens]
    exact ⟨token₁, token₂, hne, NonBridge.mono hindexed hindexed' hsub h₁,
      NonBridge.mono hindexed hindexed' hsub h₂⟩
  constructor
  · intro pool hpool
    rw [mem_poolIndices_iff henum.nodup] at hpool
    rw [mem_poolIndices_iff hnodup]
    exact hmono pool hpool
  · intro token htoken
    rw [isTokenCapable_iff henum.nodup] at htoken
    rw [isTokenCapable_iff hnodup]
    rcases htoken with ⟨pool, hmem, hcapable⟩
    exact ⟨pool, hsub hmem, hmono pool hcapable⟩

end Recorded

/-! ## Attaching and removing -/

section Attach

variable {gate : AttachGate} {graph graph' : GraphStore} {arena : StateArena} {pool : PoolMeta}
  {state : PoolState}

lemma quiet_grow (graph : GraphStore) (tokenCount : ℕ) :
    Quiet graph (graph.ensureTokenCapacity tokenCount) := by
  rw [GraphStore.ensureTokenCapacity]
  split_ifs
  · exact .refl graph
  · exact .inl rfl

lemma quiet_removePool (h : graph.Indexed) (pool : PoolIndex) :
    Quiet graph (removePoolEdgesFromGraph graph pool) := by
  rcases h.removePool_cases pool with hsame | hnone
  · rw [hsame]
    exact .refl graph
  · exact .inl hnone

/-- Direct edges start dead. -/
lemma quiet_pushDirectEdge (arena : StateArena) (graph : GraphStore) (edge : Edge) :
    Quiet graph (pushDirectEdge arena graph edge) := by
  refine .inr ⟨rfl, rfl, ?_⟩
  rintro e ⟨node, ge, hge, hlive, he⟩
  rw [pushDirectEdge, GraphStore.edgesAt_pushEdgeAt] at hge
  split_ifs at hge
  · rcases List.mem_append.mp hge with hge | hge
    · exact ⟨node, ge, hge, hlive, he⟩
    · rw [List.mem_singleton.mp hge] at hlive
      cases hlive
  · exact ⟨node, ge, hge, hlive, he⟩

lemma quiet_foldl {β : Type*} {f : GraphStore → β → GraphStore} (hf : ∀ graph b, Quiet graph (f graph b))
    (bs : List β) (graph : GraphStore) : Quiet graph (bs.foldl f graph) := by
  induction bs generalizing graph with
  | nil => exact .refl graph
  | cons b bs ih => exact (hf graph b).trans (ih _)

/-- The legs of a hub pool, which are live at once. -/
def attachesHub (gate : AttachGate) (arena : StateArena) (pool : PoolMeta) : Bool :=
  match (arena.poolState pool.poolIndex).filter PoolState.isTradable with
  | none => false
  | some state =>
      gate.admissible arena pool && usesHubSpoke pool && decide (2 ≤ (fundedLegs arena pool state).length)

lemma coverage_foldl {β : Type*} {f : GraphStore → β → GraphStore}
    (hf : ∀ graph b, (f graph b).coverage = graph.coverage) (bs : List β) (graph : GraphStore) :
    (bs.foldl f graph).coverage = graph.coverage := by
  induction bs generalizing graph with
  | nil => rfl
  | cons b bs ih => exact (ih _).trans (hf graph b)

lemma coverage_pushEnterEdge (pool : PoolMeta) (hubNode : ℕ) (graph : GraphStore) (leg : ℕ × TokenIndex) :
    (pushEnterEdge pool hubNode graph leg).coverage = graph.coverage := rfl

lemma coverage_pushExitEdge (pool : PoolMeta) (hubNode : ℕ) (graph : GraphStore) (leg : ℕ × TokenIndex) :
    (pushExitEdge pool hubNode graph leg).coverage = graph.coverage := rfl

lemma coverage_attachHubSpokePool (graph : GraphStore) (arena : StateArena) (pool : PoolMeta)
    (state : PoolState) : (attachHubSpokePool graph arena pool state).coverage = graph.coverage := by
  rw [attachHubSpokePool]
  dsimp only
  split_ifs
  · rfl
  · rw [coverage_foldl (coverage_pushEnterEdge pool _), ensureV4SingletonHub]
    cases graph.v4SingletonHub <;> rfl
  · rw [coverage_foldl (coverage_pushExitEdge pool _), coverage_foldl (coverage_pushEnterEdge pool _)]
    rfl

/-- A pool is listed under once an edge of it has been pushed. -/
lemma poolHasEdges_foldl {β : Type*} {f : GraphStore → β → GraphStore} {pool : PoolIndex}
    (hf : ∀ graph b, (f graph b).poolHasEdges pool = true) {bs : List β} (hbs : bs ≠ [])
    (graph : GraphStore) : (bs.foldl f graph).poolHasEdges pool = true := by
  rcases List.eq_nil_or_concat bs with rfl | ⟨init, last, rfl⟩
  · exact absurd rfl hbs
  · rw [List.concat_eq_append, List.foldl_append]
    exact hf _ last

lemma poolHasEdges_pushEdgeAt (graph : GraphStore) (node : ℕ) (ge : GraphEdge) :
    (graph.pushEdgeAt node ge).poolHasEdges ge.edge.poolIndex = true := by
  rw [GraphStore.poolHasEdges, GraphStore.positionsOf, GraphStore.pushEdgeAt, row_setRow, if_pos rfl]
  simp

lemma poolHasEdges_pushEnterEdge (pool : PoolMeta) (hubNode : ℕ) (graph : GraphStore)
    (leg : ℕ × TokenIndex) :
    (pushEnterEdge pool hubNode graph leg).poolHasEdges pool.poolIndex = true :=
  poolHasEdges_pushEdgeAt graph leg.2 (hubLegEdge pool leg.1 leg.2 .enterPool hubNode)

lemma poolHasEdges_pushExitEdge (pool : PoolMeta) (hubNode : ℕ) (graph : GraphStore)
    (leg : ℕ × TokenIndex) :
    (pushExitEdge pool hubNode graph leg).poolHasEdges pool.poolIndex = true :=
  poolHasEdges_pushEdgeAt graph hubNode (hubLegEdge pool leg.1 leg.2 .exitPool leg.2)

lemma poolHasEdges_attachHubSpokePool (graph : GraphStore)
    (hfunded : 2 ≤ (fundedLegs arena pool state).length) :
    (attachHubSpokePool graph arena pool state).poolHasEdges pool.poolIndex = true := by
  have hne : fundedLegs arena pool state ≠ [] := List.ne_nil_of_length_pos (by omega)
  rw [attachHubSpokePool]
  dsimp only
  rw [if_neg (by omega)]
  split_ifs
  · exact poolHasEdges_foldl (poolHasEdges_pushEnterEdge pool _) hne _
  · exact poolHasEdges_foldl (poolHasEdges_pushExitEdge pool _) hne _

/-- A pool is attached to a hub, or with direct edges. -/
lemma attachEdges_cases (h : attachEdges graph arena pool state = some graph') :
    usesHubSpoke pool = true ∧ graph' = attachHubSpokePool graph arena pool state ∨
      ∃ edges : List Edge, graph' = edges.foldl (pushDirectEdge arena) graph := by
  rw [attachEdges] at h
  by_cases hspoke : usesHubSpoke pool = true
  · rw [if_pos hspoke] at h
    cases h
    exact .inl ⟨hspoke, rfl⟩
  · rw [if_neg hspoke] at h
    by_cases hpair : pool.tokens.length = 2
    · rw [if_pos hpair] at h
      simp only [Option.bind_eq_bind, Option.bind_eq_some_iff] at h
      rcases h with ⟨token0, -, token1, -, h⟩
      by_cases hsame : token0 = token1
      · rw [if_pos hsame] at h
        cases h
      · rw [if_neg hsame] at h
        exact .inr ⟨_, (Option.some.inj h).symm⟩
    · rw [if_neg hpair] at h
      cases h

lemma coverage_attachEdges (h : attachEdges graph arena pool state = some graph') :
    graph'.coverage = graph.coverage := by
  rcases attachEdges_cases h with ⟨-, rfl⟩ | ⟨edges, rfl⟩
  · exact coverage_attachHubSpokePool graph arena pool state
  · have hpush : ∀ graph edge, (pushDirectEdge arena graph edge).coverage = graph.coverage :=
      fun _ _ => rfl
    exact coverage_foldl hpush edges graph

/-- Only the legs of a hub come to life when they are attached. -/
lemma quiet_attachEdges (h : attachEdges graph arena pool state = some graph')
    (hhub : usesHubSpoke pool = true → (fundedLegs arena pool state).length < 2) : Quiet graph graph' := by
  rcases attachEdges_cases h with ⟨hspoke, rfl⟩ | ⟨edges, rfl⟩
  · rw [attachHubSpokePool, if_pos (hhub hspoke)]
    exact .refl graph
  · exact quiet_foldl (quiet_pushDirectEdge arena) edges graph

lemma quiet_attachAbsentPool (hcalm : graph.coverage = none ∨ graph.tokenCount < arena.tokenCount ∨
      attachesHub gate arena pool = false) :
    Quiet graph (attachAbsentPool gate graph arena pool).2 := by
  rw [attachAbsentPool]
  rw [attachesHub] at hcalm
  cases hstate : (arena.poolState pool.poolIndex).filter PoolState.isTradable with
  | none => exact .refl graph
  | some state =>
      rw [hstate] at hcalm
      dsimp only at hcalm ⊢
      cases hadmissible : gate.admissible arena pool with
      | false => exact .refl graph
      | true =>
          rw [hadmissible] at hcalm
          simp only [Bool.not_true, Bool.false_eq_true, if_false]
          have hgrow := quiet_grow graph arena.tokenCount
          cases hattach : attachEdges (graph.ensureTokenCapacity arena.tokenCount) arena pool state with
          | none => exact hgrow
          | some attached =>
              dsimp only
              have hkeep := coverage_attachEdges hattach
              rcases hcalm with hnone | hgrows | hhub
              · refine .inl (hkeep.trans ?_)
                rw [GraphStore.ensureTokenCapacity]
                split_ifs
                · exact hnone
                · rfl
              · refine .inl (hkeep.trans ?_)
                rw [GraphStore.ensureTokenCapacity, if_neg (not_le.mpr hgrows)]
              · refine hgrow.trans (quiet_attachEdges hattach fun hspoke => ?_)
                simpa [hspoke] using hhub

/-- A hub pool is attached, or not at all. -/
lemma attachAbsentPool_done (hhub : attachesHub gate arena pool = true) :
    (attachAbsentPool gate graph arena pool).1 = true := by
  rw [attachesHub] at hhub
  rw [attachAbsentPool]
  cases hstate : (arena.poolState pool.poolIndex).filter PoolState.isTradable with
  | none =>
      rw [hstate] at hhub
      cases hhub
  | some state =>
      rw [hstate] at hhub
      simp only [Bool.and_eq_true, decide_eq_true_eq] at hhub
      rcases hhub with ⟨⟨hadmissible, hspoke⟩, hfunded⟩
      simp only [hadmissible, attachEdges, hspoke, Bool.not_true, Bool.false_eq_true, if_false, if_true]
      exact poolHasEdges_attachHubSpokePool _ hfunded

/-- An attach that does nothing of the kind, or that does not succeed. -/
lemma quiet_attachPoolToGraph (h : graph.Sound)
    (hcalm : graph.coverage = none ∨ graph.tokenCount < arena.tokenCount ∨
      graph.poolHasEdges pool.poolIndex = true ∨ attachesHub gate arena pool = false ∨
      (attachPoolToGraph gate graph arena pool).1 = false) :
    Quiet graph (attachPoolToGraph gate graph arena pool).2 := by
  rw [attachPoolToGraph] at hcalm ⊢
  split_ifs with hlive hmatch hstubs
  · exact .refl graph
  · -- the stale edges are removed, and the coverage with them
    rcases h.indexed.removePool_cases pool.poolIndex with hsame | hnone
    · have hwithout := (h.removePool pool.poolIndex).2.1
      rw [hsame, GraphStore.without_iff h.indexed] at hwithout
      rw [GraphStore.poolHasLiveEdges, hwithout] at hlive
      cases hlive
    · exact Quiet.trans (.inl hnone) (quiet_attachAbsentPool (.inl hnone))
  · exact .refl graph
  · rw [if_neg hlive, if_neg hstubs] at hcalm
    refine quiet_attachAbsentPool ?_
    rcases hcalm with hnone | hgrows | hedges | hhub | hdone
    · exact .inl hnone
    · exact .inr (.inl hgrows)
    · exact absurd hedges hstubs
    · exact .inr (.inr hhub)
    · refine .inr (.inr (Bool.eq_false_of_not_eq_true fun hhub => ?_))
      rw [attachAbsentPool_done hhub] at hdone
      cases hdone

/-- As long as nothing has been attached, a batch is quiet. -/
lemma quiet_tryAttachMissingPool {start : GraphStore} {batch : GraphStore × List PoolIndex}
    (hsound : batch.1.Sound) (h : batch.2 = [] → Quiet start batch.1)
    (hnone : (tryAttachMissingPool gate arena batch pool).2 = []) :
    Quiet start (tryAttachMissingPool gate arena batch pool).1 := by
  rcases batch with ⟨graph, attached⟩
  simp only [tryAttachMissingPool] at hnone ⊢
  generalize hremoved : (if (graph.poolHasLiveEdges pool.poolIndex &&
    !poolDirectEdgesMatchMeta graph arena pool) = true then
      removePoolEdgesFromGraph graph pool.poolIndex else graph) = removed at hnone ⊢
  split_ifs at hnone ⊢ with hfull hworth hpresent hdone
  · exact h hnone
  · exact h hnone
  · exact h hnone
  · simp at hnone
  · have hquiet : Quiet graph removed := by
      rw [← hremoved]
      split_ifs
      · exact quiet_removePool hsound.indexed _
      · exact .refl graph
    have hremovedSound : removed.Sound := by
      rw [← hremoved]
      split_ifs
      · exact (hsound.removePool _).1
      · exact hsound
    exact (h hnone).trans (hquiet.trans
      (quiet_attachPoolToGraph hremovedSound (.inr (.inr (.inr (.inr (by simpa using hdone)))))))

variable (gate) in
lemma quiet_foldl_tryAttach {start : GraphStore} {pools : List PoolMeta}
    {batch : GraphStore × List PoolIndex} (hreg : ∀ pool ∈ pools, Registered arena pool)
    (hsound : batch.1.Sound) (h : batch.2 = [] → Quiet start batch.1) :
    (pools.foldl (tryAttachMissingPool gate arena) batch).1.Sound ∧
      ((pools.foldl (tryAttachMissingPool gate arena) batch).2 = [] →
        Quiet start (pools.foldl (tryAttachMissingPool gate arena) batch).1) := by
  induction pools generalizing batch with
  | nil => exact ⟨hsound, h⟩
  | cons pool pools ih =>
      exact ih (fun p hp => hreg p (List.mem_cons_of_mem _ hp))
        (hsound.tryAttach gate batch.2 (hreg pool List.mem_cons_self))
        (quiet_tryAttachMissingPool hsound h)

variable (gate) in
lemma quiet_attachMissingBatch {pools : List PoolMeta} (hsound : graph.Sound)
    (hreg : ∀ pool ∈ pools, Registered arena pool) :
    (attachMissingBatch gate arena graph pools).1.Sound ∧
      ((attachMissingBatch gate arena graph pools).2 = [] →
        Quiet graph (attachMissingBatch gate arena graph pools).1) := by
  have hpass : ∀ preferHub, ∀ pool ∈ pools.filter fun pool => poolTouchesHub gate arena pool = preferHub,
      Registered arena pool := fun _ pool hpool => hreg pool (List.mem_of_mem_filter hpool)
  set batch : GraphStore × List PoolIndex := (graph.ensureTokenCapacity arena.tokenCount, []) with hbatch
  have hgrown : batch.1.Sound := hsound.grow arena.tokenCount
  have hquiet : batch.2 = [] → Quiet graph batch.1 := fun _ => quiet_grow graph arena.tokenCount
  have hfirst := quiet_foldl_tryAttach gate (hpass true) hgrown hquiet
  exact quiet_foldl_tryAttach gate (hpass false) hfirst.1 hfirst.2

end Attach

/-! ## Rescoring -/

section Rescore

variable {order : RoutingGraph → List Incidence} {graph graph' : GraphStore} {arena : StateArena}
  {pools : List PoolIndex}

/-- A row is never longer or shorter for being thinned. -/
lemma thinChanges_eq_false (tokenCount : ℕ) (tokenSlots : Option (List ℕ)) (node : ℕ)
    (edges : List GraphEdge) : thinChanges tokenCount tokenSlots node edges = false := by
  have hlen := (map_place_thinParallelEdges edges maxParallelEdgesPerPair).length_eq
  rw [List.length_map, List.length_map] at hlen
  simp [thinChanges, hlen]

/-- So a compaction computes a coverage only if there is none. -/
lemma compactTokenAdjacency_eq_ite (order : RoutingGraph → List Incidence) (graph : GraphStore)
    (tokenSlots : Option (List ℕ)) :
    compactTokenAdjacency order graph tokenSlots =
      if graph.coverage.isNone then
        refreshGraphCycleCoverage order (rebuildPoolEdgePositionsForPools
          (graph.withRows (compactRow graph.tokenCount tokenSlots)) (compactedPools graph tokenSlots))
      else rebuildPoolEdgePositionsForPools
        (graph.withRows (compactRow graph.tokenCount tokenSlots)) (compactedPools graph tokenSlots) := by
  have hunchanged : (graph.adjacency.mapIdx (thinChanges graph.tokenCount tokenSlots)).any id = false := by
    refine List.any_eq_false.mpr fun b hb => ?_
    rcases List.mem_mapIdx.mp hb with ⟨i, hi, rfl⟩
    rw [thinChanges_eq_false]
    exact Bool.false_ne_true
  rw [compactTokenAdjacency]
  simp only [hunchanged, Bool.or_false]
  rfl

lemma GraphStore.Slotted.shrinks (h : graph.Slotted) (hshrinks : GraphStore.Shrinks graph graph')
    (hlen : graph.poolEdgePositions.length ≤ graph'.poolEdgePositions.length) : graph'.Slotted :=
  fun node p hp => (h node p ((hshrinks.places node).subset hp)).trans_le hlen

lemma length_rebuild_le (graph : GraphStore) (pools : List ℕ) :
    graph.poolEdgePositions.length ≤
      (rebuildPoolEdgePositionsForPools graph pools).poolEdgePositions.length := by
  simp [rebuildPoolEdgePositionsForPools, rebuild]

/-- Where there was no coverage, there is a new one; otherwise it is kept. -/
lemma compact_recorded (horder : ∀ graph, Enumerates graph (order graph)) (hlaid : graph.LaidOut)
    (hslots : graph.Slotted) (tokenSlots : Option (List ℕ)) :
    graph.coverage = none ∧ Recorded (compactTokenAdjacency order graph tokenSlots) ∨
      (compactTokenAdjacency order graph tokenSlots).coverage = graph.coverage := by
  have hshrinks : GraphStore.Shrinks graph (graph.withRows (compactRow graph.tokenCount tokenSlots)) :=
    .of_withRows (compactRow_nil _ _) fun node edges => (map_place_compactRow _ _ node edges).subperm
  have hrebuilt := hshrinks.rebuild (compactedPools graph tokenSlots)
  rw [compactTokenAdjacency_eq_ite]
  cases hcoverage : graph.coverage with
  | none =>
      have hlen := length_rebuild_le (graph.withRows (compactRow graph.tokenCount tokenSlots))
        (compactedPools graph tokenSlots)
      exact .inl ⟨rfl, recorded_refresh horder (hrebuilt.laidOut hlaid) (hslots.shrinks hrebuilt hlen)⟩
  | some coverage => exact .inr hcoverage

/-- After a full rescore: a coverage of the live edges if there was none, and otherwise the old one. -/
lemma coverage_rescoreGraph (hstep : rescoreGraphInPlace order arena graph = some graph') :
    graph'.tokenCount = graph.tokenCount ∧
      (graph.coverage = none → ∃ old, graph'.coverage = some (cycleCapableCoverage old (order old)) ∧
        liveIncidences old = liveIncidences graph'.routing) ∧
      (graph.coverage ≠ none → graph'.coverage = graph.coverage) := by
  rcases Option.map_eq_some_iff.mp hstep with ⟨rows, -, rfl⟩
  rw [compactTokenAdjacency_eq_ite]
  cases hcoverage : graph.coverage with
  | none => exact ⟨rfl, fun _ => ⟨_, rfl, rfl⟩, fun hne => absurd rfl hne⟩
  | some coverage => exact ⟨rfl, nofun, fun _ => rfl⟩

/-- A stub that gets its price back joins nothing that is not joined already. -/
def RevivesNothing (graph : GraphStore) (dirty : GraphEdge → Bool) (arena : StateArena) : Prop :=
  ∀ node, ∀ ge ∈ graph.edgesAt node, dirty ge = true → isLiveGraphEdge ge = false →
    isLiveGraphEdge (repriced arena ge) = true →
    Best ((graph.edgesAt node).map (partly dirty (repriced arena))) (repriced arena ge) →
    ∀ e ∈ ge.place.incidences, graph.LiveAt e

/-- An edge of a rescored row was live before, or is a stub that has come back. -/
lemma RevivesNothing.liveAt {dirty : GraphEdge → Bool} (h : RevivesNothing graph dirty arena) {node : ℕ}
    {ge : GraphEdge} (hlive : isLiveGraphEdge ge = true)
    (hbest : Best ((graph.edgesAt node).map (partly dirty (repriced arena))) ge) {e : Incidence}
    (he : e ∈ ge.place.incidences) : graph.LiveAt e := by
  rcases List.mem_map.mp hbest.1 with ⟨old, hold, rfl⟩
  rw [partly_place] at he
  cases holdLive : isLiveGraphEdge old with
  | true => exact ⟨node, old, hold, holdLive, he⟩
  | false =>
      cases hdirty : dirty old with
      | true =>
          have hprice : partly dirty (repriced arena) old = repriced arena old := by
            rw [partly, hdirty]
            rfl
          rw [hprice] at hlive hbest
          exact h node old hold hdirty holdLive hlive hbest e he
      | false =>
          rw [partly, hdirty] at hlive
          exact absurd (holdLive ▸ hlive) Bool.false_ne_true

/-- The same when only some rows are compacted. -/
lemma compactAffected_recorded (horder : ∀ graph, Enumerates graph (order graph)) (hsound : graph.Sound)
    (affected touched : List ℕ) :
    (compactAffected order graph affected touched).tokenCount = graph.tokenCount ∧
      (graph.coverage = none ∧ Recorded (compactAffected order graph affected touched) ∨
        (compactAffected order graph affected touched).coverage = graph.coverage) := by
  rw [compactAffected]
  dsimp only
  generalize affected.filter (fun node => decide (node < graph.tokenCount)) = slots
  generalize affected.filter (fun node => decide (graph.tokenCount ≤ node)) = hubs
  by_cases hempty : slots.isEmpty = true
  · rw [if_pos hempty]
    exact ⟨rfl, .inr rfl⟩
  · rw [if_neg hempty]
    have hshrinks := shrinks_sortRows graph hubs
    have hslots : (sortRows graph hubs).Slotted := hsound.indexed.slotted.shrinks hshrinks le_rfl
    have hcompact := compact_recorded horder (hshrinks.laidOut hsound.laidOut) hslots (some slots)
    have htokens : (compactTokenAdjacency order (sortRows graph hubs) (some slots)).tokenCount =
        graph.tokenCount := by
      rcases compactTokenAdjacency_eq order (sortRows graph hubs) (some slots) with ⟨coverage, heq⟩
      rw [heq]
      rfl
    split_ifs
    · exact ⟨htokens, hcompact⟩
    · refine ⟨htokens, hcompact.imp (And.imp id fun hnew => ?_) id⟩
      exact hnew.quiet (quiet_of_edgesAt rfl rfl fun _ => rfl)

section Step

variable (horder : ∀ graph, Enumerates graph (order graph)) (hsound : graph.Sound) (h : Recorded graph)
include horder hsound h

lemma recorded_rescoreGraph (hcalm : graph.coverage = none ∨ RevivesNothing graph (fun _ => true) arena)
    (hstep : rescoreGraphInPlace order arena graph = some graph') : Recorded graph' := by
  have hlive : ∀ node ge, isLiveGraphEdge ge = true → ge ∈ graph'.edgesAt node →
      Best ((graph.edgesAt node).map (repriced arena)) ge :=
    fun _ _ hge => (liveAt_rescoreGraph hsound hstep hge).mp
  rcases Option.map_eq_some_iff.mp hstep with ⟨rows, hrows, rfl⟩
  have hrescored := hsound.reshape (length_rescoreAdjacency hrows) fun node =>
    map_place_of_forall₂ ((rescoreAdjacency_row hrows node).imp fun _ _ => rescoreGraphEdge_place)
  rcases compact_recorded horder hrescored.laidOut hrescored.indexed.slotted none with
    ⟨-, hnew⟩ | hkept
  · exact hnew.quiet (quiet_of_edgesAt rfl rfl fun _ => rfl)
  · rcases hcalm with hnone | hcalm
    · exact recorded_of_none (hkept.trans hnone)
    · refine h.quiet (.inr ⟨hkept, (coverage_rescoreGraph hstep).1, ?_⟩)
      rintro e ⟨node, ge, hge, hgeLive, he⟩
      exact hcalm.liveAt hgeLive (hlive node ge hgeLive hge) he

lemma recorded_rescorePools (hcalm : graph.coverage = none ∨ RevivesNothing graph (dirtyIn pools) arena)
    (hstep : rescorePoolsInPlace order arena graph pools = some graph') : Recorded graph' := by
  have hlive : ∀ node ge, isLiveGraphEdge ge = true → ge ∈ graph'.edgesAt node →
      if node ∈ affectedAdjacencies graph pools then
        Best ((graph.edgesAt node).map (partly (dirtyIn pools) (repriced arena))) ge
      else ge ∈ graph.edgesAt node :=
    fun _ _ hge => (mem_rescorePools hsound hstep hge).mp
  rw [rescorePoolsInPlace] at hstep
  split_ifs at hstep
  · cases hstep
    exact h
  · rcases Option.map_eq_some_iff.mp hstep with ⟨rows, hrows, rfl⟩
    rcases compactAffected_recorded horder (hsound.rescored hrows).2 (affectedAdjacencies graph pools)
      (sortDedup (pools.filter fun pool => decide (pool < graph.poolEdgePositions.length))) with
      ⟨htokens, ⟨-, hnew⟩ | hkept⟩
    · exact hnew.quiet (quiet_of_edgesAt rfl rfl fun _ => rfl)
    · rcases hcalm with hnone | hcalm
      · exact recorded_of_none (hkept.trans hnone)
      · refine h.quiet (.inr ⟨hkept, htokens, ?_⟩)
        rintro e ⟨node, ge, hge, hgeLive, he⟩
        have hrow := hlive node ge hgeLive hge
        split_ifs at hrow
        · exact hcalm.liveAt hgeLive hrow he
        · exact ⟨node, ge, hrow, hgeLive, he⟩

end Step

end Rescore

/-! ## Runs -/

/-- What an operation must find so that nothing comes to life while a coverage is kept: the stubs a
rescore reprices stay stubs or are joined already, and no hub pool is attached. -/
def GraphOp.KeepsCover (gate : AttachGate) (graph : GraphStore) : GraphOp → Prop
  | .attachPool arena pool =>
      graph.coverage = none ∨ graph.tokenCount < arena.tokenCount ∨
        graph.poolHasEdges pool.poolIndex = true ∨ attachesHub gate arena pool = false
  | .rescoreGraph arena => graph.coverage = none ∨ RevivesNothing graph (fun _ => true) arena
  | .rescorePools arena pools => graph.coverage = none ∨ RevivesNothing graph (dirtyIn pools) arena
  | _ => True

/-- The states of the runs whose operations all keep the cover. -/
def CoverReachable (order : RoutingGraph → List Incidence) (gate : AttachGate) : GraphStore → Prop :=
  Reachable (graphStep order gate) (fun graph op => op.Registered ∧ op.KeepsCover gate graph) IsNewGraph

section Run

variable {order : RoutingGraph → List Incidence} {gate : AttachGate} {graph graph' : GraphStore}
  {op : GraphOp}

lemma Recorded.step (horder : ∀ graph, Enumerates graph (order graph)) (hsound : graph.Sound)
    (h : Recorded graph) (hop : op.Registered) (hcover : op.KeepsCover gate graph)
    (hstep : graphStep order gate graph op = some graph') : Recorded graph' := by
  cases op with
  | attachPool arena pool =>
      cases hstep
      refine h.quiet (quiet_attachPoolToGraph hsound ?_)
      rcases hcover with hnone | hgrows | hedges | hhub
      · exact .inl hnone
      · exact .inr (.inl hgrows)
      · exact .inr (.inr (.inl hedges))
      · exact .inr (.inr (.inr (.inl hhub)))
  | attachMissing arena pools =>
      have hbatch := quiet_attachMissingBatch gate hsound hop
      simp only [graphStep, attachMissingEligiblePools] at hstep
      split_ifs at hstep with hempty
      · cases hstep
        exact h.quiet (hbatch.2 (List.isEmpty_iff.mp hempty))
      · rcases Option.map_eq_some_iff.mp hstep with ⟨rescored, hrescored, rfl⟩
        have hrescoredSound := hbatch.1.rescorePools hrescored
        exact recorded_refresh horder hrescoredSound.laidOut hrescoredSound.indexed.slotted
  | growTokens tokenCount =>
      cases hstep
      exact h.quiet (quiet_grow graph tokenCount)
  | removePool pool =>
      cases hstep
      exact h.quiet (quiet_removePool hsound.indexed pool)
  | rescoreGraph arena => exact recorded_rescoreGraph horder hsound h hcover hstep
  | rescorePools arena pools => exact recorded_rescorePools horder hsound h hcover hstep
  | refreshCoverage =>
      cases hstep
      exact recorded_refresh horder hsound.laidOut hsound.indexed.slotted

lemma CoverReachable.recorded (horder : ∀ graph, Enumerates graph (order graph))
    (h : CoverReachable order gate graph) : graph.Sound ∧ Recorded graph := by
  refine Reachable.inv (fun graph => graph.Sound ∧ Recorded graph) ?_ ?_ h
  · rintro _ ⟨tokenCount, rfl⟩
    exact ⟨GraphStore.sound_new tokenCount, recorded_of_none rfl⟩
  · rintro graph op graph' ⟨hsound, hrecorded⟩ ⟨hop, hcover⟩ hstep
    exact ⟨hsound.step hop hstep, hrecorded.step horder hsound hop hcover hstep⟩

/-- Over such runs the cached coverage has every pool and token of a new one, and the active graph has
the edges of every closed route. -/
theorem cached_coverage_covers (horder : ∀ graph, Enumerates graph (order graph))
    (h : CoverReachable order gate graph) {incidences : List Incidence}
    (henum : Enumerates graph.routing incidences) :
    (∀ coverage, graph.coverage = some coverage →
      (cycleCapableCoverage graph.routing incidences).poolIndices ⊆ coverage.poolIndices ∧
        ∀ token, (cycleCapableCoverage graph.routing incidences).isTokenCapable token = true →
          coverage.isTokenCapable token = true) ∧
    ∀ (n : ℕ) (tokens pools : Fin (n + 2) → ℕ) (edges : Fin (n + 2) → List (ℕ × GraphEdge)),
      GraphRoute graph.routing tokens pools edges → ∀ i, ∀ e ∈ edges i,
        e.2 ∈ (prepareActiveGraph graph.routing incidences).edgesAt e.1 := by
  rcases h.recorded horder with ⟨hsound, hrecorded⟩
  refine ⟨fun coverage hsome => hrecorded.covers hsound.laidOut hsome henum, ?_⟩
  intro n tokens pools edges hroute i
  have hcapable := ((hroute.closedRoute henum).covered henum.nodup i).2
  refine (hroute.hops i).kept ?_
  rw [activeCoverage, show graph.routing.coverage = graph.coverage from rfl]
  cases hsome : graph.coverage with
  | none => exact hcapable
  | some coverage => exact (hrecorded.covers hsound.laidOut hsome henum).2 _ hcapable

end Run

/-! ### A pool that is drained and filled -/

/-- Two pools of a pair; the second has the given reserves. -/
def twoPairArena (reserve : U256) : StateArena :=
  poolArena [1, 2] [9, 10] [pairPool 1000000000000000000000 1000000000000000000000,
    pairPool reserve reserve]

def fullArena : StateArena := twoPairArena 1000000000000000000000

def drainedArena : StateArena := twoPairArena 0

def twoPairGraph : GraphStore :=
  let one := (attachPoolToGraph openGate (.new 0) fullArena (pairMeta 0 0 1)).2
  (attachPoolToGraph openGate one fullArena (pairMeta 1 0 1)).2

lemma coverReachable_twoPairGraph : CoverReachable metOrder openGate twoPairGraph := by
  have hop : ∀ index, GraphOp.Registered (.attachPool fullArena (pairMeta index 0 1)) :=
    fun index => registered_pair (by decide) rfl index
  have hone : CoverReachable metOrder openGate
      (attachPoolToGraph openGate (.new 0) fullArena (pairMeta 0 0 1)).2 :=
    .step (.init ⟨0, rfl⟩) ⟨hop 0, .inl rfl⟩ rfl
  exact .step hone ⟨hop 1, .inl rfl⟩ rfl

lemma isSome_rescored_twoPairGraph (reserve : U256) (h : reserve = 0 ∨ reserve = 1000000000000000000000) :
    (rescoreGraphInPlace metOrder (twoPairArena reserve) twoPairGraph).isSome = true := by
  rw [rescoreGraphInPlace, Option.isSome_map]
  rcases h with rfl | rfl <;> decide

theorem cached_coverage_covers_twoPairs :
    ∃ graph coverage, rescoreGraphInPlace metOrder fullArena twoPairGraph = some graph ∧
      graph.coverage = some coverage ∧
      (cycleCapableCoverage graph.routing (metOrder graph.routing)).poolIndices ⊆ coverage.poolIndices := by
  rcases Option.isSome_iff_exists.mp (isSome_rescored_twoPairGraph _ (.inr rfl)) with ⟨graph, hgraph⟩
  have hreach : CoverReachable metOrder openGate graph :=
    .step (a := .rescoreGraph _) coverReachable_twoPairGraph ⟨trivial, .inl rfl⟩ hgraph
  rcases (coverage_rescoreGraph hgraph).2.1 rfl with ⟨old, hcoverage, -⟩
  have hcovers := cached_coverage_covers enumerates_metOrder hreach (enumerates_metOrder graph.routing)
  exact ⟨graph, _, hgraph, hcoverage, (hcovers.1 _ hcoverage).1⟩

/-- A fact about the rows of the graph, checked row by row. -/
lemma forall_edgesAt_twoPairGraph {P : GraphEdge → Prop} (h0 : ∀ ge ∈ twoPairGraph.edgesAt 0, P ge)
    (h1 : ∀ ge ∈ twoPairGraph.edgesAt 1, P ge) (node : ℕ) : ∀ ge ∈ twoPairGraph.edgesAt node, P ge := by
  rcases lt_or_ge node 2 with hlt | hge
  · interval_cases node
    · exact h0
    · exact h1
  · have hnone : twoPairGraph.edgesAt node = [] := row_of_length_le (show 2 ≤ node from hge)
    rw [hnone]
    intro ge hge
    cases hge

/-- While the second pool is drained nothing is on a cycle. -/
lemma coverage_drained {cold : GraphStore}
    (hcold : rescoreGraphInPlace metOrder drainedArena twoPairGraph = some cold) :
    ∃ coverage, cold.coverage = some coverage ∧ ∀ token, coverage.isTokenCapable token = false := by
  have hsound := (coverReachable_twoPairGraph.recorded enumerates_metOrder).1
  rcases (coverage_rescoreGraph hcold).2.1 rfl with ⟨old, hcoverage, hold⟩
  have henum := enumerates_metOrder old
  have hpool : ∀ node, ∀ ge ∈ twoPairGraph.edgesAt node,
      isLiveGraphEdge (repriced drainedArena ge) = true → (repriced drainedArena ge).place.pool = 0 :=
    forall_edgesAt_twoPairGraph (by decide) (by decide)
  have hsingle : ∀ e ∈ coverageEdges old (metOrder old), e.1 = 0 := by
    intro e he
    have hmem := (henum.mem_iff e).mp (List.mem_filter.mp he).1
    rw [hold, GraphStore.liveAt_iff (hsound.rescoreGraph hcold).laidOut] at hmem
    rcases hmem with ⟨node, ge, hge, hlive, he⟩
    rcases List.mem_map.mp ((liveAt_rescoreGraph hsound hcold hlive).mp hge).1 with ⟨x, hx, rfl⟩
    exact (Place.pool_of_mem_incidences he).trans (hpool node x hx hlive)
  refine ⟨_, hcoverage, fun token => Bool.eq_false_of_not_eq_true fun htoken => ?_⟩
  rcases (isTokenCapable_iff henum.nodup token).mp htoken with ⟨pool, hmem, token₁, _, _, hnon, _⟩
  have hzero : pool = 0 := hsingle _ hmem
  subst hzero
  exact not_nonBridge_of_single (indexed_incidenceEdges henum.nodup) hsingle hnon

lemma price_full (node : ℕ) : ∀ ge ∈ (twoPairGraph.edgesAt node).map (repriced drainedArena),
    (rescoreGraphEdge fullArena ge).isSome = true := by
  have hprice : ∀ node, ∀ ge ∈ twoPairGraph.edgesAt node,
      (rescoreGraphEdge fullArena (repriced drainedArena ge)).isSome = true :=
    forall_edgesAt_twoPairGraph (by decide) (by decide)
  intro ge hge
  rcases List.mem_map.mp hge with ⟨x, hx, rfl⟩
  exact hprice node x hx

/-- The edges of the two rows once both pools have a price. -/
def filledRow (node : ℕ) : List GraphEdge :=
  ((twoPairGraph.edgesAt node).map (repriced drainedArena)).map (repriced fullArena)

/-- Out through the first pool. -/
def filledOut : GraphEdge := (filledRow 0).get ⟨0, by decide +kernel⟩

/-- Back through the second. -/
def filledBack : GraphEdge := (filledRow 1).get ⟨1, by decide +kernel⟩

lemma best_filledOut : Best (filledRow 0) filledOut := ⟨List.get_mem _ _, by decide⟩

lemma best_filledBack : Best (filledRow 1) filledBack := ⟨List.get_mem _ _, by decide⟩

/-- The pool is filled again: the coverage of the drained time is kept, and a route is dropped. -/
theorem rescore_hides_route :
    ∃ cold warm coverage,
      rescoreGraphInPlace metOrder drainedArena twoPairGraph = some cold ∧
      rescoreGraphInPlace metOrder fullArena cold = some warm ∧
      GraphReachable metOrder openGate warm ∧ warm.coverage = some coverage ∧
      (cycleCapableCoverage warm.routing (metOrder warm.routing)).isTokenCapable 0 = true ∧
      coverage.isTokenCapable 0 = false ∧
      ∃ edges, GraphRoute (n := 0) warm.routing ![0, 1] ![0, 1] edges ∧
        ∃ e ∈ edges 0, e.2 ∉ (prepareActiveGraph warm.routing (metOrder warm.routing)).edgesAt e.1 := by
  rcases Option.isSome_iff_exists.mp (isSome_rescored_twoPairGraph 0 (.inl rfl)) with ⟨cold, hcold⟩
  rcases Option.isSome_iff_exists.mp (isSome_rescoreGraph_again hcold price_full) with ⟨warm, hwarm⟩
  rcases coverage_drained hcold with ⟨coverage, hcoverage, hincapable⟩
  have hsound := (coverReachable_twoPairGraph.recorded enumerates_metOrder).1
  have hcoldSound := hsound.rescoreGraph hcold
  have hwarmSound := hcoldSound.rescoreGraph hwarm
  have hkept : warm.coverage = some coverage := by
    rw [(coverage_rescoreGraph hwarm).2.2 (by rw [hcoverage]; nofun), hcoverage]
  have htokens : warm.tokenCount = 2 :=
    (coverage_rescoreGraph hwarm).1.trans (coverage_rescoreGraph hcold).1
  have hout : filledOut ∈ warm.edgesAt 0 :=
    (liveAt_rescoreGraph hcoldSound hwarm (by decide)).mpr
      ((Best.congr (map_repriced_again hcold price_full 0)).mpr best_filledOut)
  have hback : filledBack ∈ warm.edgesAt 1 :=
    (liveAt_rescoreGraph hcoldSound hwarm (by decide)).mpr
      ((Best.congr (map_repriced_again hcold price_full 1)).mpr best_filledBack)
  have hroute : GraphRoute (n := 0) warm.routing ![0, 1] ![0, 1]
      ![[(0, filledOut)], [(1, filledBack)]] := by
    have hslots := hwarmSound.indexed.slotted
    refine ⟨by decide, by decide, fun i => ?_, fun i => ?_, fun i => ?_⟩
    · show _ < warm.tokenCount
      rw [htokens]
      fin_cases i <;> decide
    · fin_cases i
      · exact hslots 0 filledOut.place (List.mem_map.mpr ⟨_, hout, rfl⟩)
      · exact hslots 1 filledBack.place (List.mem_map.mpr ⟨_, hback, rfl⟩)
    · fin_cases i
      · exact .direct hout (by decide) (by decide) (by decide)
          (by decide) (by decide)
      · exact .direct hback (by decide) (by decide) (by decide)
          (by decide) (by decide)
  have hreach : GraphReachable metOrder openGate warm := by
    have hstart : GraphReachable metOrder openGate twoPairGraph :=
      coverReachable_twoPairGraph.mono fun _ _ hok => hok.1
    have hreach : GraphReachable metOrder openGate cold := .step (a := .rescoreGraph _) hstart trivial hcold
    exact .step (a := .rescoreGraph _) hreach trivial hwarm
  have henum := enumerates_metOrder warm.routing
  refine ⟨cold, warm, coverage, hcold, hwarm, hreach, hkept, ?_, hincapable 0, _, hroute, (0, filledOut),
    List.mem_cons_self, ?_⟩
  · exact ((hroute.closedRoute henum).covered henum.nodup 0).2
  · rw [mem_edgesAt_prepareActiveGraph]
    rintro ⟨-, -, hcapable⟩
    have htoken : coverage.isTokenCapable 0 = true := by
      have hactive := hcapable (show 0 < warm.tokenCount by rw [htokens]; decide)
      rwa [activeCoverage, show warm.routing.coverage = some coverage from hkept] at hactive
    rw [hincapable 0] at htoken
    cases htoken

end PolygonArb

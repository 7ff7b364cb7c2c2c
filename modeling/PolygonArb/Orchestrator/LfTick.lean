import PolygonArb.Lib.Transition
import PolygonArb.Orchestrator.LfPass
import PolygonArb.Pipeline.ArenaStability
import PolygonArb.Pipeline.GraphRun

/-!
# LF ticks

The part of `run_lf_tick` that decides what the cached graph is used with: the arena is synced with
discovery, the cached cycles are dropped when that rebuilt the indices, and a pass runs on the synced
arena.

Graph and cycles hold `PoolIndex` and `TokenIndex` values, so they may outlive a sync only if it kept the
indices.  A rebuild of the indices drops the cycles but not the graph, and the tests for a rebuild of the
graph look at the number of pools and at the fingerprint: an arena rebuilt with more pools than before
passes for one that grew.

* `LfTick.KeepsUp` — a sync that rebuilds the indices is followed by a rebuild of the graph.
* `TickState` — the arena and the cache, with the edges held since, which are proof-only.
* `cached_indices_denote` — while every tick keeps up, what was held before and is held now denotes the
  same addresses; `rebuilt_arena_keeps_graph` is a tick that does not.
-/

namespace PolygonArb

open Transition

/-! ## The tick -/

/-- What a tick reads: discovery and the cache at the sync, then what the pass reads.  The drained
addresses come in the order of the hash set. -/
structure LfTick where
  env : LfEnv
  cache : StateCache
  pools : List DiscoveredPool
  addressIndex : Address → Option ℕ
  hints : DecimalHints
  freezeAppend : Bool
  observed : List Address
  drained : List Address
  redrained : List Address
  hotCache : StateCache
  generation : ℕ
  maxPaths : ℕ

/-- The cache as the pass finds it. -/
def GraphCache.afterSync (cache : GraphCache) (report : ArenaSyncReport) : GraphCache :=
  if report.indicesRebuilt then cache.advancePass.invalidateCycles else cache.advancePass

namespace LfTick

variable (tick : LfTick)

def sync (arena : StateArena) : Run (ArenaSyncReport × StateArena) :=
  arena.clone.syncFromDiscoveryGated tick.env.fx tick.cache tick.pools tick.addressIndex tick.hints
    tick.freezeAppend

def work (report : ArenaSyncReport) (arena : StateArena) : LfCpuWork :=
  let indices := fun addresses : List Address => addresses.filterMap arena.inner.addressToPool
  overlayDirtyCacheStates
    { arena := arena.clone
      poolMetas := report.metas
      dirtyPools :=
        mergeDirtyPoolIndices (indices tick.drained) report.invalidatedPoolIndices
      stateGeneration := tick.generation
      maxPaths := tick.maxPaths
      observedPoolIndices := indices tick.observed }
    (indices tick.redrained) tick.hotCache tick.generation

/-- The overlay leaves the tables of the arena alone. -/
lemma inner_work (report : ArenaSyncReport) (arena : StateArena) :
    (tick.work report arena).arena.inner = arena.inner := by
  rw [work, overlayDirtyCacheStates]
  dsimp only
  split_ifs
  · rfl
  · rw [StateArena.applyHotCache, StateArena.inner_applyHotCacheUnique]
    rfl

end LfTick

/-! ## What is held across ticks -/

/-- What an edge points with. -/
structure EdgeIndices where
  pool : PoolIndex
  tokenIn : TokenIndex
  tokenOut : TokenIndex
  deriving DecidableEq

def Edge.indices (e : Edge) : EdgeIndices := ⟨e.poolIndex, e.tokenIn, e.tokenOut⟩

def GraphStore.edges (graph : GraphStore) : List Edge := graph.adjacency.flatten.map GraphEdge.edge

/-- What the edge denotes in one arena it denotes in the other. -/
structure SameAddresses (arena arena' : StateArena) (e : Edge) : Prop where
  pool : ∀ address, arena.inner.poolAddresses[e.poolIndex]? = some address →
    arena'.inner.poolAddresses[e.poolIndex]? = some address
  tokenIn : ∀ address, arena.tokenAddress e.tokenIn = some address →
    arena'.tokenAddress e.tokenIn = some address
  tokenOut : ∀ address, arena.tokenAddress e.tokenOut = some address →
    arena'.tokenAddress e.tokenOut = some address

/-- The arena and the cache after a tick.  `graphSince` has the edges of the graph after every pass since
it was built, `indexedSince` those of the graph and the cycles since the indices were rebuilt, each with
the arena of its pass: an edge that was never let go of is there from the pass on that created it. -/
structure TickState where
  arena : StateArena
  cache : GraphCache
  graphSince : List (StateArena × List Edge)
  indexedSince : List (StateArena × List Edge)

def cycleEdges (cycles : List FoundCycle) : List Edge := cycles.flatMap FoundCycle.edges

/-- The edges of the graph and of the cycles. -/
def GraphCache.heldEdges (cache : GraphCache) : List Edge :=
  (cache.graph.map GraphStore.edges).getD [] ++ cycleEdges (cache.cycles.getD [])

namespace TickState

/-- A program that has just started, on any arena. -/
def Fresh (s : TickState) : Prop := s.cache.Fresh ∧ s.graphSince = [] ∧ s.indexedSince = []

def step (s : TickState) (tick : LfTick) : Run TickState := do
  let (report, arena) ← tick.sync s.arena
  let cache := s.cache.afterSync report
  let work := tick.work report arena
  let (after, result) ← runLfCpuWork tick.env work cache
  some
    { arena := arena.clone
      cache := after
      graphSince := (work.arena, result.graph.edges) ::
        if work.needsRebuild cache then [] else s.graphSince
      indexedSince := (work.arena, after.heldEdges) ::
        if report.indicesRebuilt then [] else s.indexedSince }

/-- Where the sync rebuilds the indices, the pass rebuilds the graph. -/
def KeepsUp (s : TickState) (tick : LfTick) : Prop :=
  ∀ report arena, tick.sync s.arena = some (report, arena) → report.indicesRebuilt = true →
    (tick.work report arena).needsRebuild (s.cache.afterSync report) = true

/-- Every edge of the cache denotes what it denoted in every arena it was held with. -/
def Denotes (s : TickState) : Prop :=
  ∀ past ∈ s.graphSince ++ s.indexedSince, ∀ e ∈ s.cache.heldEdges,
    (∃ e' ∈ past.2, e'.indices = e.indices) → SameAddresses past.1 s.arena e

/-- The arenas of the past kept their indices. -/
def Kept (s : TickState) : Prop :=
  ∀ past ∈ s.graphSince ++ s.indexedSince, IndicesKept past.1.inner s.arena.inner

variable {s s' : TickState} {tick : LfTick}

lemma sameAddresses_of_kept {arena arena' : StateArena} (h : IndicesKept arena.inner arena'.inner)
    (e : Edge) : SameAddresses arena arena' e where
  pool _ hpool := h.pools.getElem?_eq hpool
  tokenIn _ htoken := h.tokens.getElem?_eq htoken
  tokenOut _ htoken := h.tokens.getElem?_eq htoken

lemma Kept.denotes (h : s.Kept) : s.Denotes :=
  fun past hpast e _ _ => sameAddresses_of_kept (h past hpast) e

/-- A past that is not forgotten saw a sync that kept the indices. -/
lemma Kept.step (h : s.Kept) (hkeeps : s.KeepsUp tick) (hstep : s.step tick = some s') : s'.Kept := by
  simp only [TickState.step, Option.bind_eq_bind, Option.bind_eq_some_iff, Prod.exists,
    Option.some.injEq] at hstep
  rcases hstep with ⟨report, arena, hsync, after, result, -, rfl⟩
  have hnow : IndicesKept (tick.work report arena).arena.inner arena.inner := by
    rw [tick.inner_work]
    exact .refl _
  intro past hpast
  show IndicesKept past.1.inner arena.inner
  cases hindices : report.indicesRebuilt with
  | true =>
      simp only [hkeeps report arena hsync hindices, hindices, if_true, List.mem_append,
        List.mem_singleton] at hpast
      rcases hpast with rfl | rfl
      · exact hnow
      · exact hnow
  | false =>
      have hsynced : IndicesKept s.arena.inner arena.inner :=
        StateArena.indicesKept_syncTradable tick.env.fx s.arena.clone hsync hindices
      have hgraph : past ∈ (if (tick.work report arena).needsRebuild (s.cache.afterSync report) then []
          else s.graphSince) → past ∈ s.graphSince := by
        split_ifs
        · nofun
        · exact id
      simp only [hindices, Bool.false_eq_true, if_false, List.mem_append, List.mem_cons] at hpast
      rcases hpast with (rfl | hpast) | rfl | hpast
      · exact hnow
      · exact (h past (List.mem_append_left _ (hgraph hpast))).trans hsynced
      · exact hnow
      · exact (h past (List.mem_append_right _ hpast)).trans hsynced

end TickState

/-! ## Runs -/

open TickState in
/-- While the graph is rebuilt wherever the indices are, every edge the cache holds, in the graph or in a
cycle, denotes the addresses it denoted in every pass that held it. -/
theorem cached_indices_denote {s : TickState} (h : Reachable TickState.step KeepsUp Fresh s) :
    s.Denotes := by
  have hkept : s.Kept := by
    refine h.inv Kept ?_ fun _ _ _ hkept hkeeps hstep => hkept.step hkeeps hstep
    rintro s ⟨-, hgraph, hindexed⟩
    rw [Kept, hgraph, hindexed]
    nofun
  exact hkept.denotes

/-! ### Two pools in the place of one -/

def tickEnv : LfEnv where
  fx := mixHash
  incidences := metOrder
  drain := ⟨id, perm_id⟩
  gate := { openGate with worthCapped := fun _ _ => false }
  openGate := openGate
  obsStarts := fun _ _ => []
  findCycles := fun _ => []

/-- A tick that discovers a funded pair of its own tokens at each of the addresses. -/
def pairTick (addresses : List ℕ) : LfTick where
  env := tickEnv
  cache := ⟨addresses.map fun a => ⟨BitVec.ofNat 160 a, ⟨some a, fundedV2⟩, 1, true⟩, 1⟩
  pools := addresses.map fun a =>
    ⟨BitVec.ofNat 160 a, .uniswapV2, [BitVec.ofNat 160 (a + 1), BitVec.ofNat 160 (a + 2)], 30, none⟩
  addressIndex := fun address =>
    (addresses.map (BitVec.ofNat 160)).findIdx? fun a => a = address
  hints := none
  freezeAppend := false
  observed := []
  drained := []
  redrained := []
  hotCache := ⟨[], 1⟩
  generation := 1
  maxPaths := 10

def freshTick : TickState := ⟨.default mixHash, .withIntervals 20 5, [], []⟩

/-- The rows of two such pairs, in the order of discovery. -/
def pairRow (index a : ℕ) : TradableRow := ⟨index, BitVec.ofNat 160 a, ⟨some a, fundedV2⟩⟩

lemma sync_pairTick {addresses : List ℕ} {rows : List TradableRow}
    (hrows : (pairTick addresses).cache.tradableByDiscoveryIndex (pairTick addresses).addressIndex = rows)
    (arena : StateArena) :
    (pairTick addresses).sync arena =
      arena.clone.syncTradable mixHash rows (pairTick addresses).pools (pairTick addresses).addressIndex none
        false := by
  rw [LfTick.sync, StateArena.syncFromDiscoveryGated, hrows]
  rfl

/-- The first tick builds a graph, and the second adds a pool to the arena, so both keep up. -/
theorem cached_indices_denote_onePair :
    ∃ s s', freshTick.step (pairTick [10]) = some s ∧ s.step (pairTick [10, 20]) = some s' ∧
      s'.arena.inner.poolAddresses = [10, 20] ∧ s'.graphSince.length = 2 ∧
      s'.cache.heldEdges.map Edge.indices ≠ [] ∧ s'.Denotes := by
  have hrows : (pairTick [10, 20]).cache.tradableByDiscoveryIndex (pairTick [10, 20]).addressIndex =
      [pairRow 0 10, pairRow 1 20] := by
    refine List.mergeSort_of_pairwise ?_
    decide
  have hruns : ((freshTick.step (pairTick [10])).bind fun s =>
      ((pairTick [10, 20]).sync s.arena).bind fun synced =>
        (s.step (pairTick [10, 20])).map fun s' =>
          (synced.1.indicesRebuilt, s'.arena.inner.poolAddresses, s'.graphSince.length,
            s'.cache.heldEdges.map Edge.indices)) =
      some (false, [10, 20], 2, [⟨0, 0, 1⟩, ⟨0, 1, 0⟩]) := by
    simp only [TickState.step, sync_pairTick hrows]
    decide +kernel
  rcases Option.bind_eq_some_iff.mp hruns with ⟨s, hs, hruns⟩
  rcases Option.bind_eq_some_iff.mp hruns with ⟨synced, hsynced, hruns⟩
  rcases Option.map_eq_some_iff.mp hruns with ⟨s', hs', hvalues⟩
  simp only [Prod.mk.injEq] at hvalues
  rcases hvalues with ⟨hkept, haddresses, hsince, hheld⟩
  have hfresh : freshTick.Fresh := ⟨⟨20, 5, rfl⟩, rfl, rfl⟩
  have hkeeps : freshTick.KeepsUp (pairTick [10]) := by
    rintro ⟨metas, indicesRebuilt, invalidated⟩ arena - hindices
    dsimp only at hindices
    subst hindices
    rfl
  have hkeeps' : s.KeepsUp (pairTick [10, 20]) := by
    intro report arena hsync hindices
    cases hsynced.symm.trans hsync
    rw [hkept] at hindices
    cases hindices
  refine ⟨s, s', hs, hs', haddresses, hsince, ?_,
    cached_indices_denote (.step (.step (.init hfresh) hkeeps hs) hkeeps' hs')⟩
  rw [hheld]
  exact List.cons_ne_nil _ _

/-- The pools of an arena, and edges held with it. -/
structure HeldView where
  addresses : List Address
  edges : List EdgeIndices
  deriving DecidableEq

def heldView (arena : StateArena) (edges : List Edge) : HeldView :=
  ⟨arena.inner.poolAddresses, edges.map Edge.indices⟩

/-- Two ticks: the second finds other pools, and one more of them, so that the arena is wiped while the
graph is kept.  Its edges at the first pool now denote another pool. -/
theorem rebuilt_arena_keeps_graph :
    ∃ s s', freshTick.step (pairTick [10]) = some s ∧ s.step (pairTick [20, 30]) = some s' ∧
      heldView s.arena s.cache.heldEdges = ⟨[10#160], [⟨0, 0, 1⟩, ⟨0, 1, 0⟩]⟩ ∧
      heldView s'.arena s'.cache.heldEdges = ⟨[20#160, 30#160], [⟨0, 0, 1⟩, ⟨0, 1, 0⟩]⟩ ∧
      ¬ s'.Denotes := by
  have hruns : ((freshTick.step (pairTick [10])).bind fun s =>
      (s.step (pairTick [20, 30])).map fun s' =>
        (heldView s.arena s.cache.heldEdges, heldView s'.arena s'.cache.heldEdges,
          s'.graphSince.map fun past => heldView past.1 past.2)) =
      some (⟨[10#160], [⟨0, 0, 1⟩, ⟨0, 1, 0⟩]⟩, ⟨[20#160, 30#160], [⟨0, 0, 1⟩, ⟨0, 1, 0⟩]⟩,
        [⟨[20#160, 30#160], [⟨0, 0, 1⟩, ⟨0, 1, 0⟩]⟩, ⟨[10#160], [⟨0, 0, 1⟩, ⟨0, 1, 0⟩]⟩]) := by
    have hrows : (pairTick [20, 30]).cache.tradableByDiscoveryIndex (pairTick [20, 30]).addressIndex =
        [pairRow 0 20, pairRow 1 30] := by
      refine List.mergeSort_of_pairwise ?_
      decide
    simp only [TickState.step, sync_pairTick hrows]
    decide +kernel
  rcases Option.bind_eq_some_iff.mp hruns with ⟨s, hs, hruns⟩
  rcases Option.map_eq_some_iff.mp hruns with ⟨s', hs', hvalues⟩
  simp only [Prod.mk.injEq] at hvalues
  rcases hvalues with ⟨hbefore, hafter, hsince⟩
  refine ⟨s, s', hs, hs', hbefore, hafter, fun hdenotes => ?_⟩
  -- the graph of the first tick is still remembered
  have hpast : ∃ past ∈ s'.graphSince, heldView past.1 past.2 = ⟨[10#160], [⟨0, 0, 1⟩, ⟨0, 1, 0⟩]⟩ := by
    refine List.mem_map.mp ?_
    rw [hsince]
    exact .tail _ (.head _)
  rcases hpast with ⟨past, hpast, hview⟩
  simp only [heldView, HeldView.mk.injEq] at hview hafter
  rcases hview with ⟨haddresses, hedges⟩
  rcases hafter with ⟨haddresses', hedges'⟩
  have hold : EdgeIndices.mk 0 0 1 ∈ past.2.map Edge.indices := by
    rw [hedges]
    exact .head _
  have hnew : EdgeIndices.mk 0 0 1 ∈ s'.cache.heldEdges.map Edge.indices := by
    rw [hedges']
    exact .head _
  rcases List.mem_map.mp hold with ⟨e', he', hindices'⟩
  rcases List.mem_map.mp hnew with ⟨e, he, hindices⟩
  have hpool : e.poolIndex = 0 := congrArg EdgeIndices.pool hindices
  have hsame := hdenotes past (List.mem_append_left _ hpast) e he ⟨e', he', hindices'.trans hindices.symm⟩
  have hdenoted := hsame.pool 10#160 (by rw [haddresses, hpool]; rfl)
  rw [haddresses', hpool] at hdenoted
  exact absurd hdenoted (by decide)

end PolygonArb

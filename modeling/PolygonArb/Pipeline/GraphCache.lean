import PolygonArb.Pipeline.GraphOps

/-!
# The graph cache

`pipeline/graph_cache.rs`: the routing graph and the cycles of the last pass, with a stamp of what they
were made for.  A pass asks whether the graph must be rebuilt (`needsConnectivityRebuild`), whether the
cached cycles still index the arena (`cycleCacheStillValid`), whether they must be searched again
(`needsCycleRefind`) and whether eligible pools are missing (`connectivityStale`).

The build of a graph, the count of eligible pools and the choice between a full and a partial rescore
are from `pipeline/graph.rs`.
-/

namespace PolygonArb

/-! ## Building and maintaining the graph -/

section Graph

variable (order : RoutingGraph → List Incidence) (gate : AttachGate) (arena : StateArena)

/-- `build_graph_with_gate`. -/
def buildGraph (pools : List PoolMeta) : Run GraphStore :=
  let graph := pools.foldl (fun graph pool => (attachPoolToGraph gate graph arena pool).2)
    (GraphStore.new arena.tokenCount)
  (rescoreGraphInPlace order arena graph).map (refreshGraphCycleCoverage order)

def countGraphEligiblePools (pools : List PoolMeta) : ℕ := pools.countP (gate.admissible arena)

/-- Eligible, worth a slot of the batch, and without an edge. -/
def isMissingFromGraph (graph : GraphStore) (pool : PoolMeta) : Bool :=
  gate.admissible arena pool && gate.worthCapped arena pool
    && !graph.poolHasLiveEdges pool.poolIndex && !graph.poolHasEdges pool.poolIndex

/-- A pool is also missing when its live edges lie on other tokens than the pool does now. -/
def hasMissingEligiblePools (pools : List PoolMeta) (graph : GraphStore) : Bool :=
  pools.any fun pool =>
    gate.admissible arena pool && gate.worthCapped arena pool &&
      if graph.poolHasLiveEdges pool.poolIndex then !poolDirectEdgesMatchMeta graph arena pool
      else !graph.poolHasEdges pool.poolIndex

structure GraphAttachReport where
  attachedPools : ℕ
  hitCap : Bool

/-- What attaching the missing pools to `before` reports, given the graph it left. -/
def attachReport (before after : GraphStore) (pools : List PoolMeta) : GraphAttachReport :=
  let attached := (attachMissingBatch gate arena before pools).2.length
  ⟨attached, attachMissingCap ≤ attached && pools.any (isMissingFromGraph gate arena after)⟩

/-- Rescore the dirty pools only, unless they are most of the arena. -/
def rescoreDirtyPoolsOrFull (graph : GraphStore) (dirtyPools : List PoolIndex) (arenaPoolCount : ℕ) :
    Run GraphStore :=
  if dirtyPools.isEmpty then some graph
  else if arenaPoolCount / 2 < dirtyPools.length then rescoreGraphInPlace order arena graph
  else rescorePoolsInPlace order arena graph dirtyPools

end Graph

/-- Family tags of the first pools. -/
def StateArena.routingFamilyPrefixFingerprint (fx : FxHasher) (arena : StateArena) (n : ℕ) :
    BitVec 64 :=
  let take := min n arena.inner.pools.length
  fx (.usize take :: (arena.inner.pools.take take).map fun pool => .u8 pool.state.familyTag)

/-! ## The cache -/

/-- The `cached_*` fields. -/
structure GraphStamp where
  poolCount : ℕ
  layoutFingerprint : BitVec 64
  stateGeneration : ℕ
  eligiblePoolCount : ℕ
  familyPrefix : BitVec 64
  deriving DecidableEq

structure GraphCache where
  rebuildInterval : ℕ
  cycleRefindInterval : ℕ
  graph : Option GraphStore
  cycles : Option (List FoundCycle)
  lfPassCount : ℕ
  cached : GraphStamp
  /-- A capped attach left pools behind. -/
  attachCatchupPending : Bool

def poolCountRebuildDelta : ℕ := 64

def warmPoolCountRebuildDelta : ℕ := 512

def warmPoolThreshold : ℕ := 3000

def eligiblePoolRebuildDelta : ℕ := 128

namespace GraphCache

def withIntervals (rebuildInterval cycleRefindInterval : ℕ) : GraphCache where
  rebuildInterval := max rebuildInterval 1
  cycleRefindInterval := max cycleRefindInterval 1
  graph := none
  cycles := none
  lfPassCount := 0
  cached := ⟨0, 0, 0, 0, 0⟩
  attachCatchupPending := false

variable (cache : GraphCache)

def advancePass : GraphCache := { cache with lfPassCount := cache.lfPassCount + 1 }

/-- Enough pools were lost. -/
def poolCountRebuildDue (routablePoolCount : ℕ) : Bool :=
  if cache.graph.isNone then true
  else if routablePoolCount < cache.cached.poolCount then
    let minDelta :=
      if warmPoolThreshold ≤ cache.cached.poolCount then warmPoolCountRebuildDelta
      else poolCountRebuildDelta
    max minDelta (cache.cached.poolCount / 20) ≤ cache.cached.poolCount - routablePoolCount
  else false

/-- `u64::is_multiple_of`. -/
def isMultipleOf (n interval : ℕ) : Bool := n % interval = 0

/-- Another layout of no more pools: some were dropped, replaced or reordered. -/
def layoutShrank (routablePoolCount : ℕ) (layoutFingerprint : BitVec 64) : Bool :=
  cache.cached.layoutFingerprint ≠ layoutFingerprint && routablePoolCount ≤ cache.cached.poolCount

def needsConnectivityRebuild (routablePoolCount : ℕ) (layoutFingerprint : BitVec 64) : Bool :=
  cache.graph.isNone || isMultipleOf cache.lfPassCount cache.rebuildInterval
    || cache.poolCountRebuildDue routablePoolCount
    || cache.layoutShrank routablePoolCount layoutFingerprint

def cycleCacheStillValid (routablePoolCount : ℕ) (layoutFingerprint familyPrefix : BitVec 64) : Bool :=
  !(cache.cycles.getD []).isEmpty && cache.cached.poolCount ≤ routablePoolCount
    && familyPrefix = cache.cached.familyPrefix
    && !cache.layoutShrank routablePoolCount layoutFingerprint

def needsCycleRefind (stateGeneration dirtyPoolCount arenaPoolCount : ℕ) : Bool :=
  if (cache.cycles.getD []).isEmpty then true
  else if stateGeneration ≠ cache.cached.stateGeneration then
    arenaPoolCount < dirtyPoolCount * 2
  else isMultipleOf cache.lfPassCount cache.cycleRefindInterval

/-- An empty list of cycles is no list. -/
def store (graph : GraphStore) (cycles : Option (List FoundCycle)) (stamp : GraphStamp) : GraphCache :=
  { cache with
    graph := some graph
    cycles := cycles.filter fun c => !c.isEmpty
    cached := stamp }

def storeGraphKeepCycles (graph : GraphStore) (stamp : GraphStamp) : GraphCache :=
  cache.store graph cache.cycles stamp

/-- Pools gained eligibility since the count was taken, or a capped attach left some behind. -/
def connectivityStale (eligiblePoolCount : ℕ) : Bool :=
  if cache.attachCatchupPending then true
  else if cache.graph.isNone || eligiblePoolCount ≤ cache.cached.eligiblePoolCount then false
  else
    max eligiblePoolRebuildDelta (cache.cached.eligiblePoolCount / 20) ≤
      eligiblePoolCount - cache.cached.eligiblePoolCount

def setAttachCatchupPending (pending : Bool) : GraphCache :=
  { cache with attachCatchupPending := pending }

def invalidateCycles : GraphCache := { cache with cycles := none }

/-- Rescore the graph that is there, and stamp it anew. -/
def rescoreDirtyAndUpdate (order : RoutingGraph → List Incidence) (arena : StateArena)
    (dirtyPools : List PoolIndex) (arenaPoolCount : ℕ) (stamp : GraphStamp) : Run GraphCache :=
  match cache.graph with
  | none => some cache
  | some graph =>
      (rescoreDirtyPoolsOrFull order arena graph dirtyPools arenaPoolCount).map fun graph =>
        cache.store graph cache.cycles stamp

/-! ### What a store writes -/

section Store

variable {cache} {graph : GraphStore} {cycles : Option (List FoundCycle)} {stamp : GraphStamp}

@[simp] lemma graph_store : (cache.store graph cycles stamp).graph = some graph := rfl

@[simp] lemma cached_store : (cache.store graph cycles stamp).cached = stamp := rfl

@[simp] lemma cycles_store :
    (cache.store graph cycles stamp).cycles = cycles.filter fun c => !c.isEmpty := rfl

@[simp] lemma pending_store :
    (cache.store graph cycles stamp).attachCatchupPending = cache.attachCatchupPending := rfl

@[simp] lemma passes_store : (cache.store graph cycles stamp).lfPassCount = cache.lfPassCount := rfl

@[simp] lemma graph_setAttachCatchupPending (pending : Bool) :
    (cache.setAttachCatchupPending pending).graph = cache.graph := rfl

@[simp] lemma cycles_setAttachCatchupPending (pending : Bool) :
    (cache.setAttachCatchupPending pending).cycles = cache.cycles := rfl

@[simp] lemma cached_setAttachCatchupPending (pending : Bool) :
    (cache.setAttachCatchupPending pending).cached = cache.cached := rfl

end Store

end GraphCache

end PolygonArb

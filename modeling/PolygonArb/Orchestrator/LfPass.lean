import PolygonArb.Pipeline.CycleSelect
import PolygonArb.Pipeline.GraphCache

/-!
# One LF pass

`run_lf_cpu_work` of `orchestrator/lf.rs` on the graph cache, and the store that follows a refresh of
the token rates.  A pass picks a graph (`pickGraph`: rebuilt, rescored or as it is), attaches pools that
are missing from it (`scanMissing`, `forceAttach`), then searches cycles and merges them with the cached
ones (`refindCycles`) or reuses those.  Every path ends with a store.

The pricing gate, the order of hash sets and the cycle searches are parameters (`LfEnv`): a search is
bounded by the clock, and nothing here depends on what it finds.

**What a pass can do.**  `pickGraph_cases` and `scanMissing_cases` say it for the stages that touch the
graph, `attachStages_cases` for the stages up to the search, and `runLfCpuWork_cases` for the pass: the
cycles it leaves are a publication or the cached ones, and the cache is stamped with what it was given.
-/

namespace PolygonArb

/-! ## What a pass is given -/

/-- Which search is asked for; `exclusive` starts from the tokens of observed pools only. -/
inductive CycleRequest
  | patch (exclusive : Bool)
  | hubs
  | seeded (exclusive : Bool)
  | refill
  deriving DecidableEq

structure LfEnv where
  fx : FxHasher
  incidences : RoutingGraph → List Incidence
  drain : DrainOrder
  gate : AttachGate
  /-- Without the pricing predicates. -/
  openGate : AttachGate
  /-- `observed_pool_start_tokens` and the priced hubs of the observed pools. -/
  obsStarts : StateArena → GraphStore → List TokenIndex
  /-- What the searches of the pass find. -/
  findCycles : CycleRequest → List FoundCycle

/-- `maxPaths` is the configured number of cycles. -/
structure LfCpuWork where
  arena : StateArena
  poolMetas : List PoolMeta
  dirtyPools : List PoolIndex
  stateGeneration : ℕ
  maxPaths : ℕ
  observedPoolIndices : List PoolIndex

/-- A pass is forced when live pools were observed. -/
def LfCpuWork.forceCycleRefind (work : LfCpuWork) : Bool := !work.observedPoolIndices.isEmpty

structure LfCpuResult where
  graph : GraphStore
  cycles : List FoundCycle
  attachHitCap : Bool

def mergeDirtyPoolIndices (base extra : List PoolIndex) : List PoolIndex :=
  if extra.isEmpty then base
  else if base.isEmpty then extra
  else
    extra.foldl (fun merged idx => if merged.contains idx then merged else merged ++ [idx]) base

/-- Lay the cached states of the dirty pools over the arena.  `freshDirty` is what the dirty set holds
when it is drained, `cache` and `generation` what is read after that. -/
def overlayDirtyCacheStates (work : LfCpuWork) (freshDirty : List PoolIndex) (cache : StateCache)
    (generation : ℕ) : LfCpuWork :=
  let dirty := mergeDirtyPoolIndices work.dirtyPools freshDirty
  let addrs := dirty.filterMap fun idx => work.arena.inner.poolAddresses[idx]?
  { work with
    arena := if addrs.isEmpty then work.arena else (work.arena.applyHotCache cache addrs).2
    dirtyPools := dirty
    stateGeneration := generation }

section Pass

variable (env : LfEnv) (work : LfCpuWork)

def LfCpuWork.eligibleCount : ℕ := countGraphEligiblePools env.gate work.arena work.poolMetas

/-- What a store of this pass stamps the cache with. -/
def LfCpuWork.stamp : GraphStamp where
  poolCount := work.poolMetas.length
  layoutFingerprint := work.arena.inner.layoutFingerprint
  stateGeneration := work.stateGeneration
  eligiblePoolCount := work.eligibleCount env
  familyPrefix := work.arena.routingFamilyPrefixFingerprint env.fx work.poolMetas.length

/-! ## The decisions taken before the work -/

def LfCpuWork.needsRebuild (cache : GraphCache) : Bool :=
  cache.needsConnectivityRebuild work.poolMetas.length work.arena.inner.layoutFingerprint

def LfCpuWork.stale (cache : GraphCache) : Bool := cache.connectivityStale (work.eligibleCount env)

def LfCpuWork.cyclesValid (cache : GraphCache) : Bool :=
  cache.cycleCacheStillValid work.poolMetas.length work.arena.inner.layoutFingerprint
    (work.arena.routingFamilyPrefixFingerprint env.fx cache.cached.poolCount)

/-- The cycles that survive a store of a new graph. -/
def LfCpuWork.keptCycles (cache : GraphCache) : Option (List FoundCycle) :=
  if work.cyclesValid env cache then cache.cycles else none

/-! ## The graph -/

/-- A rebuilt graph, or the cached one, rescored when the generation moved. -/
def pickGraph (cache : GraphCache) : Run (GraphStore × GraphCache) :=
  if work.needsRebuild cache then do
    let graph ← buildGraph env.incidences env.gate work.arena work.poolMetas
    some (graph, cache.store graph (work.keptCycles env cache) (work.stamp env))
  else
    match cache.graph with
    | none => do
        let graph ← buildGraph env.incidences env.gate work.arena work.poolMetas
        some (graph, cache.store graph none (work.stamp env))
    | some graph =>
        if work.stateGeneration ≠ cache.cached.stateGeneration then do
          let cache ← cache.rescoreDirtyAndUpdate env.incidences work.arena work.dirtyPools
            work.poolMetas.length (work.stamp env)
          some (cache.graph.getD graph, cache)
        else some (graph, cache)

/-- The graph after a stage, the cache, how many pools were attached and whether the cap was hit. -/
structure AttachStage where
  graph : GraphStore
  cache : GraphCache
  attached : ℕ
  hitCap : Bool

/-- Is the scan due?  `before` is the cache the pass started from, `cache` the one after the graph was
picked. -/
def LfCpuWork.catchupDue (before cache : GraphCache) : Bool :=
  work.needsRebuild before || work.stale env before
    || cache.cached.eligiblePoolCount < work.eligibleCount env

/-- A forced pass leaves the scan out. -/
def LfCpuWork.scansMissing (before cache : GraphCache) : Bool :=
  work.catchupDue env before cache && !work.forceCycleRefind

/-- Attach the eligible pools that are missing.  The latch of a capped attach is dropped when nothing
is missing any more. -/
def scanMissing (before : GraphCache) (graph : GraphStore) (cache : GraphCache) : Run AttachStage :=
  let missing := hasMissingEligiblePools env.gate work.arena work.poolMetas graph
  if work.scansMissing env before cache then
    if missing then do
      let after ← attachMissingEligiblePools env.incidences env.gate work.arena graph work.poolMetas
      let report := attachReport env.gate work.arena graph after work.poolMetas
      some ⟨after, cache.setAttachCatchupPending report.hitCap, report.attachedPools, report.hitCap⟩
    else some ⟨graph, cache.setAttachCatchupPending false, 0, false⟩
  else
    let drop := work.catchupDue env before cache && cache.attachCatchupPending && !missing
    some ⟨graph, if drop then cache.setAttachCatchupPending false else cache, 0, false⟩

/-- One row of the forced attach: pools without a live edge are noted, and attached when they have
no edge at all. -/
def forceAttachPool (need : List PoolIndex) (stage : GraphStore × List PoolIndex) (pool : PoolMeta) :
    GraphStore × List PoolIndex :=
  if !need.contains pool.poolIndex then stage
  else if stage.1.poolHasEdges pool.poolIndex then (stage.1, stage.2 ++ [pool.poolIndex])
  else
    let (done, graph) := attachPoolToGraph env.openGate stage.1 work.arena pool
    (graph, if done then stage.2 ++ [pool.poolIndex] else stage.2)

/-- Observed pools are attached whatever the pricing gate says.  Answers how many are live after. -/
def forceAttach (graph : GraphStore) : Run (GraphStore × ℕ) :=
  let need := work.observedPoolIndices.filter fun p => !graph.poolHasLiveEdges p
  if need.isEmpty then some (graph, 0)
  else
    let (graph, attached) := work.poolMetas.foldl (forceAttachPool env work need) (graph, [])
    if attached.isEmpty then some (graph, 0)
    else do
      let graph ← rescorePoolsInPlace env.incidences work.arena graph attached
      let graph := refreshGraphCycleCoverage env.incidences graph
      some (graph, attached.countP graph.poolHasLiveEdges)

/-! ## The cycles -/

/-- What the search of a pass is about. -/
structure RefindPlan where
  graph : GraphStore
  incremental : Bool
  pinBridgeOnly : Bool
  exclusiveObs : Bool

/-- Room for new tokens; observed pools are priced before they are searched. -/
def refindGraph (graph : GraphStore) : Run GraphStore :=
  let graph := graph.ensureTokenCapacity work.arena.tokenCount
  if work.forceCycleRefind then
    rescorePoolsInPlace env.incidences work.arena graph work.observedPoolIndices
  else some graph

/-- Observed pools that can be on a cycle. -/
def pinCovered (graph : GraphStore) : ℕ :=
  (graph.coverage.map fun cov => work.observedPoolIndices.countP fun p => p ∈ cov.poolIndices).getD 0

def refindPlan (graph : GraphStore) (incremental : Bool) : RefindPlan :=
  let pinBridgeOnly := work.forceCycleRefind && pinCovered work graph = 0
  { graph
    incremental
    pinBridgeOnly
    exclusiveObs :=
      work.forceCycleRefind && !(env.obsStarts work.arena graph).isEmpty && !pinBridgeOnly }

/-- The fresh cycles; pools that are on no cycle are not searched for. -/
def RefindPlan.outcome (plan : RefindPlan) : List FoundCycle :=
  if plan.pinBridgeOnly then []
  else
    let request :=
      if plan.incremental then .patch plan.exclusiveObs
      else if (env.obsStarts work.arena plan.graph).isEmpty then .hubs
      else .seeded plan.exclusiveObs
    env.findCycles request

/-- The cached cycles a pass adds to the fresh ones. -/
def RefindPlan.mergedPrior (plan : RefindPlan) (prior : List FoundCycle) : List FoundCycle :=
  if plan.incremental || work.forceCycleRefind then
    if plan.exclusiveObs then prior.filter (touchesPools work.observedPoolIndices) else prior
  else []

/-- The selection of the merged cycles. -/
def RefindPlan.diversified (plan : RefindPlan) (prior : List FoundCycle) : List FoundCycle :=
  let result := plan.outcome env work ++ plan.mergedPrior work prior
  if work.observedPoolIndices.isEmpty || plan.pinBridgeOnly then
    finalizeEnumeratedCycles env.drain result work.maxPaths
  else pinCyclesTouchingPools env.drain result work.observedPoolIndices work.maxPaths false

def minExclusiveSnap : ℕ := 64

/-- The cycles to publish: an empty or sparse result of an exclusive search does not replace a good
cache. -/
def RefindPlan.publish (plan : RefindPlan) (prior : List FoundCycle) : List FoundCycle :=
  let diversified := plan.diversified env work prior
  if (plan.exclusiveObs || plan.pinBridgeOnly) && diversified.isEmpty then
    if !prior.isEmpty then pruneDustV2Cycles work.arena prior
    else
      pruneDustV2Cycles work.arena
        (finalizeEnumeratedCycles env.drain (env.findCycles .refill) work.maxPaths)
  else if plan.exclusiveObs && diversified.length < minExclusiveSnap
      && diversified.length < prior.length then
    pruneDustV2Cycles work.arena
      (Selection.appendNew FoundCycle.edges work.maxPaths diversified prior)
  else pruneDustV2Cycles work.arena diversified

/-- Must cycles be searched again?  `before` is the cache the pass started from. -/
def needRefind (before : GraphCache) (stage : AttachStage) (forceAttached : ℕ)
    (cachedCycles : Option (List FoundCycle)) : Bool :=
  work.needsRebuild before && !work.cyclesValid env before
    || decide (0 < stage.attached + forceAttached)
      && (work.forceCycleRefind || decide (0 < forceAttached) || !stage.hitCap)
    || work.forceCycleRefind || stage.cache.cycles.isNone || cachedCycles.isNone
    || stage.cache.needsCycleRefind work.stateGeneration work.dirtyPools.length
      work.arena.inner.pools.length

/-- A short search only: nothing was attached, and the cached cycles are there. -/
def incrementalRefind (before : GraphCache) (attached : ℕ)
    (cachedCycles : Option (List FoundCycle)) : Bool :=
  !work.needsRebuild before && work.cyclesValid env before && !(cachedCycles.getD []).isEmpty
    && decide (attached = 0) && (work.forceCycleRefind || work.stale env before)

def refindCycles (incremental : Bool) (graph : GraphStore) (prior : List FoundCycle) :
    Run (GraphStore × List FoundCycle) := do
  let graph ← refindGraph env work graph
  some (graph, (refindPlan env work graph incremental).publish env work prior)

/-! ## The pass -/

/-- The stages up to the search: the graph, attached to, and the store that follows an attach. -/
def attachStages (before : GraphCache) : Run (AttachStage × ℕ) := do
  let (graph, cache) ← pickGraph env work before
  let stage ← scanMissing env work before graph cache
  let (graph, forced) ← forceAttach env work stage.graph
  let cache :=
    if 0 < stage.attached + forced then
      stage.cache.store graph (work.keptCycles env before) (work.stamp env)
    else stage.cache
  some ({ stage with graph, cache }, forced)

def runLfCpuWork (before : GraphCache) : Run (GraphCache × LfCpuResult) := do
  let (stage, forced) ← attachStages env work before
  let cachedCycles := stage.cache.cycles.or before.cycles
  let prior := cachedCycles.getD []
  if needRefind env work before stage forced cachedCycles then do
    let incremental := incrementalRefind env work before (stage.attached + forced) cachedCycles
    let (graph, cycles) ← refindCycles env work incremental stage.graph prior
    some (stage.cache.store graph (some cycles) (work.stamp env), ⟨graph, cycles, stage.hitCap⟩)
  else
    let cycles := pruneDustV2Cycles work.arena prior
    some (stage.cache.store stage.graph (some cycles) (work.stamp env),
      ⟨stage.graph, cycles, stage.hitCap⟩)

end Pass

/-! ## After the rates -/

/-- What the store that follows a refresh of the rates is given: the gate with the new rates, the arena
the tick holds by then, and the generation read then. -/
structure PostRateWork where
  gate : AttachGate
  gateActive : Bool
  ratesChanged : Bool
  arena : StateArena
  poolMetas : List PoolMeta
  stateGeneration : ℕ

def PostRateWork.stamp (fx : FxHasher) (work : PostRateWork) : GraphStamp where
  poolCount := work.poolMetas.length
  layoutFingerprint := work.arena.inner.layoutFingerprint
  stateGeneration := work.stateGeneration
  eligiblePoolCount := countGraphEligiblePools work.gate work.arena work.poolMetas
  familyPrefix := work.arena.routingFamilyPrefixFingerprint fx work.poolMetas.length

/-- Attach what the new rates made eligible to the graph of the pass. -/
def postRatePatch (incidences : RoutingGraph → List Incidence) (work : PostRateWork)
    (cpu : LfCpuResult) : Run (Option (GraphStore × GraphAttachReport)) :=
  if !cpu.attachHitCap && work.ratesChanged && work.gateActive
      && hasMissingEligiblePools work.gate work.arena work.poolMetas cpu.graph then do
    let graph ← attachMissingEligiblePools incidences work.gate work.arena cpu.graph work.poolMetas
    some (some (graph, attachReport work.gate work.arena cpu.graph graph work.poolMetas))
  else some none

/-- A patch that attached nothing is not stored. -/
def postRateAttach (fx : FxHasher) (incidences : RoutingGraph → List Incidence) (work : PostRateWork)
    (cpu : LfCpuResult) (cache : GraphCache) : Run GraphCache :=
  (postRatePatch incidences work cpu).map fun patch =>
    match patch.filter fun p => decide (0 < p.2.attachedPools) with
    | some (graph, report) =>
        (cache.storeGraphKeepCycles graph (work.stamp fx)).setAttachCatchupPending report.hitCap
    | none => cache

/-! ## Runs -/

/-- What happens to the cache, in any order and any number of times: a tick begins, the sync rebuilt the
indices, a pass runs, the rates are refreshed. -/
inductive LfEvent
  | advancePass
  | invalidateCycles
  | pass (env : LfEnv) (work : LfCpuWork)
  | postRate (fx : FxHasher) (incidences : RoutingGraph → List Incidence) (work : PostRateWork)
      (cpu : LfCpuResult)

def LfEvent.step (cache : GraphCache) : LfEvent → Run GraphCache
  | .advancePass => some cache.advancePass
  | .invalidateCycles => some cache.invalidateCycles
  | .pass env work => (runLfCpuWork env work cache).map Prod.fst
  | .postRate fx incidences work cpu => postRateAttach fx incidences work cpu cache

/-- The cache of a program that has just started. -/
def GraphCache.Fresh (cache : GraphCache) : Prop :=
  ∃ rebuildInterval cycleRefindInterval, cache = .withIntervals rebuildInterval cycleRefindInterval

/-! ## What a pass can do -/

section Cases

variable {env : LfEnv} {work : LfCpuWork} {before cache after : GraphCache} {graph : GraphStore}
  {stage : AttachStage} {forced : ℕ} {result : LfCpuResult}

lemma graph_of_not_needsRebuild (h : work.needsRebuild before = false) :
    ∃ graph, before.graph = some graph := by
  rw [LfCpuWork.needsRebuild, GraphCache.needsConnectivityRebuild] at h
  cases hgraph : before.graph with
  | none => simp [hgraph] at h
  | some graph => exact ⟨graph, rfl⟩

/-- Rebuilt, rescored because the generation moved, or left alone. -/
lemma pickGraph_cases (h : pickGraph env work before = some (graph, cache)) :
    (work.needsRebuild before = true ∧
      buildGraph env.incidences env.gate work.arena work.poolMetas = some graph ∧
      cache = before.store graph (work.keptCycles env before) (work.stamp env)) ∨
    (∃ old, work.needsRebuild before = false ∧ before.graph = some old ∧
      work.stateGeneration ≠ before.cached.stateGeneration ∧
      rescoreDirtyPoolsOrFull env.incidences work.arena old work.dirtyPools work.poolMetas.length =
        some graph ∧
      cache = before.store graph before.cycles (work.stamp env)) ∨
    (work.needsRebuild before = false ∧ before.graph = some graph ∧
      work.stateGeneration = before.cached.stateGeneration ∧ cache = before) := by
  rw [pickGraph] at h
  cases hrebuild : work.needsRebuild before with
  | true =>
    rw [hrebuild, if_pos rfl] at h
    simp only [Option.bind_eq_bind, Option.bind_eq_some_iff, Option.some.injEq, Prod.mk.injEq] at h
    rcases h with ⟨built, hbuild, rfl, rfl⟩
    exact .inl ⟨rfl, hbuild, rfl⟩
  | false =>
    rcases graph_of_not_needsRebuild hrebuild with ⟨old, hold⟩
    rw [hrebuild, if_neg Bool.false_ne_true, hold] at h
    dsimp only at h
    split_ifs at h with hgen
    · simp only [GraphCache.rescoreDirtyAndUpdate, hold, Option.bind_eq_bind, Option.bind_eq_some_iff,
        Option.map_eq_some_iff, Option.some.injEq, Prod.mk.injEq] at h
      rcases h with ⟨_, ⟨rescored, hrescored, rfl⟩, hgraph, rfl⟩
      have heq : rescored = graph := hgraph
      subst heq
      exact .inr (.inl ⟨old, rfl, hold, hgen, hrescored, rfl⟩)
    · simp only [Option.some.injEq, Prod.mk.injEq] at h
      rcases h with ⟨rfl, rfl⟩
      exact .inr (.inr ⟨rfl, hold, not_not.mp hgen, rfl⟩)

/-- Missing pools were attached, or the graph is left alone.  Only the latch of the cache changes. -/
lemma scanMissing_cases (h : scanMissing env work before graph cache = some stage) :
    (∃ pending, stage.cache = cache.setAttachCatchupPending pending) ∧
    ((work.scansMissing env before cache = true ∧
        attachMissingEligiblePools env.incidences env.gate work.arena graph work.poolMetas =
          some stage.graph) ∨
      (stage.graph = graph ∧ stage.attached = 0)) := by
  rw [scanMissing] at h
  dsimp only at h
  split_ifs at h with hscan hmissing hdrop
  · simp only [Option.bind_eq_bind, Option.bind_eq_some_iff, Option.some.injEq] at h
    rcases h with ⟨attached, hattach, rfl⟩
    exact ⟨⟨_, rfl⟩, .inl ⟨hscan, hattach⟩⟩
  · cases h
    exact ⟨⟨_, rfl⟩, .inr ⟨rfl, rfl⟩⟩
  · cases h
    exact ⟨⟨_, rfl⟩, .inr ⟨rfl, rfl⟩⟩
  · cases h
    exact ⟨⟨cache.attachCatchupPending, rfl⟩, .inr ⟨rfl, rfl⟩⟩

/-- The stages up to the search, one after the other. -/
lemma attachStages_cases (h : attachStages env work before = some (stage, forced)) :
    ∃ picked cache scanned, pickGraph env work before = some (picked, cache) ∧
      scanMissing env work before picked cache = some scanned ∧
      forceAttach env work scanned.graph = some (stage.graph, forced) ∧
      stage.attached = scanned.attached ∧ stage.hitCap = scanned.hitCap ∧
      stage.cache =
        if 0 < scanned.attached + forced then
          scanned.cache.store stage.graph (work.keptCycles env before) (work.stamp env)
        else scanned.cache := by
  simp only [attachStages, Option.bind_eq_bind, Option.bind_eq_some_iff, Prod.exists,
    Option.some.injEq, Prod.mk.injEq] at h
  rcases h with ⟨picked, cache, hpick, scanned, hscan, graph, _, hforce, rfl, rfl⟩
  exact ⟨picked, cache, scanned, hpick, hscan, hforce, rfl, rfl, rfl⟩

/-- Something was attached and stored, or nothing happened. -/
lemma postRateAttach_cases {fx : FxHasher} {incidences : RoutingGraph → List Incidence}
    {work : PostRateWork} {cpu : LfCpuResult}
    (h : postRateAttach fx incidences work cpu before = some after) :
    (after = before ∧ ∀ graph report, postRatePatch incidences work cpu = some (some (graph, report)) →
        ¬ 0 < report.attachedPools) ∨
      ∃ graph report, postRatePatch incidences work cpu = some (some (graph, report)) ∧
        0 < report.attachedPools ∧
        after =
          (before.storeGraphKeepCycles graph (work.stamp fx)).setAttachCatchupPending report.hitCap := by
  rcases Option.map_eq_some_iff.mp h with ⟨patch, hpatch, rfl⟩
  cases hkept : patch.filter fun p => decide (0 < p.2.attachedPools) with
  | none =>
      refine .inl ⟨rfl, fun graph report hsome => ?_⟩
      cases hpatch.symm.trans hsome
      simpa using hkept
  | some p =>
      rcases Option.filter_eq_some_iff.mp hkept with ⟨rfl, hattached⟩
      exact .inr ⟨p.1, p.2, hpatch, of_decide_eq_true hattached, rfl⟩

/-! ### The cycles -/

/-- The cycles of the cache, or none. -/
def KeepsOrDrops (before cache : GraphCache) : Prop :=
  cache.cycles = none ∨ cache.cycles = before.cycles

lemma KeepsOrDrops.store {cycles : Option (List FoundCycle)} (graph : GraphStore) (stamp : GraphStamp)
    (h : cycles = none ∨ cycles = before.cycles) : KeepsOrDrops before (cache.store graph cycles stamp) := by
  rw [KeepsOrDrops, GraphCache.cycles_store]
  rcases h with rfl | rfl
  · exact .inl rfl
  · cases hcycles : before.cycles with
    | none => exact .inl rfl
    | some cycles =>
        cases cycles with
        | nil => exact .inl rfl
        | cons c cycles => exact .inr rfl

lemma keptCycles_cases (env : LfEnv) (work : LfCpuWork) (before : GraphCache) :
    work.keptCycles env before = none ∨ work.keptCycles env before = before.cycles := by
  rw [LfCpuWork.keptCycles]
  split_ifs
  · exact .inr rfl
  · exact .inl rfl

lemma keepsOrDrops_attachStages (h : attachStages env work before = some (stage, forced)) :
    KeepsOrDrops before stage.cache := by
  rcases attachStages_cases h with ⟨picked, cache, scanned, hpick, hscan, -, -, -, hcache⟩
  have hkept := keptCycles_cases env work before
  have hpicked : KeepsOrDrops before cache := by
    rcases pickGraph_cases hpick with ⟨-, -, rfl⟩ | ⟨old, -, -, -, -, rfl⟩ | ⟨-, -, -, rfl⟩
    · exact .store _ _ hkept
    · exact .store _ _ (.inr rfl)
    · exact .inr rfl
  have hscanned : KeepsOrDrops before scanned.cache := by
    rcases (scanMissing_cases hscan).1 with ⟨pending, hpending⟩
    rw [hpending]
    exact hpicked
  rw [hcache]
  split_ifs
  · exact .store _ _ hkept
  · exact hscanned

lemma prior_eq (h : KeepsOrDrops before cache) :
    (cache.cycles.or before.cycles).getD [] = before.cycles.getD [] := by
  rcases h with hnone | hsame
  · rw [hnone]
    rfl
  · rw [hsame, Option.or_self]

/-- A pass publishes the cycles of a search, or what is left of the cached ones. -/
lemma runLfCpuWork_cases (h : runLfCpuWork env work before = some (after, result)) :
    ∃ stage forced, attachStages env work before = some (stage, forced) ∧
      after = stage.cache.store result.graph (some result.cycles) (work.stamp env) ∧
      result.attachHitCap = stage.hitCap ∧
      ((∃ incremental, refindGraph env work stage.graph = some result.graph ∧
          result.cycles =
            (refindPlan env work result.graph incremental).publish env work (before.cycles.getD [])) ∨
        (result.graph = stage.graph ∧
          result.cycles = pruneDustV2Cycles work.arena (before.cycles.getD []))) := by
  simp only [runLfCpuWork, Option.bind_eq_bind, Option.bind_eq_some_iff, Prod.exists] at h
  rcases h with ⟨stage, forced, hstages, h⟩
  have hprior := prior_eq (keepsOrDrops_attachStages hstages)
  refine ⟨stage, forced, hstages, ?_⟩
  split_ifs at h with hrefind
  · simp only [refindCycles, Option.bind_eq_bind, Option.bind_eq_some_iff, Prod.exists,
      Option.some.injEq, Prod.mk.injEq, hprior] at h
    rcases h with ⟨_, cycles, ⟨graph, hgraph, rfl, rfl⟩, rfl, rfl⟩
    exact ⟨rfl, rfl, .inl ⟨_, hgraph, rfl⟩⟩
  · simp only [Option.some.injEq, Prod.mk.injEq, hprior] at h
    rcases h with ⟨rfl, rfl⟩
    exact ⟨rfl, rfl, .inr ⟨rfl, rfl⟩⟩

/-- The cache is left with the graph and the cycles of the result, stamped with what the pass was
given. -/
lemma runLfCpuWork_store (h : runLfCpuWork env work before = some (after, result)) :
    after.graph = some result.graph ∧ after.cycles.getD [] = result.cycles ∧
      after.cached = work.stamp env := by
  rcases runLfCpuWork_cases h with ⟨stage, forced, -, rfl, -⟩
  refine ⟨rfl, ?_, rfl⟩
  rw [GraphCache.cycles_store]
  cases result.cycles <;> rfl

end Cases

end PolygonArb

import PolygonArb.Orchestrator.CycleCacheRun

/-!
# When a pass searches cycles again

The decision to search asks the cache, after the stages before it have stored into the cache.  Every
one of them stamps the generation of the pass, so the cache is always asked about its own generation,
and its test for a majority of dirty pools is never reached.  `needRefind_eq` is what is left of the
decision.

* `LfCpuWork.refindDue` — a forced pass, a rebuild that drops the cycles, an attach, no cycles, or the
  interval.
* `enumerated` — what the searches of a pass find.
* `refindPolicy_iff` — a pass over a new generation with a majority of dirty pools searches again
  exactly when one of these holds; `majority_ignored` is a run in which none does.
-/

namespace PolygonArb

open Transition

/-! ## The decision -/

section Decision

variable (env : LfEnv) (work : LfCpuWork) (before : GraphCache)

/-- More than half of the pools of the arena are dirty. -/
def LfCpuWork.majorityDirty : Bool := decide (work.arena.inner.pools.length < work.dirtyPools.length * 2)

/-- Is a search due, given what the scan attached?  Neither the generation nor the dirty pools are
looked at. -/
def LfCpuWork.refindDue (stage : AttachStage) : Bool :=
  work.forceCycleRefind || work.needsRebuild before && !work.cyclesValid env before
    || decide (0 < stage.attached) && (!stage.hitCap || !work.cyclesValid env before)
    || (before.cycles.getD []).isEmpty
    || GraphCache.isMultipleOf before.lfPassCount before.cycleRefindInterval

/-- The fresh cycles of a search and of a refill. -/
def RefindPlan.found (plan : RefindPlan) (prior : List FoundCycle) : List FoundCycle :=
  plan.outcome env work ++
    if (plan.exclusiveObs || plan.pinBridgeOnly) && (plan.diversified env work prior).isEmpty
        && prior.isEmpty then env.findCycles .refill
    else []

/-- What the searches of a pass find; `none` when the cached cycles are reused. -/
def enumerated : Run (Option (List FoundCycle)) := do
  let (stage, forced) ← attachStages env work before
  let cachedCycles := stage.cache.cycles.or before.cycles
  if needRefind env work before stage forced cachedCycles then do
    let incremental := incrementalRefind env work before (stage.attached + forced) cachedCycles
    let graph ← refindGraph env work stage.graph
    some (some ((refindPlan env work graph incremental).found env work (cachedCycles.getD [])))
  else some none

end Decision

section Stages

variable {env : LfEnv} {work : LfCpuWork} {before cache after : GraphCache} {graph : GraphStore}
  {stage : AttachStage} {forced : ℕ} {result : LfCpuResult}

/-- Only observed pools are attached by force. -/
lemma forced_of_unforced (h : forceAttach env work graph = some (stage.graph, forced))
    (hforce : work.forceCycleRefind = false) : forced = 0 := by
  have hobserved : work.observedPoolIndices = [] := by
    simpa [LfCpuWork.forceCycleRefind] using hforce
  rw [forceAttach, hobserved] at h
  cases h
  rfl

/-- The generation, the pass count and the interval, as the decision reads them. -/
lemma stamps_attachStages (h : attachStages env work before = some (stage, forced)) :
    stage.cache.cached.stateGeneration = work.stateGeneration ∧
      stage.cache.lfPassCount = before.lfPassCount ∧
      stage.cache.cycleRefindInterval = before.cycleRefindInterval := by
  rcases attachStages_cases h with ⟨picked, cache, scanned, hpick, hscan, -, -, -, hcache⟩
  have hpicked : cache.cached.stateGeneration = work.stateGeneration ∧
      cache.lfPassCount = before.lfPassCount ∧ cache.cycleRefindInterval = before.cycleRefindInterval := by
    rcases pickGraph_cases hpick with ⟨-, -, rfl⟩ | ⟨old, -, -, -, -, rfl⟩ | ⟨-, -, hsame, rfl⟩
    · exact ⟨rfl, rfl, rfl⟩
    · exact ⟨rfl, rfl, rfl⟩
    · exact ⟨hsame.symm, rfl, rfl⟩
  rcases (scanMissing_cases hscan).1 with ⟨pending, hpending⟩
  rw [hcache, hpending]
  split_ifs
  · exact ⟨rfl, hpicked.2⟩
  · exact hpicked

lemma filter_cycles (hcycles : (before.cycles.getD []).isEmpty = false) :
    (before.cycles.filter fun c => !c.isEmpty) = before.cycles := by
  cases h : before.cycles with
  | none => rfl
  | some cycles =>
      rw [h] at hcycles
      rw [Option.filter_some, if_pos]
      simpa using hcycles

lemma cycles_store_kept (hcycles : (before.cycles.getD []).isEmpty = false) (stamp : GraphStamp) :
    (cache.store graph (work.keptCycles env before) stamp).cycles = work.keptCycles env before := by
  rw [GraphCache.cycles_store, LfCpuWork.keptCycles]
  split_ifs
  · exact filter_cycles hcycles
  · rfl

/-- A rebuild and an attach keep the cycles of a valid cache only. -/
lemma cycles_attachStages (h : attachStages env work before = some (stage, 0))
    (hcycles : (before.cycles.getD []).isEmpty = false) :
    stage.cache.cycles =
      if work.needsRebuild before || decide (0 < stage.attached) then work.keptCycles env before
      else before.cycles := by
  rcases attachStages_cases h with ⟨picked, cache, scanned, hpick, hscan, -, hattached, -, hcache⟩
  have hpicked : cache.cycles =
      if work.needsRebuild before then work.keptCycles env before else before.cycles := by
    rcases pickGraph_cases hpick with ⟨hrebuild, -, rfl⟩ | ⟨old, hrebuild, -, -, -, rfl⟩ | ⟨hrebuild, -, -, rfl⟩
    · rw [hrebuild, if_pos rfl]
      exact cycles_store_kept hcycles _
    · rw [hrebuild, if_neg Bool.false_ne_true]
      exact filter_cycles hcycles
    · rw [hrebuild, if_neg Bool.false_ne_true]
  rcases (scanMissing_cases hscan).1 with ⟨pending, hpending⟩
  rw [Nat.add_zero] at hcache
  rw [hcache, hattached, hpending]
  by_cases hpos : 0 < scanned.attached
  · rw [if_pos hpos, if_pos (by simp [hpos])]
    exact cycles_store_kept hcycles _
  · rw [if_neg hpos]
    simpa [hpos] using hpicked

/-- The decision as it comes out. -/
lemma needRefind_eq (h : attachStages env work before = some (stage, forced)) :
    needRefind env work before stage forced (stage.cache.cycles.or before.cycles) =
      work.refindDue env before stage := by
  by_cases hforce : work.forceCycleRefind = true
  · simp [needRefind, LfCpuWork.refindDue, hforce]
  rw [Bool.not_eq_true] at hforce
  rcases attachStages_cases h with ⟨_, _, scanned, -, -, hforced, -⟩
  obtain rfl := forced_of_unforced hforced hforce
  rcases stamps_attachStages h with ⟨hgeneration, hpasses, hinterval⟩
  by_cases hcycles : (before.cycles.getD []).isEmpty = true
  · -- the cache has no cycles either
    have hdue : work.refindDue env before stage = true := by simp [LfCpuWork.refindDue, hcycles]
    have hasks : stage.cache.needsCycleRefind work.stateGeneration work.dirtyPools.length
        work.arena.inner.pools.length = true := by
      rw [GraphCache.needsCycleRefind]
      rcases keepsOrDrops_attachStages h with hnone | hsame
      · simp [hnone]
      · rw [hsame, if_pos hcycles]
    rw [hdue, needRefind, hasks, Bool.or_true]
  · rw [Bool.not_eq_true] at hcycles
    have hstage := cycles_attachStages h hcycles
    have hsome : before.cycles.isNone = false := by
      cases hnone : before.cycles with
      | none => simp [hnone] at hcycles
      | some => rfl
    rw [LfCpuWork.keptCycles] at hstage
    have hasks : (stage.cache.cycles.getD []).isEmpty = false →
        stage.cache.needsCycleRefind work.stateGeneration work.dirtyPools.length
          work.arena.inner.pools.length =
            GraphCache.isMultipleOf before.lfPassCount before.cycleRefindInterval := by
      intro hkept
      rw [GraphCache.needsCycleRefind, hkept, hgeneration, hpasses, hinterval]
      simp
    rw [needRefind, LfCpuWork.refindDue, hforce, hcycles]
    cases hvalid : work.cyclesValid env before <;> cases hrebuild : work.needsRebuild before <;>
      by_cases hpos : 0 < stage.attached <;>
      simp [hvalid, hrebuild, hpos] at hstage <;> simp [hstage, hasks, hcycles, hsome, hpos]

/-- A pass that gets past its stages searches again exactly when a search is due. -/
lemma isSome_enumerated {found : Option (List FoundCycle)}
    (hstages : attachStages env work before = some (stage, forced))
    (hfound : enumerated env work before = some found) :
    found.isSome = work.refindDue env before stage := by
  simp only [enumerated, hstages, Option.bind_eq_bind, Option.bind_some, needRefind_eq hstages] at hfound
  split_ifs at hfound with hdue
  · rcases Option.bind_eq_some_iff.mp hfound with ⟨graph, -, hsome⟩
    cases hsome
    exact hdue.symm
  · cases hfound
    exact (Bool.eq_false_of_not_eq_true hdue).symm

/-- A new generation with a majority of dirty pools, or the interval, lead to a search if and only if a
search is due for another reason whenever the former is the case. -/
theorem refindPolicy_iff {found : Option (List FoundCycle)}
    (hstages : attachStages env work before = some (stage, forced))
    (hfound : enumerated env work before = some found) :
    ((work.stateGeneration ≠ before.cached.stateGeneration → work.majorityDirty = true →
        found.isSome = true) ∧
      (GraphCache.isMultipleOf before.lfPassCount before.cycleRefindInterval = true →
        found.isSome = true)) ↔
    (work.stateGeneration ≠ before.cached.stateGeneration → work.majorityDirty = true →
      work.refindDue env before stage = true) := by
  rw [isSome_enumerated hstages hfound]
  constructor
  · exact fun h => h.1
  · intro h
    refine ⟨h, fun hinterval => ?_⟩
    rw [LfCpuWork.refindDue, hinterval, Bool.or_true]

end Stages

/-! ## A majority of dirty pools -/

/-- Both pools have moved since the first pass. -/
def movedWork : LfCpuWork := { foundWork [] with dirtyPools := [0, 1], stateGeneration := 1 }

/-- The cache of the first pass, at a later pass. -/
def foundCacheAt (graph : GraphStore) (lfPass : ℕ) : GraphCache := { foundCache graph with lfPassCount := lfPass }

/-- The graph of the first pass is rescored as a whole. -/
lemma exists_rescored {graph : GraphStore}
    (hbuild : buildGraph metOrder noBatchGate fullArena (foundWork []).poolMetas = some graph) :
    ∃ rescored, rescoreDirtyPoolsOrFull metOrder fullArena graph [0, 1] 2 = some rescored := by
  have hfold : (foundWork []).poolMetas.foldl (fun graph pool =>
      (attachPoolToGraph noBatchGate graph fullArena pool).2) (.new fullArena.tokenCount) =
      twoPairGraph := rfl
  rw [buildGraph, hfold] at hbuild
  rcases Option.map_eq_some_iff.mp hbuild with ⟨built, hbuilt, rfl⟩
  exact Option.isSome_iff_exists.mp
    (isSome_rescoreGraph.mpr fun node ge hge => isSome_of_current hbuilt hge)

lemma moved_stages {graph rescored : GraphStore} {lfPass : ℕ}
    (hrebuild : GraphCache.isMultipleOf lfPass 20 = false)
    (hrescored : rescoreDirtyPoolsOrFull metOrder fullArena graph [0, 1] 2 = some rescored) :
    attachStages (foundEnv []) movedWork (foundCacheAt graph lfPass) =
      some (⟨rescored, (foundCacheAt graph lfPass).store rescored (some [foundCycle])
        (movedWork.stamp (foundEnv [])), 0, false⟩, 0) := by
  have hneeds : movedWork.needsRebuild (foundCacheAt graph lfPass) = false := by
    show (false || GraphCache.isMultipleOf lfPass 20 || _ || _) = false
    rw [hrebuild]
    rfl
  have hpick : pickGraph (foundEnv []) movedWork (foundCacheAt graph lfPass) =
      some (rescored, (foundCacheAt graph lfPass).store rescored (some [foundCycle])
        (movedWork.stamp (foundEnv []))) := by
    rw [pickGraph, hneeds]
    show (((rescoreDirtyPoolsOrFull metOrder fullArena graph [0, 1] 2).map _).bind _) = _
    rw [hrescored]
    rfl
  have hscan : scanMissing (foundEnv []) movedWork (foundCacheAt graph lfPass) rescored
      ((foundCacheAt graph lfPass).store rescored (some [foundCycle]) (movedWork.stamp (foundEnv []))) =
      some ⟨rescored, (foundCacheAt graph lfPass).store rescored (some [foundCycle])
        (movedWork.stamp (foundEnv [])), 0, false⟩ := by
    rw [scanMissing, LfCpuWork.scansMissing, LfCpuWork.catchupDue, hneeds]
    rw [show (foundEnv []).gate = noBatchGate from rfl, hasMissing_noBatchGate]
    rfl
  simp only [attachStages, hpick, hscan, Option.bind_eq_bind, Option.bind_some]
  rfl

/-- In the pass of the interval a search is due. -/
theorem refindPolicy_iff_interval :
    ∃ cache found, enumerated (foundEnv []) movedWork cache = some found ∧
      movedWork.stateGeneration ≠ cache.cached.stateGeneration ∧ movedWork.majorityDirty = true ∧
      cache.lfPassCount = cache.cycleRefindInterval ∧ found.isSome = true := by
  rcases exists_foundGraph with ⟨graph, hbuild, -⟩
  rcases exists_rescored hbuild with ⟨rescored, hrescored⟩
  have hbetween : GraphCache.isMultipleOf 5 20 = false := by decide
  have hstages := moved_stages hbetween hrescored
  have hinterval : GraphCache.isMultipleOf 5 5 = true := by decide
  have hdue : movedWork.refindDue (foundEnv []) (foundCacheAt graph 5)
      ⟨rescored, (foundCacheAt graph 5).store rescored (some [foundCycle])
        (movedWork.stamp (foundEnv [])), 0, false⟩ = true := by
    show (_ || GraphCache.isMultipleOf 5 5) = true
    rw [hinterval, Bool.or_true]
  have hfound : ∃ found, enumerated (foundEnv []) movedWork (foundCacheAt graph 5) = some found := by
    simp only [enumerated, hstages, Option.bind_eq_bind, Option.bind_some, needRefind_eq hstages]
    rw [if_pos hdue]
    exact ⟨_, rfl⟩
  rcases hfound with ⟨found, hfound⟩
  exact ⟨_, found, hfound, Nat.one_ne_zero, by decide, rfl,
    ((refindPolicy_iff hstages hfound).mpr fun _ _ => hdue).2 hinterval⟩

/-- Between two intervals, a pass that finds all pools dirty reuses the cycles. -/
theorem majority_ignored :
    ∃ cache, play LfEvent.step (.withIntervals 20 5)
        [.pass (foundEnv []) (foundWork []), .advancePass] = some cache ∧
      (cache.cycles.getD []).isEmpty = false ∧
      movedWork.stateGeneration ≠ cache.cached.stateGeneration ∧ movedWork.majorityDirty = true ∧
      (runLfCpuWork (foundEnv []) movedWork cache).isSome = true ∧
      enumerated (foundEnv []) movedWork cache = some none := by
  rcases exists_foundGraph with ⟨graph, hbuild, htokens, -⟩
  rcases exists_rescored hbuild with ⟨rescored, hrescored⟩
  have hbetween : GraphCache.isMultipleOf 1 20 = false := by decide
  have hstages := moved_stages hbetween hrescored
  refine ⟨foundCacheAt graph 1, ?_, rfl, Nat.one_ne_zero, by decide, ?_, ?_⟩
  · rw [play_cons (first_pass hbuild htokens)]
    rfl
  · simp only [runLfCpuWork, hstages, Option.bind_eq_bind, Option.bind_some, needRefind_eq hstages]
    rfl
  · simp only [enumerated, hstages, Option.bind_eq_bind, Option.bind_some, needRefind_eq hstages]
    rfl

end PolygonArb

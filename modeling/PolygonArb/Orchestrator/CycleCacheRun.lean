import PolygonArb.Lib.Transition
import PolygonArb.Orchestrator.LfPass
import PolygonArb.Pipeline.CoverageRun

/-!
# The cached cycles over runs

The cycles of a pass come from a search, and from the cycles of the passes before.  Selecting them
removes duplicates and keeps `maxPaths` of them, with one exception: the cycles of observed pools are
pinned as they are.  A cycle that is found again while it is cached is then stored twice, and both
copies are handed to the next pass.

* `CyclesGood` — at most `maxPaths` cycles, no two with the same edges.
* `NewPins` — no search of the pass finds a cached cycle of an observed pool again.
* `cyclesGood_publish` — under it, what a pass publishes is good when the cached cycles were.
* `cycleCache_distinct` — and so it is over every run; `observed_twice` is a run that leaves two copies.
-/

namespace PolygonArb

open ReverseIndex Selection TopRanked Transition

/-- At most `maxPaths` cycles, and no two with the same edges. -/
structure CyclesGood (maxPaths : ℕ) (cycles : List FoundCycle) : Prop where
  length_le : cycles.length ≤ maxPaths
  nodup : (cycles.map FoundCycle.edges).Nodup

/-- No search of the pass finds a cached cycle over an observed pool again. -/
def NewPins (env : LfEnv) (work : LfCpuWork) (prior : List FoundCycle) : Prop :=
  ∀ request, ∀ c ∈ env.findCycles request, touchesPools work.observedPoolIndices c = true →
    ∀ p ∈ prior, p.edges ≠ c.edges

/-- Every search of the pass finds distinct cycles. -/
def DistinctSearches (env : LfEnv) : Prop :=
  ∀ request, ((env.findCycles request).map FoundCycle.edges).Nodup

/-- A pass of the run: its limit and its searches, and what is asked of them. -/
structure PassAllowed (maxPaths : ℕ) (cache : GraphCache) (env : LfEnv) (work : LfCpuWork) : Prop where
  maxPaths : work.maxPaths = maxPaths
  distinct : DistinctSearches env
  newPins : NewPins env work (cache.cycles.getD [])

/-- Only passes are restricted. -/
def CyclesAllowed (maxPaths : ℕ) (cache : GraphCache) : LfEvent → Prop
  | .pass env work => PassAllowed maxPaths cache env work
  | _ => True

/-! ## What a pass publishes -/

section Publish

variable {env : LfEnv} {work : LfCpuWork} {plan : RefindPlan} {prior cycles : List FoundCycle}
  {maxPaths : ℕ}

lemma CyclesGood.sublist (h : CyclesGood maxPaths cycles) {less : List FoundCycle}
    (hsub : less.Sublist cycles) : CyclesGood maxPaths less where
  length_le := hsub.length_le.trans h.length_le
  nodup := (hsub.map _).nodup h.nodup

lemma CyclesGood.prune (h : CyclesGood maxPaths cycles) (arena : StateArena) :
    CyclesGood maxPaths (pruneDustV2Cycles arena cycles) := h.sublist List.filter_sublist

lemma cyclesGood_finalize (order : DrainOrder) (cycles : List FoundCycle) (maxPaths : ℕ) :
    CyclesGood maxPaths (finalizeEnumeratedCycles order cycles maxPaths) :=
  ⟨length_finalize_le _ _, nodup_finalizeEnumeratedCycles _ _⟩

/-- Nothing, or what one of the searches found. -/
lemma outcome_cases (env : LfEnv) (work : LfCpuWork) (plan : RefindPlan) :
    plan.outcome env work = [] ∨ ∃ request, plan.outcome env work = env.findCycles request := by
  rw [RefindPlan.outcome]
  cases plan.pinBridgeOnly with
  | true => exact .inl rfl
  | false => exact .inr ⟨_, rfl⟩

lemma nodup_outcome (h : DistinctSearches env) :
    ((plan.outcome env work).map FoundCycle.edges).Nodup := by
  rcases outcome_cases env work plan with hnone | ⟨request, hfound⟩
  · rw [hnone]
    exact List.nodup_nil
  · rw [hfound]
    exact h request

lemma mem_outcome {c : FoundCycle} (h : c ∈ plan.outcome env work) :
    ∃ request, c ∈ env.findCycles request := by
  rcases outcome_cases env work plan with hnone | ⟨request, hfound⟩
  · rw [hnone] at h
    exact absurd h List.not_mem_nil
  · exact ⟨request, hfound ▸ h⟩

lemma mergedPrior_sublist (work : LfCpuWork) (plan : RefindPlan) (prior : List FoundCycle) :
    (plan.mergedPrior work prior).Sublist prior := by
  rw [RefindPlan.mergedPrior]
  split_ifs
  · exact List.filter_sublist
  · exact List.Sublist.refl _
  · exact List.nil_sublist _

/-- The cycles over observed pools stay distinct when the cached ones are merged with new ones. -/
lemma nodup_touching (hdistinct : DistinctSearches env) (hnew : NewPins env work prior)
    (hprior : (prior.map FoundCycle.edges).Nodup) :
    (((plan.outcome env work ++ plan.mergedPrior work prior).filter
      (touchesPools work.observedPoolIndices)).map FoundCycle.edges).Nodup := by
  have hmerged := mergedPrior_sublist work plan prior
  rw [List.filter_append, List.map_append, List.nodup_append]
  refine ⟨(List.filter_sublist.map _).nodup (nodup_outcome hdistinct),
    ((List.filter_sublist.trans hmerged).map _).nodup hprior, ?_⟩
  rintro _ hfresh _ hcached rfl
  rcases List.mem_map.mp hfresh with ⟨c, hc, rfl⟩
  rcases List.mem_map.mp hcached with ⟨p, hp, hedges⟩
  rcases List.mem_filter.mp hc with ⟨houtcome, htouch⟩
  rcases mem_outcome houtcome with ⟨request, hfound⟩
  exact hnew request c hfound htouch p (hmerged.subset (List.mem_filter.mp hp).1) hedges

lemma cyclesGood_diversified (hdistinct : DistinctSearches env) (hnew : NewPins env work prior)
    (hprior : (prior.map FoundCycle.edges).Nodup) :
    CyclesGood work.maxPaths (plan.diversified env work prior) := by
  rw [RefindPlan.diversified]
  split
  · exact cyclesGood_finalize _ _ _
  · exact ⟨length_pin_le _ _ _ _, nodup_pinCyclesTouchingPools (nodup_touching hdistinct hnew hprior)⟩

lemma cyclesGood_publish (hdistinct : DistinctSearches env) (hnew : NewPins env work prior)
    (hprior : CyclesGood work.maxPaths prior) :
    CyclesGood work.maxPaths (plan.publish env work prior) := by
  have hgood : CyclesGood work.maxPaths (plan.diversified env work prior) :=
    cyclesGood_diversified hdistinct hnew hprior.nodup
  simp only [RefindPlan.publish]
  split_ifs with hempty hcached hsparse
  · exact hprior.prune _
  · exact (cyclesGood_finalize _ _ _).prune _
  · refine CyclesGood.prune ⟨length_appendNew_le _ ?_, nodup_appendNew _ hgood.nodup⟩ _
    -- the cached list is longer, and it is not too long
    simp only [Bool.and_eq_true, decide_eq_true_eq] at hsparse
    exact hsparse.2.trans_le hprior.length_le
  · exact hgood.prune _

end Publish

/-! ## Runs -/

section Runs

variable {maxPaths : ℕ} {cache after : GraphCache}

lemma CyclesGood.pass {env : LfEnv} {work : LfCpuWork} {result : LfCpuResult}
    (hgood : CyclesGood maxPaths (cache.cycles.getD [])) (hallowed : PassAllowed maxPaths cache env work)
    (h : runLfCpuWork env work cache = some (after, result)) :
    CyclesGood maxPaths (after.cycles.getD []) := by
  rw [(runLfCpuWork_store h).2.1]
  rcases runLfCpuWork_cases h with ⟨stage, forced, -, -, -, ⟨incremental, -, hcycles⟩ | ⟨-, hcycles⟩⟩
  · rw [hcycles, ← hallowed.maxPaths]
    refine cyclesGood_publish hallowed.distinct hallowed.newPins ?_
    rw [hallowed.maxPaths]
    exact hgood
  · rw [hcycles]
    exact hgood.prune _

lemma CyclesGood.step {event : LfEvent} (hgood : CyclesGood maxPaths (cache.cycles.getD []))
    (hallowed : CyclesAllowed maxPaths cache event) (h : event.step cache = some after) :
    CyclesGood maxPaths (after.cycles.getD []) := by
  cases event with
  | advancePass =>
      cases h
      exact hgood
  | invalidateCycles =>
      cases h
      exact ⟨Nat.zero_le _, List.nodup_nil⟩
  | pass env work =>
      rcases Option.map_eq_some_iff.mp h with ⟨⟨_, result⟩, hrun, rfl⟩
      exact hgood.pass hallowed hrun
  | postRate fx incidences work cpu =>
      rcases postRateAttach_cases h with ⟨rfl, -⟩ | ⟨graph, report, -, -, rfl⟩
      · exact hgood
      · have hkept : ((cache.storeGraphKeepCycles graph (work.stamp fx)).cycles.getD []) =
            cache.cycles.getD [] := by
          rw [GraphCache.storeGraphKeepCycles, GraphCache.cycles_store]
          rcases cache.cycles with _ | _ | _ <;> rfl
        rw [GraphCache.cycles_setAttachCatchupPending, hkept]
        exact hgood

/-- While no search finds a cached cycle of an observed pool again, the cache holds at most `maxPaths`
cycles, all distinct, and a pass drops a cycle of an observed pool only for `maxPaths` others. -/
theorem cycleCache_distinct
    (h : Reachable LfEvent.step (CyclesAllowed maxPaths) GraphCache.Fresh cache) :
    (cache.cycles.getD []).length ≤ maxPaths ∧
      ((cache.cycles.getD []).map FoundCycle.edges).Nodup ∧
      ∀ env work, PassAllowed maxPaths cache env work → ∀ plan : RefindPlan,
        let found := plan.outcome env work ++ plan.mergedPrior work (cache.cycles.getD [])
        let kept := pinCyclesTouchingPools env.drain found work.observedPoolIndices maxPaths false
        ∀ c ∈ found, touchesPools work.observedPoolIndices c = true → c ∉ kept →
          kept.length = maxPaths ∧ (kept.map FoundCycle.edges).Nodup ∧
            ∀ k ∈ kept, touchesPools work.observedPoolIndices k = true := by
  have hgood : CyclesGood maxPaths (cache.cycles.getD []) := by
    refine h.inv (fun cache => CyclesGood maxPaths (cache.cycles.getD [])) ?_ ?_
    · rintro _ ⟨interval, refind, rfl⟩
      exact ⟨Nat.zero_le _, List.nodup_nil⟩
    · intro cache event after hgood hallowed hstep
      exact hgood.step hallowed hstep
  refine ⟨hgood.length_le, hgood.nodup, ?_⟩
  intro env work hallowed plan found kept c hc htouch hdrop
  rcases pin_drops hc htouch hdrop with ⟨hkept, hfull⟩
  have hnodup : (((plan.outcome env work ++ plan.mergedPrior work _).filter
      (touchesPools work.observedPoolIndices)).map FoundCycle.edges).Nodup :=
    nodup_touching hallowed.distinct hallowed.newPins hgood.nodup
  refine ⟨?_, nodup_pinCyclesTouchingPools hnodup, ?_⟩
  · show (pinCyclesTouchingPools _ _ _ _ _).length = _
    rw [hkept]
    exact List.length_take_of_le hfull
  · intro k hk
    replace hk : k ∈ pinCyclesTouchingPools _ _ _ _ _ := hk
    rw [hkept] at hk
    exact (mem_pinnedCycles.mp (List.mem_of_mem_take hk)).2

end Runs

/-! ## A cycle that is found again -/

lemma coverage_rescorePools {order : RoutingGraph → List Incidence} {arena : StateArena}
    {graph graph' : GraphStore} {pools : List PoolIndex} (horder : ∀ graph, Enumerates graph (order graph))
    (hsound : graph.Sound) (hcoverage : graph.coverage ≠ none)
    (hstep : rescorePoolsInPlace order arena graph pools = some graph') :
    graph'.coverage = graph.coverage := by
  rw [rescorePoolsInPlace] at hstep
  split_ifs at hstep
  · cases hstep
    rfl
  · rcases Option.map_eq_some_iff.mp hstep with ⟨rows, hrows, rfl⟩
    have hkept := (compactAffected_recorded horder (hsound.rescored hrows).2
      (affectedAdjacencies graph pools)
      (sortDedup (pools.filter fun pool => decide (pool < graph.poolEdgePositions.length)))).2
    exact hkept.resolve_left fun hnone => hcoverage hnone.1

lemma finalizeEnumeratedCycles_singleton (order : DrainOrder) (c : FoundCycle) {maxCycles : ℕ}
    (hpos : 0 < maxCycles) : finalizeEnumeratedCycles order [c] maxCycles = [c] := by
  have hdedupe : dedupeCyclesByEdges order [c] = [c] :=
    List.perm_singleton.mp ((List.mergeSort_perm _ _).trans (order.perm [c]))
  have hsub : (applyProtocolDiverseSelection order [c] maxCycles).Subperm
      (dedupeCyclesByEdges order [c]) :=
    applyProtocolDiverseSelection_subperm [c] maxCycles
  have hlen : (applyProtocolDiverseSelection order [c] maxCycles).length =
      min maxCycles (dedupeCyclesByEdges order [c]).length :=
    length_applyProtocolDiverseSelection [c] maxCycles
  rw [hdedupe] at hsub hlen
  refine List.perm_singleton.mp (hsub.perm_of_length_le ?_)
  rw [hlen, List.length_singleton]
  omega

lemma pinCyclesTouchingPools_pair (order : DrainOrder) {c d : FoundCycle} {pins : List PoolIndex}
    {maxCycles : ℕ} (hc : touchesPools pins c = true) (hd : touchesPools pins d = true)
    (hroom : 2 ≤ maxCycles) : (pinCyclesTouchingPools order [c, d] pins maxCycles false).Perm [c, d] := by
  have hperm : (pinnedCycles [c, d] pins).Perm [c, d] := by
    have hfilter : [c, d].filter (touchesPools pins) = [c, d] := by simp [hc, hd]
    exact (pinnedCycles_perm [c, d] pins).trans (.of_eq hfilter)
  have hrest : [c, d].filter (fun c => !touchesPools pins c) = [] := by simp [hc, hd]
  have hpins : pins ≠ [] := by
    rintro rfl
    simp [touchesPools] at hc
  have hgo : ¬ (maxCycles = 0 ∨ [c, d].isEmpty = true ∨ pins.isEmpty = true) := by
    simp [hpins]
    omega
  have hsome : ¬ (pinnedCycles [c, d] pins).isEmpty = true := by
    intro hempty
    have hlength := hperm.length_eq
    rw [List.isEmpty_iff.mp hempty] at hlength
    cases hlength
  simp only [pinCyclesTouchingPools, if_neg hgo, if_neg hsome, hrest]
  rw [List.take_of_length_le (hperm.length_eq.trans_le hroom)]
  have hnone : ∀ n, finalizeEnumeratedCycles order [] n = [] := fun n =>
    List.eq_nil_iff_forall_not_mem.mpr fun c hc => List.not_mem_nil (mem_of_mem_finalize hc)
  rw [hnone]
  exact hperm

/-- The gate prices every pool and reserves no slots of a batch. -/
def noBatchGate : AttachGate := { openGate with worthCapped := fun _ _ => false }

/-- Out through the first of the two pairs and back through the second. -/
def foundCycle : FoundCycle := pairRoute 0 [pairHop 0 0 1, pairHop 1 1 0]

/-- Every search finds the cycle. -/
def foundEnv (starts : List TokenIndex) : LfEnv where
  fx := fun _ => 0
  incidences := metOrder
  drain := ⟨id, perm_id⟩
  gate := noBatchGate
  openGate := openGate
  obsStarts := fun _ _ => starts
  findCycles := fun _ => [foundCycle]

/-- Two pools, the given ones of which were observed. -/
def foundWork (observed : List PoolIndex) : LfCpuWork where
  arena := fullArena
  poolMetas := [pairMeta 0 0 1, pairMeta 1 0 1]
  dirtyPools := []
  stateGeneration := 0
  maxPaths := 10
  observedPoolIndices := observed

/-- The first edges of the two pools, as the arena prices them. -/
def pairOut : GraphEdge := ((twoPairGraph.edgesAt 0).map (repriced fullArena)).get ⟨0, by decide +kernel⟩

def pairBack : GraphEdge := ((twoPairGraph.edgesAt 1).map (repriced fullArena)).get ⟨1, by decide +kernel⟩

/-- What the first pass builds: the first pool is live and on a cycle, and both stays so. -/
lemma exists_foundGraph :
    ∃ graph, buildGraph metOrder noBatchGate fullArena (foundWork []).poolMetas = some graph ∧
      graph.tokenCount = 2 ∧ graph.poolHasLiveEdges 0 = true ∧
      ∃ rescored coverage, rescorePoolsInPlace metOrder fullArena graph [0] = some rescored ∧
        rescored.coverage = some coverage ∧ 0 ∈ coverage.poolIndices := by
  rcases Option.isSome_iff_exists.mp (isSome_rescored_twoPairGraph _ (.inr rfl)) with ⟨graph, hgraph⟩
  have hbuild : buildGraph metOrder noBatchGate fullArena (foundWork []).poolMetas =
      some (refreshGraphCycleCoverage metOrder graph) := by
    have hfold : (foundWork []).poolMetas.foldl (fun graph pool =>
        (attachPoolToGraph noBatchGate graph fullArena pool).2) (.new fullArena.tokenCount) =
        twoPairGraph := rfl
    rw [buildGraph, hfold]
    exact congrArg (Option.map _) hgraph
  have hstart := (coverReachable_twoPairGraph.recorded enumerates_metOrder).1
  have hsound := hstart.rescoreGraph hgraph
  have htokens : graph.tokenCount = 2 := (coverage_rescoreGraph hgraph).1
  have hout : pairOut ∈ graph.edgesAt 0 :=
    (liveAt_rescoreGraph hstart hgraph (by decide)).mpr ⟨List.get_mem _ _, by decide⟩
  have hback : pairBack ∈ graph.edgesAt 1 :=
    (liveAt_rescoreGraph hstart hgraph (by decide)).mpr ⟨List.get_mem _ _, by decide⟩
  have hroute : GraphRoute (n := 0) graph.routing ![0, 1] ![0, 1] ![[(0, pairOut)], [(1, pairBack)]] := by
    have hslots := hsound.indexed.slotted
    refine ⟨by decide, by decide, fun i => ?_, fun i => ?_, fun i => ?_⟩
    · show _ < graph.tokenCount
      rw [htokens]
      fin_cases i <;> decide
    · fin_cases i
      · exact hslots 0 pairOut.place (List.mem_map.mpr ⟨_, hout, rfl⟩)
      · exact hslots 1 pairBack.place (List.mem_map.mpr ⟨_, hback, rfl⟩)
    · fin_cases i
      · exact .direct hout (by decide) (by decide) (by decide)
          (by decide) (by decide)
      · exact .direct hback (by decide) (by decide) (by decide)
          (by decide) (by decide)
  have henum := enumerates_metOrder graph.routing
  have hcovered := ((hroute.closedRoute henum).covered henum.nodup 0).1
  have hrefreshed : (refreshGraphCycleCoverage metOrder graph).Sound := hsound.withCaches _ _
  have hlive : (refreshGraphCycleCoverage metOrder graph).poolHasLiveEdges 0 = true := by
    rcases List.mem_iff_getElem?.mp hout with ⟨place, hplace⟩
    have hpos : (0, place) ∈ graph.positionsOf 0 :=
      ((hsound.indexed 0).mem_iff 0 place).mpr ⟨pairOut, hplace, by decide⟩
    refine List.any_eq_true.mpr ⟨(0, place), hpos, ?_⟩
    show Option.any isLiveGraphEdge ((graph.edgesAt 0)[place]?) = true
    rw [hplace]
    decide
  have hprices : (rescorePoolsInPlace metOrder fullArena (refreshGraphCycleCoverage metOrder graph)
      [0]).isSome = true :=
    (isSome_rescorePools hrefreshed.indexed).mpr fun node ge hge _ => isSome_of_current hgraph hge
  rcases Option.isSome_iff_exists.mp hprices with ⟨rescored, hrescored⟩
  have hkept := coverage_rescorePools enumerates_metOrder hrefreshed (by nofun) hrescored
  exact ⟨_, hbuild, htokens, hlive, rescored, _, hrescored, hkept, hcovered⟩

lemma hasMissing_noBatchGate (arena : StateArena) (pools : List PoolMeta) (graph : GraphStore) :
    hasMissingEligiblePools noBatchGate arena pools graph = false := by
  simp [hasMissingEligiblePools, noBatchGate]

/-- A pass that searches, from the stages before and what it publishes. -/
lemma runLfCpuWork_refind {env : LfEnv} {work : LfCpuWork} {before : GraphCache} {stage : AttachStage}
    {forced : ℕ} {incremental : Bool} {prior cycles : List FoundCycle} {graph : GraphStore}
    (hstages : attachStages env work before = some (stage, forced))
    (hneed : needRefind env work before stage forced (stage.cache.cycles.or before.cycles) = true)
    (hincremental : incrementalRefind env work before (stage.attached + forced)
      (stage.cache.cycles.or before.cycles) = incremental)
    (hprior : (stage.cache.cycles.or before.cycles).getD [] = prior)
    (hgraph : refindGraph env work stage.graph = some graph)
    (hpublish : (refindPlan env work graph incremental).publish env work prior = cycles) :
    runLfCpuWork env work before =
      some (stage.cache.store graph (some cycles) (work.stamp env), ⟨graph, cycles, stage.hitCap⟩) := by
  simp only [runLfCpuWork, hstages, Option.bind_eq_bind, Option.bind_some, if_pos hneed, hincremental,
    hprior, refindCycles, hgraph, hpublish]

/-- The cache after the first pass. -/
def foundCache (graph : GraphStore) : GraphCache :=
  (GraphCache.withIntervals 20 5).store graph (some [foundCycle]) ((foundWork []).stamp (foundEnv []))

lemma refindGraph_found {graph : GraphStore} (htokens : graph.tokenCount = 2) (observed : List PoolIndex)
    (starts : List TokenIndex) :
    refindGraph (foundEnv starts) (foundWork observed) graph =
      if observed.isEmpty then some graph
      else rescorePoolsInPlace metOrder fullArena graph observed := by
  have hroom : graph.ensureTokenCapacity fullArena.tokenCount = graph := by
    rw [GraphStore.ensureTokenCapacity, htokens]
    exact if_pos (by decide)
  show (if (!observed.isEmpty) = true then
    rescorePoolsInPlace metOrder fullArena (graph.ensureTokenCapacity fullArena.tokenCount) observed
    else some (graph.ensureTokenCapacity fullArena.tokenCount)) = _
  rw [hroom]
  cases observed <;> rfl

/-- The first pass, whatever the hasher. -/
lemma first_pass_hashed (fx : FxHasher) {graph : GraphStore}
    (hbuild : buildGraph metOrder noBatchGate fullArena (foundWork []).poolMetas = some graph)
    (htokens : graph.tokenCount = 2) :
    LfEvent.step (.withIntervals 20 5) (.pass { foundEnv [] with fx } (foundWork [])) =
      some ((GraphCache.withIntervals 20 5).store graph (some [foundCycle])
        ((foundWork []).stamp { foundEnv [] with fx })) := by
  have hstages : attachStages { foundEnv [] with fx } (foundWork []) (.withIntervals 20 5) =
      some (⟨graph, (GraphCache.withIntervals 20 5).store graph none
        ((foundWork []).stamp { foundEnv [] with fx }), 0, false⟩, 0) := by
    have hpick : pickGraph { foundEnv [] with fx } (foundWork []) (.withIntervals 20 5) =
        some (graph, (GraphCache.withIntervals 20 5).store graph none
          ((foundWork []).stamp { foundEnv [] with fx })) := by
      have hrebuild : (foundWork []).needsRebuild (.withIntervals 20 5) = true := rfl
      have hbuilt : buildGraph (foundEnv []).incidences (foundEnv []).gate (foundWork []).arena
          (foundWork []).poolMetas = some graph := hbuild
      rw [pickGraph, if_pos hrebuild, hbuilt]
      rfl
    simp only [attachStages, hpick, Option.bind_eq_bind, Option.bind_some, scanMissing]
    rw [show (foundEnv []).gate = noBatchGate from rfl, hasMissing_noBatchGate]
    rfl
  have hpublish : (refindPlan { foundEnv [] with fx } (foundWork []) graph false).publish
      { foundEnv [] with fx } (foundWork []) [] = [foundCycle] := by
    have hselect : (refindPlan { foundEnv [] with fx } (foundWork []) graph false).diversified
        { foundEnv [] with fx } (foundWork []) [] = [foundCycle] :=
      finalizeEnumeratedCycles_singleton _ _ (by decide)
    simp only [RefindPlan.publish, hselect]
    rfl
  exact congrArg (Option.map Prod.fst)
    (runLfCpuWork_refind hstages rfl rfl rfl (refindGraph_found htokens [] []) hpublish)

lemma first_pass {graph : GraphStore}
    (hbuild : buildGraph metOrder noBatchGate fullArena (foundWork []).poolMetas = some graph)
    (htokens : graph.tokenCount = 2) :
    LfEvent.step (.withIntervals 20 5) (.pass (foundEnv []) (foundWork [])) =
      some (foundCache graph) := first_pass_hashed (fun _ => 0) hbuild htokens

/-- The first pool is observed, and every search finds the given cycle. -/
def pinEnv (c : FoundCycle) : LfEnv := { foundEnv [0, 1] with findCycles := fun _ => [c] }

/-- A second pass puts the cycle it finds over the observed pool beside the cached one. -/
lemma second_pass {graph rescored : GraphStore} {coverage : CycleCapableCoverage} {c : FoundCycle}
    (htouch : touchesPools [0] c = true) (hclear : v2AnyHopDustReserves fullArena c.edges = none)
    (htokens : graph.tokenCount = 2) (hlive : graph.poolHasLiveEdges 0 = true)
    (hrescored : rescorePoolsInPlace metOrder fullArena graph [0] = some rescored)
    (hcoverage : rescored.coverage = some coverage) (hcovered : 0 ∈ coverage.poolIndices) :
    ∃ cache cycles, LfEvent.step (foundCache graph).advancePass (.pass (pinEnv c) (foundWork [0])) =
        some cache ∧ cache.cycles = some cycles ∧ cycles.Perm [c, foundCycle] := by
  have hforce : forceAttach (pinEnv c) (foundWork [0]) graph = some (graph, 0) := by
    have hneed : (foundWork [0]).observedPoolIndices.filter (fun p => !graph.poolHasLiveEdges p) = [] := by
      simp [foundWork, hlive]
    simp only [forceAttach, hneed]
    rfl
  have hstages : attachStages (pinEnv c) (foundWork [0]) (foundCache graph).advancePass =
      some (⟨graph, (foundCache graph).advancePass, 0, false⟩, 0) := by
    have hpick : pickGraph (pinEnv c) (foundWork [0]) (foundCache graph).advancePass =
        some (graph, (foundCache graph).advancePass) := rfl
    have hscan : scanMissing (pinEnv c) (foundWork [0]) (foundCache graph).advancePass graph
        (foundCache graph).advancePass = some ⟨graph, (foundCache graph).advancePass, 0, false⟩ := rfl
    simp only [attachStages, hpick, hscan, hforce, Option.bind_eq_bind, Option.bind_some]
    rfl
  have hpin : pinCovered (foundWork [0]) rescored = 1 := by
    rw [pinCovered, hcoverage]
    simp [foundWork, hcovered]
  have hplan : refindPlan (pinEnv c) (foundWork [0]) rescored true = ⟨rescored, true, false, true⟩ := by
    rw [refindPlan, hpin]
    rfl
  have hcached : touchesPools [0] foundCycle = true := by decide
  have hselect : ((RefindPlan.mk rescored true false true).diversified (pinEnv c) (foundWork [0])
      [foundCycle]).Perm [c, foundCycle] :=
    pinCyclesTouchingPools_pair _ htouch hcached (show 2 ≤ 10 by decide)
  generalize hcycles : (refindPlan (pinEnv c) (foundWork [0]) rescored true).publish (pinEnv c)
    (foundWork [0]) [foundCycle] = cycles
  have hpublish : cycles.Perm [c, foundCycle] := by
    have hkeeps : pruneDustV2Cycles fullArena [c, foundCycle] = [c, foundCycle] := by
      have hclear' : v2AnyHopDustReserves fullArena foundCycle.edges = none := by decide +kernel
      simp [pruneDustV2Cycles, hclear, hclear']
    rw [← hcycles, hplan, ← hkeeps]
    simp only [RefindPlan.publish]
    generalize RefindPlan.diversified (pinEnv c) (foundWork [0]) _ [foundCycle] = selected at hselect ⊢
    have hlength : selected.length = 2 := hselect.length_eq
    have hsome : selected.isEmpty = false := by
      cases selected with
      | nil => cases hlength
      | cons => rfl
    rw [if_neg (by simp [hsome]), if_neg (by simp [hlength])]
    exact hselect.filter _
  have hgraph : refindGraph (pinEnv c) (foundWork [0]) graph = some rescored :=
    (refindGraph_found htokens [0] [0, 1]).trans hrescored
  have hrun := runLfCpuWork_refind hstages rfl rfl rfl hgraph hcycles
  have hstored : (some cycles).filter (fun c => !c.isEmpty) = some cycles := by
    cases cycles with
    | nil => cases hpublish.length_eq
    | cons => rfl
  exact ⟨_, cycles, congrArg (Option.map Prod.fst) hrun, hstored, hpublish⟩

/-- The way over the two pools in the other order. -/
def backCycle : FoundCycle := pairRoute 0 [pairHop 1 0 1, pairHop 0 1 0]

/-- A pass finds a cycle, and the next one, over an observed pool, another. -/
theorem cycleCache_distinct_first :
    ∃ cache cycles, play LfEvent.step (.withIntervals 20 5)
        [.pass (foundEnv []) (foundWork []), .advancePass, .pass (pinEnv backCycle) (foundWork [0])] =
          some cache ∧
      cache.cycles = some cycles ∧ cycles.Perm [backCycle, foundCycle] ∧
      (cache.cycles.getD []).length ≤ 10 ∧ ((cache.cycles.getD []).map FoundCycle.edges).Nodup := by
  rcases exists_foundGraph with
    ⟨graph, hbuild, htokens, hlive, rescored, coverage, hrescored, hcoverage, hcovered⟩
  have hfirst := first_pass hbuild htokens
  have hadvance : LfEvent.step (foundCache graph) .advancePass = some (foundCache graph).advancePass := rfl
  have hclear : v2AnyHopDustReserves fullArena backCycle.edges = none := by decide +kernel
  rcases second_pass (by decide) hclear htokens hlive hrescored hcoverage hcovered with
    ⟨cache, cycles, hsecond, hcycles, hperm⟩
  have hallowed : CyclesAllowed 10 (.withIntervals 20 5) (.pass (foundEnv []) (foundWork [])) := by
    refine ⟨rfl, fun request => List.nodup_singleton _, ?_⟩
    intro request c _ _ p hp
    cases hp
  have hfree : CyclesAllowed 10 (foundCache graph) .advancePass := trivial
  have hforced : CyclesAllowed 10 (foundCache graph).advancePass
      (.pass (pinEnv backCycle) (foundWork [0])) := by
    refine ⟨rfl, fun request => List.nodup_singleton _, ?_⟩
    intro request c hc _ p hp
    rw [List.mem_singleton.mp hc, List.mem_singleton.mp hp]
    decide
  have hdistinct := cycleCache_distinct
    (.step (.step (.step (.init ⟨20, 5, rfl⟩) hallowed hfirst) hfree hadvance) hforced hsecond)
  refine ⟨cache, cycles, ?_, hcycles, hperm, hdistinct.1, hdistinct.2.1⟩
  rw [play_cons hfirst, play_cons hadvance, play_cons hsecond, play]

/-- Two passes over two pools leave a cycle twice in the cache. -/
theorem observed_twice :
    ∃ cache, play LfEvent.step (.withIntervals 20 5)
        [.pass (foundEnv []) (foundWork []), .advancePass, .pass (foundEnv [0, 1]) (foundWork [0])] =
          some cache ∧
      (∀ starts, DistinctSearches (foundEnv starts)) ∧ (∀ observed, (foundWork observed).maxPaths = 10) ∧
      ¬ ((cache.cycles.getD []).map FoundCycle.edges).Nodup := by
  rcases exists_foundGraph with
    ⟨graph, hbuild, htokens, hlive, rescored, coverage, hrescored, hcoverage, hcovered⟩
  have hclear : v2AnyHopDustReserves fullArena foundCycle.edges = none := by decide +kernel
  rcases second_pass (by decide) hclear htokens hlive hrescored hcoverage hcovered with
    ⟨cache, cycles, hsecond, hcycles, hperm⟩
  have hsecond : LfEvent.step (foundCache graph).advancePass (.pass (foundEnv [0, 1]) (foundWork [0])) =
      some cache := hsecond
  refine ⟨cache, ?_, fun starts request => List.nodup_singleton _, fun _ => rfl, ?_⟩
  · have hadvance : LfEvent.step (foundCache graph) .advancePass =
        some (foundCache graph).advancePass := rfl
    rw [play_cons (first_pass hbuild htokens), play_cons hadvance, play_cons hsecond, play]
  · rw [hcycles, Option.getD_some, (hperm.map FoundCycle.edges).nodup_iff]
    decide

end PolygonArb

import PolygonArb.Orchestrator.RefindPolicy

/-!
# Cycles of an invalid cache

`cycle_cache_still_valid` says whether the pools of the cached cycles still stand where they stood.
When it says no, a store of a new graph drops the cycles; but the pass has kept them
(`.or(prior_cycles)`), and what follows does not ask again.  A pass without a search hands them out
pruned, and a forced pass merges them with what it finds.

* `FoundInPass` — all cycles a pass returns and stores are of its own searches.
* `invalidCache_foundInPass` — an invalid cache is not carried over by an unforced pass that searches, by
  an exclusive search that nothing of it is added to, nor when all of its cycles are pruned; an unforced
  pass has no other way.
* `flippedPool_republished` — a pool changes its family while the arena grows, and no search is due.
-/

namespace PolygonArb

open Transition

section Pass

variable {env : LfEnv} {work : LfCpuWork} {before after : GraphCache} {graph : GraphStore}
  {stage : AttachStage} {forced : ℕ} {result : LfCpuResult} {found : Option (List FoundCycle)}
  {plan : RefindPlan} {prior : List FoundCycle} {c : FoundCycle}

/-- Every cycle that the pass returns and stores was found by one of its searches. -/
def FoundInPass (found : Option (List FoundCycle)) (after : GraphCache) (result : LfCpuResult) : Prop :=
  (∀ c ∈ result.cycles, c ∈ found.getD []) ∧ ∀ c ∈ after.cycles.getD [], c ∈ found.getD []

/-! ## What is published -/

lemma mem_prune {arena : StateArena} {cycles : List FoundCycle} :
    c ∈ pruneDustV2Cycles arena cycles ↔ c ∈ cycles ∧ (v2AnyHopDustReserves arena c.edges).isNone = true :=
  List.mem_filter

lemma mem_diversified (h : c ∈ plan.diversified env work prior) :
    c ∈ plan.outcome env work ∨ c ∈ prior := by
  have hresult : c ∈ plan.outcome env work ++ plan.mergedPrior work prior := by
    rw [RefindPlan.diversified] at h
    split_ifs at h
    · exact mem_of_mem_finalize h
    · exact mem_of_mem_pin h
  exact (List.mem_append.mp hresult).imp_right fun hmem => (mergedPrior_sublist work plan prior).subset hmem

/-- A published cycle was found or cached, and it is not pruned. -/
lemma mem_publish (h : c ∈ plan.publish env work prior) :
    (c ∈ plan.found env work prior ∨ c ∈ prior) ∧
      (v2AnyHopDustReserves work.arena c.edges).isNone = true := by
  have hdiversified : c ∈ plan.diversified env work prior → c ∈ plan.found env work prior ∨ c ∈ prior :=
    fun hmem => (mem_diversified hmem).imp_left (List.mem_append_left _)
  simp only [RefindPlan.publish] at h
  split_ifs at h with hempty hcached hsparse
  · rcases mem_prune.mp h with ⟨hmem, hlive⟩
    exact ⟨.inr hmem, hlive⟩
  · rcases mem_prune.mp h with ⟨hmem, hlive⟩
    refine ⟨.inl (List.mem_append_right _ ?_), hlive⟩
    rw [Bool.not_eq_true, Bool.not_eq_false'] at hcached
    rw [hempty, hcached, Bool.and_true, if_pos rfl]
    exact mem_of_mem_finalize hmem
  · rcases mem_prune.mp h with ⟨hmem, hlive⟩
    exact ⟨(Selection.mem_appendNew hmem).elim hdiversified .inr, hlive⟩
  · rcases mem_prune.mp h with ⟨hmem, hlive⟩
    exact ⟨hdiversified hmem, hlive⟩

/-- Without observed pools, a full search does not look at the cached cycles. -/
lemma mem_publish_unforced (hforce : work.forceCycleRefind = false)
    (h : c ∈ (refindPlan env work graph false).publish env work prior) :
    c ∈ (refindPlan env work graph false).found env work prior := by
  have hobserved : work.observedPoolIndices.isEmpty = true := by
    simpa [LfCpuWork.forceCycleRefind] using hforce
  have hexclusive : (refindPlan env work graph false).exclusiveObs = false := by
    simp [refindPlan, hforce]
  have hbridge : (refindPlan env work graph false).pinBridgeOnly = false := by
    simp [refindPlan, hforce]
  have hincremental : (refindPlan env work graph false).incremental = false := rfl
  simp only [RefindPlan.publish, RefindPlan.diversified, RefindPlan.mergedPrior, hexclusive, hbridge,
    hincremental, hforce, hobserved, Bool.or_false, Bool.false_and, if_true,
    Bool.false_eq_true, if_false, List.append_nil] at h
  exact List.mem_append_left _ (mem_of_mem_finalize (mem_prune.mp h).1)

variable (env work) in
/-- An exclusive search that nothing of the cache is added to: no cached cycle runs over an observed pool, and the
search finds enough for the cache not to be fallen back on. -/
structure SearchesAlone (graph : GraphStore) (prior : List FoundCycle) : Prop where
  exclusive : (refindPlan env work graph false).exclusiveObs = true
  untouched : ∀ c ∈ prior, touchesPools work.observedPoolIndices c = false
  enough : min minExclusiveSnap prior.length ≤
    (pinCyclesTouchingPools env.drain ((refindPlan env work graph false).outcome env work)
      work.observedPoolIndices work.maxPaths false).length

/-- Such a search publishes its own cycles only. -/
lemma mem_publish_alone (halone : SearchesAlone env work graph prior)
    (h : c ∈ (refindPlan env work graph false).publish env work prior) :
    c ∈ (refindPlan env work graph false).found env work prior := by
  have hforce : work.forceCycleRefind = true ∧ (refindPlan env work graph false).pinBridgeOnly = false := by
    have hexclusive := halone.exclusive
    simp only [refindPlan, Bool.and_eq_true] at hexclusive
    simpa [refindPlan, hexclusive.1.1] using hexclusive.2
  have hobserved : work.observedPoolIndices.isEmpty = false := by
    simpa [LfCpuWork.forceCycleRefind] using hforce.1
  have hmerged : (refindPlan env work graph false).mergedPrior work prior = [] := by
    rw [RefindPlan.mergedPrior, hforce.1, Bool.or_true, if_pos rfl, halone.exclusive, if_pos rfl,
      List.filter_eq_nil_iff]
    exact fun cycle hcycle => by simp [halone.untouched cycle hcycle]
  have hdiversified : (refindPlan env work graph false).diversified env work prior =
      pinCyclesTouchingPools env.drain ((refindPlan env work graph false).outcome env work)
        work.observedPoolIndices work.maxPaths false := by
    rw [RefindPlan.diversified, hmerged, List.append_nil, hobserved, hforce.2, Bool.or_false,
      if_neg Bool.false_ne_true]
  have henough := halone.enough
  rw [← hdiversified, minExclusiveSnap] at henough
  rw [RefindPlan.publish] at h
  split_ifs at h with hempty hcached hsparse
  · -- an empty result is enough for an empty cache only
    rw [Bool.and_eq_true, List.isEmpty_iff] at hempty
    rw [hempty.2, List.length_nil] at henough
    have hnone : prior = [] := List.eq_nil_of_length_eq_zero (by omega)
    simp [hnone] at hcached
  · refine List.mem_append_right _ ?_
    rw [Bool.not_eq_true, Bool.not_eq_false'] at hcached
    rw [hempty, hcached, Bool.and_true, if_pos rfl]
    exact mem_of_mem_finalize (mem_prune.mp h).1
  · simp only [Bool.and_eq_true, decide_eq_true_eq] at hsparse
    have hfew : _ < 64 := hsparse.1.2
    have hfewer := hsparse.2
    omega
  · rw [hdiversified] at h
    exact List.mem_append_left _ (mem_of_mem_pin (mem_prune.mp h).1)

/-! ## The pass -/

/-- A pass searches and publishes when a search is due, and reuses the cached cycles otherwise. -/
lemma runLfCpuWork_found (hstages : attachStages env work before = some (stage, forced))
    (hrun : runLfCpuWork env work before = some (after, result))
    (hfound : enumerated env work before = some found) (hinvalid : work.cyclesValid env before = false) :
    (work.refindDue env before stage = true ∧ refindGraph env work stage.graph = some result.graph ∧
      found = some ((refindPlan env work result.graph false).found env work (before.cycles.getD [])) ∧
      result.cycles = (refindPlan env work result.graph false).publish env work (before.cycles.getD [])) ∨
    (work.refindDue env before stage = false ∧ found = none ∧
      result.cycles = pruneDustV2Cycles work.arena (before.cycles.getD [])) := by
  have hprior := prior_eq (keepsOrDrops_attachStages hstages)
  have hfull : incrementalRefind env work before (stage.attached + forced)
      (stage.cache.cycles.or before.cycles) = false := by
    simp [incrementalRefind, hinvalid]
  simp only [runLfCpuWork, enumerated, hstages, Option.bind_eq_bind, Option.bind_some,
    needRefind_eq hstages, hfull, hprior, refindCycles] at hrun hfound
  split_ifs at hrun hfound with hdue
  · left
    rcases Option.bind_eq_some_iff.mp hfound with ⟨graph, hgraph, hsome⟩
    rw [hgraph] at hrun
    cases hrun
    cases hsome
    exact ⟨hdue, hgraph, rfl, rfl⟩
  · right
    cases hrun
    cases hfound
    exact ⟨Bool.eq_false_of_not_eq_true hdue, rfl, rfl⟩

variable (env work before stage) in
/-- When a pass takes nothing from an invalid cache: it is unforced and a search is due, all cached cycles are
pruned, or an exclusive search has nothing of the cache added to it. -/
def StartsAfresh : Prop :=
  work.forceCycleRefind = false ∧ work.refindDue env before stage = true ∨
    pruneDustV2Cycles work.arena (before.cycles.getD []) = [] ∨
    ∃ graph, refindGraph env work stage.graph = some graph ∧
      SearchesAlone env work graph (before.cycles.getD [])

/-- What a pass makes of an invalid cache.  It carries no cycle over when it starts afresh; and an unforced pass
carries none over in these cases only. -/
theorem invalidCache_foundInPass (hstages : attachStages env work before = some (stage, forced))
    (hrun : runLfCpuWork env work before = some (after, result))
    (hfound : enumerated env work before = some found) (hinvalid : work.cyclesValid env before = false) :
    (StartsAfresh env work before stage → FoundInPass found after result) ∧
    (work.forceCycleRefind = false → FoundInPass found after result →
      StartsAfresh env work before stage) := by
  have hstored := (runLfCpuWork_store hrun).2.1
  have hcases := runLfCpuWork_found hstages hrun hfound hinvalid
  constructor
  · intro hafresh
    rw [FoundInPass, hstored, and_self]
    intro c hc
    rcases hcases with ⟨hdue, hgraph, rfl, hcycles⟩ | ⟨hdue, rfl, hcycles⟩
    · rw [hcycles] at hc
      rcases hafresh with ⟨hforce, -⟩ | hpruned | ⟨graph, hrefind, halone⟩
      · exact mem_publish_unforced hforce hc
      · rcases mem_publish hc with ⟨hmem, hlive⟩
        refine hmem.resolve_right fun hprior => ?_
        have hkept := mem_prune.mpr ⟨hprior, hlive⟩
        rw [hpruned] at hkept
        cases hkept
      · obtain rfl := Option.some.inj (hgraph.symm.trans hrefind)
        exact mem_publish_alone halone hc
    · rcases hafresh with ⟨-, hsearch⟩ | hpruned | ⟨graph, -, halone⟩
      · rw [hdue] at hsearch
        cases hsearch
      · rw [hcycles, hpruned] at hc
        cases hc
      · -- an exclusive search is forced, and a forced pass always searches
        have hexclusive := halone.exclusive
        simp only [refindPlan, Bool.and_eq_true] at hexclusive
        simp [LfCpuWork.refindDue, hexclusive.1.1] at hdue
  · intro hforce hin
    rcases hcases with ⟨hdue, -, -, -⟩ | ⟨-, rfl, hcycles⟩
    · exact .inl ⟨hforce, hdue⟩
    · refine .inr (.inl (List.eq_nil_iff_forall_not_mem.mpr fun c hc => ?_))
      rw [← hcycles] at hc
      cases hin.1 c hc

end Pass

/-! ## A pool that changes its family -/

/-- A hasher that tells the family tags apart. -/
def tagHasher : FxHasher := fun writes =>
  writes.foldl (fun digest write => digest * 31 + match write with
    | .u32 n | .usize n | .u8 n => BitVec.ofNat 64 n
    | .bytes addr => BitVec.ofNat 64 addr.toNat) 0

def flipEnv : LfEnv := { foundEnv [] with fx := tagHasher }

/-- The first pool is concentrated now, and there is a third one. -/
def flippedArena : StateArena :=
  poolArena [1, 2] [9, 10, 11] [.v3 ⟨2 ^ 96, 0, 1000000, 3000, 60, [], true, 0, 1⟩,
    pairPool 1000000000000000000000 1000000000000000000000, pairPool 0 0]

def flipWork : LfCpuWork where
  arena := flippedArena
  poolMetas := [pairMeta 0 0 1, pairMeta 1 0 1, pairMeta 2 0 1]
  dirtyPools := []
  stateGeneration := 0
  maxPaths := 10
  observedPoolIndices := []

/-- The cache the first pass leaves, at a later pass. -/
def flipCache (graph : GraphStore) (lfPass : ℕ) : GraphCache :=
  { (GraphCache.withIntervals 20 5).store graph (some [foundCycle]) ((foundWork []).stamp flipEnv) with
    lfPassCount := lfPass }

section Flip

variable {graph : GraphStore} {lfPass : ℕ}

lemma flip_invalid : flipWork.cyclesValid flipEnv (flipCache graph lfPass) = false := by
  have hprefix : ¬ flipWork.arena.routingFamilyPrefixFingerprint flipEnv.fx
      (flipCache graph lfPass).cached.poolCount = (flipCache graph lfPass).cached.familyPrefix := by
    show ¬ flippedArena.routingFamilyPrefixFingerprint tagHasher 2 =
      fullArena.routingFamilyPrefixFingerprint tagHasher 2
    decide
  rw [LfCpuWork.cyclesValid, GraphCache.cycleCacheStillValid, decide_eq_false hprefix, Bool.and_false,
    Bool.false_and]

/-- Nothing is rebuilt, rescored or attached. -/
lemma flip_stages (hrebuild : GraphCache.isMultipleOf lfPass 20 = false) :
    attachStages flipEnv flipWork (flipCache graph lfPass) =
      some (⟨graph, flipCache graph lfPass, 0, false⟩, 0) := by
  have hneeds : flipWork.needsRebuild (flipCache graph lfPass) = false := by
    show (false || GraphCache.isMultipleOf lfPass 20 || _ || _) = false
    rw [hrebuild]
    rfl
  have hpick : pickGraph flipEnv flipWork (flipCache graph lfPass) =
      some (graph, flipCache graph lfPass) := by
    rw [pickGraph, hneeds]
    rfl
  have hscan : scanMissing flipEnv flipWork (flipCache graph lfPass) graph (flipCache graph lfPass) =
      some ⟨graph, flipCache graph lfPass, 0, false⟩ := by
    -- whether the scan is due or not, no pool is missing
    rw [scanMissing, show flipEnv.gate = noBatchGate from rfl, hasMissing_noBatchGate]
    generalize flipWork.scansMissing flipEnv _ _ = due
    generalize flipWork.catchupDue flipEnv _ _ = catchup
    cases due <;> cases catchup <;> rfl
  simp only [attachStages, hpick, hscan, Option.bind_eq_bind, Option.bind_some]
  rfl

end Flip

/-- In the pass of the interval the cycles are searched again, and none is carried over. -/
theorem invalidCache_foundInPass_interval :
    ∃ cache after result found, runLfCpuWork flipEnv flipWork cache = some (after, result) ∧
      enumerated flipEnv flipWork cache = some found ∧ flipWork.cyclesValid flipEnv cache = false ∧
      cache.lfPassCount = cache.cycleRefindInterval ∧ FoundInPass found after result := by
  rcases exists_foundGraph with ⟨graph, -⟩
  have hbetween : GraphCache.isMultipleOf 5 20 = false := by decide
  have hstages : attachStages flipEnv flipWork (flipCache graph 5) =
      some (⟨graph, flipCache graph 5, 0, false⟩, 0) := flip_stages hbetween
  have hinterval : GraphCache.isMultipleOf 5 5 = true := by decide
  have hdue : flipWork.refindDue flipEnv (flipCache graph 5) ⟨graph, flipCache graph 5, 0, false⟩ = true := by
    show (_ || GraphCache.isMultipleOf 5 5) = true
    rw [hinterval, Bool.or_true]
  have hpass : ∃ after result found, runLfCpuWork flipEnv flipWork (flipCache graph 5) = some (after, result) ∧
      enumerated flipEnv flipWork (flipCache graph 5) = some found := by
    simp only [runLfCpuWork, enumerated, hstages, Option.bind_eq_bind, Option.bind_some, needRefind_eq hstages]
    rw [if_pos hdue, if_pos hdue]
    exact ⟨_, _, _, rfl, rfl⟩
  rcases hpass with ⟨after, result, found, hrun, hfound⟩
  exact ⟨_, after, result, found, hrun, hfound, flip_invalid, rfl,
    (invalidCache_foundInPass hstages hrun hfound flip_invalid).1 (.inl ⟨rfl, hdue⟩)⟩

/-- Between two intervals the cached cycle is handed out again, over the pool that is another one now. -/
theorem flippedPool_republished :
    ∃ cache after result, play LfEvent.step (.withIntervals 20 5)
        [.pass flipEnv (foundWork []), .advancePass] = some cache ∧
      flipWork.cyclesValid flipEnv cache = false ∧
      runLfCpuWork flipEnv flipWork cache = some (after, result) ∧
      enumerated flipEnv flipWork cache = some none ∧
      foundCycle ∈ cache.cycles.getD [] ∧ foundCycle ∈ result.cycles ∧
      foundCycle ∈ after.cycles.getD [] ∧ ¬ FoundInPass none after result := by
  rcases exists_foundGraph with ⟨graph, hbuild, htokens, -⟩
  have hbetween : GraphCache.isMultipleOf 1 20 = false := by decide
  have hstages : attachStages flipEnv flipWork (flipCache graph 1) =
      some (⟨graph, flipCache graph 1, 0, false⟩, 0) := flip_stages hbetween
  have hrun : ∃ after result, runLfCpuWork flipEnv flipWork (flipCache graph 1) = some (after, result) ∧
      result.cycles = pruneDustV2Cycles flippedArena [foundCycle] := by
    simp only [runLfCpuWork, hstages, Option.bind_eq_bind, Option.bind_some, needRefind_eq hstages]
    exact ⟨_, _, rfl, rfl⟩
  rcases hrun with ⟨after, result, hrun, hcycles⟩
  have hmem : foundCycle ∈ result.cycles := by
    rw [hcycles, mem_prune]
    exact ⟨List.mem_singleton_self _, by decide⟩
  refine ⟨flipCache graph 1, after, result, ?_, flip_invalid, hrun, ?_, List.mem_singleton_self _, hmem, ?_,
    fun hin => List.not_mem_nil (hin.1 _ hmem)⟩
  · rw [flipEnv, play_cons (first_pass_hashed tagHasher hbuild htokens)]
    rfl
  · simp only [enumerated, hstages, Option.bind_eq_bind, Option.bind_some, needRefind_eq hstages]
    rfl
  · rw [(runLfCpuWork_store hrun).2.1]
    exact hmem

end PolygonArb

import PolygonArb.Lib.Transition
import PolygonArb.Orchestrator.LfPass
import PolygonArb.Pipeline.CoverageRun

/-!
# Crediting eligible pools

A pass looks for pools that became eligible and are missing from the graph, unless it was forced by
observed pools.  Whether it looks depends on the eligible count the cache was stamped with, and every
store of the cache stamps it with the current count.  Growth is then credited although nobody looked for
the new pools: by a forced pass, and by a pass that rescored the graph, for the rescore stamps the cache
before the count is compared.

* `runsScan` — the pass looks for missing pools; `runsScan_eq` says when, from what it is given.
* `AbsorbsGrowth` — the count grew, and the pass neither builds nor looks; `absorbsGrowth_iff`.
* `CreditState` — the cache with the count at the last build or scan, which is proof-only.
* `eligible_growth_scanned` — while no pass absorbs growth, growth past the threshold makes the
  connectivity stale; `growth_absorbed` is a pass that absorbs it.
-/

namespace PolygonArb

open Transition

/-! ## Looking for missing pools -/

/-- The pass looks for eligible pools that are missing from the graph it picked. -/
def runsScan (env : LfEnv) (work : LfCpuWork) (before : GraphCache) : Bool :=
  match pickGraph env work before with
  | some (_, cache) => work.scansMissing env before cache
  | none => false

/-- More pools are eligible than were counted, and the pass, which keeps the graph, is forced or rescores
it before it compares the counts. -/
def AbsorbsGrowth (env : LfEnv) (work : LfCpuWork) (before : GraphCache) : Prop :=
  before.cached.eligiblePoolCount < work.eligibleCount env ∧ work.needsRebuild before = false ∧
    (work.forceCycleRefind = true ∨
      work.stateGeneration ≠ before.cached.stateGeneration ∧ work.stale env before = false)

section Scan

variable {env : LfEnv} {work : LfCpuWork} {before cache after : GraphCache} {graph : GraphStore}
  {result : LfCpuResult}

lemma runsScan_eq (hpick : pickGraph env work before = some (graph, cache)) :
    runsScan env work before =
      (!work.forceCycleRefind && (work.needsRebuild before || work.stale env before ||
        (decide (work.stateGeneration = before.cached.stateGeneration)
          && decide (before.cached.eligiblePoolCount < work.eligibleCount env)))) := by
  have hscan : runsScan env work before = work.scansMissing env before cache := by
    simp only [runsScan, hpick]
  rw [hscan, LfCpuWork.scansMissing, LfCpuWork.catchupDue, Bool.and_comm]
  rcases pickGraph_cases hpick with ⟨hrebuild, -, rfl⟩ | ⟨old, -, -, hgen, -, rfl⟩ | ⟨-, -, hgen, rfl⟩
  · simp [hrebuild]
  · -- the rescore stamped the cache with the count it is compared with
    have hstamped : (work.stamp env).eligiblePoolCount = work.eligibleCount env := rfl
    simp [hstamped, hgen]
  · simp [hgen]

/-- A pass raises the count without a build or a scan exactly when it absorbs growth. -/
lemma absorbsGrowth_iff (h : runLfCpuWork env work before = some (after, result)) :
    before.cached.eligiblePoolCount < after.cached.eligiblePoolCount ∧
        (work.needsRebuild before || runsScan env work before) = false ↔
      AbsorbsGrowth env work before := by
  have hstamp : after.cached.eligiblePoolCount = work.eligibleCount env := by
    rw [(runLfCpuWork_store h).2.2]
    rfl
  rcases runLfCpuWork_cases h with ⟨stage, forced, hstages, -⟩
  rcases attachStages_cases hstages with ⟨picked, cache, scanned, hpick, -⟩
  rw [hstamp, runsScan_eq hpick, AbsorbsGrowth]
  refine and_congr_right fun hgrows => ?_
  cases work.needsRebuild before <;> cases work.forceCycleRefind <;> cases work.stale env before <;>
    simp [hgrows]

end Scan

/-! ## The count at the last build or scan -/

/-- The eligible count an event looked at when it built a graph or attached what was missing. -/
def LfEvent.eligibleSeen (before : GraphCache) : LfEvent → Option ℕ
  | .pass env work =>
      if work.needsRebuild before || runsScan env work before then some (work.eligibleCount env)
      else none
  | .postRate fx incidences work cpu =>
      match postRatePatch incidences work cpu with
      | some (some (_, report)) =>
          if 0 < report.attachedPools then some (work.stamp fx).eligiblePoolCount else none
      | _ => none
  | _ => none

/-- The cache, and the eligible count at the last build or scan, if there was one. -/
structure CreditState where
  cache : GraphCache
  lastScan : Option ℕ

namespace CreditState

def Fresh (s : CreditState) : Prop := s.cache.Fresh ∧ s.lastScan = none

def step (s : CreditState) (event : LfEvent) : Run CreditState :=
  (event.step s.cache).map fun cache => ⟨cache, (event.eligibleSeen s.cache).or s.lastScan⟩

/-- No pass absorbs growth. -/
def Sees (s : CreditState) : LfEvent → Prop
  | .pass env work => ¬ AbsorbsGrowth env work s.cache
  | _ => True

/-- The cache credits no more pools than were eligible at the last build or scan. -/
structure Credited (s : CreditState) : Prop where
  unbuilt : s.lastScan = none → s.cache.graph = none ∧ s.cache.cached.eligiblePoolCount = 0
  built : ∀ n, s.lastScan = some n →
    s.cache.graph.isSome = true ∧ s.cache.cached.eligiblePoolCount ≤ n

variable {s s' : CreditState} {event : LfEvent}

lemma credited_fresh (h : s.Fresh) : s.Credited := by
  rcases s with ⟨cache, lastScan⟩
  rcases h with ⟨⟨interval, refind, rfl⟩, hnone⟩
  dsimp only at hnone
  subst hnone
  exact ⟨fun _ => ⟨rfl, rfl⟩, nofun⟩

/-- The count is raised only by an event that builds or scans. -/
lemma raised_of_step (hsees : s.Sees event) (h : s.step event = some s')
    (hraised : s.cache.cached.eligiblePoolCount < s'.cache.cached.eligiblePoolCount) :
    event.eligibleSeen s.cache = some s'.cache.cached.eligiblePoolCount := by
  rcases Option.map_eq_some_iff.mp h with ⟨after, hstep, rfl⟩
  cases event with
  | advancePass =>
      cases hstep
      exact absurd hraised (lt_irrefl _)
  | invalidateCycles =>
      cases hstep
      exact absurd hraised (lt_irrefl _)
  | pass env work =>
      rcases Option.map_eq_some_iff.mp hstep with ⟨⟨after, result⟩, hrun, rfl⟩
      have hstamp : after.cached.eligiblePoolCount = work.eligibleCount env := by
        rw [(runLfCpuWork_store hrun).2.2]
        rfl
      have hseen : (work.needsRebuild s.cache || runsScan env work s.cache) = true := by
        by_contra hunseen
        exact hsees ((absorbsGrowth_iff hrun).mp ⟨hraised, Bool.eq_false_of_not_eq_true hunseen⟩)
      rw [LfEvent.eligibleSeen, if_pos hseen, hstamp]
  | postRate fx incidences work cpu =>
      rcases postRateAttach_cases hstep with ⟨rfl, -⟩ | ⟨graph, report, hpatch, hattached, rfl⟩
      · exact absurd hraised (lt_irrefl _)
      · simp only [LfEvent.eligibleSeen, hpatch, if_pos hattached]
        rfl

/-- An event that builds or scans leaves its count in the cache, with a graph. -/
lemma seen_of_step {n : ℕ} (h : s.step event = some s') (hseen : event.eligibleSeen s.cache = some n) :
    s'.cache.cached.eligiblePoolCount = n ∧ s'.cache.graph.isSome = true := by
  rcases Option.map_eq_some_iff.mp h with ⟨after, hstep, rfl⟩
  cases event with
  | advancePass => cases hseen
  | invalidateCycles => cases hseen
  | pass env work =>
      rcases Option.map_eq_some_iff.mp hstep with ⟨⟨after, result⟩, hrun, rfl⟩
      rcases runLfCpuWork_store hrun with ⟨hgraph, -, hstamp⟩
      rw [LfEvent.eligibleSeen] at hseen
      split_ifs at hseen
      cases hseen
      dsimp only
      rw [hstamp, hgraph]
      exact ⟨rfl, rfl⟩
  | postRate fx incidences work cpu =>
      rcases postRateAttach_cases hstep with ⟨rfl, hnone⟩ | ⟨graph, report, hpatch, hattached, rfl⟩
      · rw [LfEvent.eligibleSeen] at hseen
        split at hseen
        · rename_i graph report hpatch
          rw [if_neg (hnone graph report hpatch)] at hseen
          cases hseen
        · cases hseen
      · simp only [LfEvent.eligibleSeen, hpatch, if_pos hattached, Option.some.injEq] at hseen
        exact ⟨hseen, rfl⟩

lemma needsRebuild_of_none {work : LfCpuWork} {before : GraphCache} (h : before.graph = none) :
    work.needsRebuild before = true := by
  rw [LfCpuWork.needsRebuild, GraphCache.needsConnectivityRebuild, h]
  rfl

/-- A graph that is not looked at is left there, and none is left none. -/
lemma graph_of_unseen (h : s.step event = some s') (hunseen : event.eligibleSeen s.cache = none) :
    (s.cache.graph = none → s'.cache.graph = none) ∧
      (s.cache.graph.isSome = true → s'.cache.graph.isSome = true) := by
  rcases Option.map_eq_some_iff.mp h with ⟨after, hstep, rfl⟩
  cases event with
  | advancePass =>
      cases hstep
      exact ⟨id, id⟩
  | invalidateCycles =>
      cases hstep
      exact ⟨id, id⟩
  | pass env work =>
      rcases Option.map_eq_some_iff.mp hstep with ⟨⟨after, result⟩, hrun, rfl⟩
      refine ⟨fun hnone => ?_, fun _ => ?_⟩
      · rw [LfEvent.eligibleSeen, needsRebuild_of_none hnone] at hunseen
        cases hunseen
      · dsimp only
        rw [(runLfCpuWork_store hrun).1]
        rfl
  | postRate fx incidences work cpu =>
      rcases postRateAttach_cases hstep with ⟨rfl, -⟩ | ⟨graph, report, hpatch, hattached, rfl⟩
      · exact ⟨id, id⟩
      · simp only [LfEvent.eligibleSeen, hpatch, if_pos hattached] at hunseen
        cases hunseen

lemma Credited.step (hcredited : s.Credited) (hsees : s.Sees event) (h : s.step event = some s') :
    s'.Credited := by
  have hlast : s'.lastScan = (event.eligibleSeen s.cache).or s.lastScan := by
    rcases Option.map_eq_some_iff.mp h with ⟨after, -, rfl⟩
    rfl
  cases hseen : event.eligibleSeen s.cache with
  | some n =>
      rw [hseen, Option.some_or] at hlast
      rcases seen_of_step h hseen with ⟨hcached, hgraph⟩
      refine ⟨fun hnone => ?_, fun m hm => ?_⟩
      · rw [hlast] at hnone
        cases hnone
      · rw [hlast] at hm
        cases hm
        exact ⟨hgraph, hcached.le⟩
  | none =>
      rw [hseen, Option.none_or] at hlast
      -- nobody looked, so the count did not grow
      have hle : s'.cache.cached.eligiblePoolCount ≤ s.cache.cached.eligiblePoolCount := by
        by_contra hraised
        have hlooked := raised_of_step hsees h (not_le.mp hraised)
        rw [hseen] at hlooked
        cases hlooked
      have hgraph := graph_of_unseen h hseen
      refine ⟨fun hnone => ?_, fun n hn => ?_⟩
      · rcases hcredited.unbuilt (hlast ▸ hnone) with ⟨hempty, hzero⟩
        exact ⟨hgraph.1 hempty, Nat.le_zero.mp (hzero ▸ hle)⟩
      · rcases hcredited.built n (hlast ▸ hn) with ⟨hsome, hcached⟩
        exact ⟨hgraph.2 hsome, hle.trans hcached⟩

lemma Credited.stale (h : s.Credited) {n eligible : ℕ} (hlast : s.lastScan = some n)
    (hgrown : n + max eligiblePoolRebuildDelta (n / 20) ≤ eligible) :
    s.cache.connectivityStale eligible = true := by
  rcases h.built n hlast with ⟨hgraph, hle⟩
  have hdelta : (0 : ℕ) < eligiblePoolRebuildDelta := by decide
  have hpart : s.cache.cached.eligiblePoolCount / 20 ≤ n / 20 := Nat.div_le_div_right hle
  rw [GraphCache.connectivityStale]
  split_ifs with hpending hcounted
  · rfl
  · simp only [Option.isNone_iff_eq_none, Bool.or_eq_true, decide_eq_true_eq] at hcounted
    rcases hcounted with hnone | hcounted
    · rw [hnone] at hgraph
      cases hgraph
    · omega
  · exact decide_eq_true (by omega)

end CreditState

/-! ## Runs -/

open CreditState in
/-- While no pass absorbs growth, only a build or a scan raises the count, and when the eligible pools
outnumber those of the last one by the threshold, the next unforced pass scans. -/
theorem eligible_growth_scanned {s : CreditState} (h : Reachable step Sees Fresh s) :
    (∀ event s', s.Sees event → s.step event = some s' →
      s.cache.cached.eligiblePoolCount < s'.cache.cached.eligiblePoolCount →
      (event.eligibleSeen s.cache).isSome = true) ∧
    ∀ n eligible, s.lastScan = some n → n + max eligiblePoolRebuildDelta (n / 20) ≤ eligible →
      s.cache.connectivityStale eligible = true ∧
      ∀ env work s', work.eligibleCount env = eligible → work.forceCycleRefind = false →
        s.step (.pass env work) = some s' → runsScan env work s.cache = true := by
  have hcredited : s.Credited :=
    h.inv Credited (fun _ => credited_fresh) fun _ _ _ hcredited hsees hstep => hcredited.step hsees hstep
  refine ⟨fun event s' hsees hstep hraised => ?_, fun n eligible hlast hgrown => ?_⟩
  · rw [raised_of_step hsees hstep hraised]
    rfl
  · have hstale := hcredited.stale hlast hgrown
    refine ⟨hstale, fun env work s' heligible hunforced hstep => ?_⟩
    rcases Option.map_eq_some_iff.mp hstep with ⟨after, hpass, -⟩
    rcases Option.map_eq_some_iff.mp hpass with ⟨⟨_, result⟩, hrun, -⟩
    rcases runLfCpuWork_cases hrun with ⟨stage, forced, hstages, -⟩
    rcases attachStages_cases hstages with ⟨picked, cache, scanned, hpick, -⟩
    rw [runsScan_eq hpick, hunforced, LfCpuWork.stale, heligible, hstale]
    simp

/-! ### A hundred new pools -/

/-- A hundred pairs of the same two tokens. -/
def crowdedArena : StateArena :=
  poolArena [1, 2] ((List.range 100).map fun i => BitVec.ofNat 160 (9 + i))
    (List.replicate 100 (pairPool 1000000000000000000000 1000000000000000000000))

def growthEnv : LfEnv where
  fx := fun _ => 0
  incidences := metOrder
  drain := ⟨id, perm_id⟩
  gate := openGate
  openGate := openGate
  obsStarts := fun _ _ => []
  findCycles := fun _ => []

/-- A pass over the first pairs, at a generation. -/
def growthPass (pairs generation : ℕ) : LfEvent :=
  .pass growthEnv
    { arena := crowdedArena
      poolMetas := (List.range pairs).map fun i => pairMeta i 0 1
      dirtyPools := []
      stateGeneration := generation
      maxPaths := 10
      observedPoolIndices := [] }

def freshCredit : CreditState := ⟨.withIntervals 20 5, none⟩

/-- The first pass builds a graph of nothing.  The second raises the count and scans, and at two hundred
eligible pairs the connectivity would be stale. -/
theorem eligible_growth_scanned_onePair :
    ∃ s s' : CreditState, s.step (growthPass 1 0) = some s' ∧
      s.cache.cached.eligiblePoolCount < s'.cache.cached.eligiblePoolCount ∧
      ((growthPass 1 0).eligibleSeen s.cache).isSome = true ∧
      s.lastScan = some 0 ∧ s.cache.connectivityStale 200 = true := by
  have hruns : ((freshCredit.step (growthPass 0 0)).bind fun built =>
      (built.step .advancePass).bind fun s =>
        (s.step (growthPass 1 0)).map fun s' =>
          (s.lastScan, s.cache.cached.stateGeneration, s.cache.cached.eligiblePoolCount,
            s'.cache.cached.eligiblePoolCount)) = some (some 0, 0, 0, 1) := by
    decide +kernel
  rcases Option.bind_eq_some_iff.mp hruns with ⟨built, hbuilt, hruns⟩
  rcases Option.bind_eq_some_iff.mp hruns with ⟨s, hs, hruns⟩
  rcases Option.map_eq_some_iff.mp hruns with ⟨s', hs', hvalues⟩
  simp only [Prod.mk.injEq] at hvalues
  rcases hvalues with ⟨hlast, hgeneration, hbefore, hafter⟩
  have hreach : Reachable CreditState.step CreditState.Sees CreditState.Fresh s := by
    have hbuild : freshCredit.Sees (growthPass 0 0) := by
      rintro ⟨-, hrebuild, -⟩
      cases hrebuild
    have hadvance : built.Sees .advancePass := trivial
    exact .step (.step (.init ⟨⟨20, 5, rfl⟩, rfl⟩) hbuild hbuilt) hadvance hs
  have hraised : s.cache.cached.eligiblePoolCount < s'.cache.cached.eligiblePoolCount := by
    rw [hbefore, hafter]
    exact Nat.zero_lt_one
  have hsees : s.Sees (growthPass 1 0) := by
    rintro ⟨-, -, hforced | ⟨hmoved, -⟩⟩
    · cases hforced
    · exact hmoved hgeneration.symm
  have hscanned := eligible_growth_scanned hreach
  exact ⟨s, s', hs', hraised, hscanned.1 _ s' hsees hs' hraised, hlast,
    (hscanned.2 0 200 hlast (by decide)).1⟩

/-- The second pass sees a new generation and a hundred new pairs.  It credits them without a scan, and
at two hundred the connectivity is still not stale, although nothing was attached since the count was
zero. -/
theorem growth_absorbed :
    ∃ s s', play CreditState.step freshCredit [growthPass 0 0, .advancePass] = some s ∧
      s.step (growthPass 100 1) = some s' ∧
      s.cache.cached.eligiblePoolCount = 0 ∧ s'.cache.cached.eligiblePoolCount = 100 ∧
      (growthPass 100 1).eligibleSeen s.cache = none ∧
      s'.lastScan = some 0 ∧ s'.cache.connectivityStale 200 = false := by
  have hruns : ((play CreditState.step freshCredit [growthPass 0 0, .advancePass]).bind fun s =>
      (s.step (growthPass 100 1)).map fun s' =>
        (s.cache.cached.eligiblePoolCount, s'.cache.cached.eligiblePoolCount,
          (growthPass 100 1).eligibleSeen s.cache, s'.lastScan, s'.cache.connectivityStale 200)) =
      some (0, 100, none, some 0, false) := by
    decide +kernel
  rcases Option.bind_eq_some_iff.mp hruns with ⟨s, hs, hruns⟩
  rcases Option.map_eq_some_iff.mp hruns with ⟨s', hs', hvalues⟩
  simp only [Prod.mk.injEq] at hvalues
  exact ⟨s, s', hs, hs', hvalues⟩

end PolygonArb

import Mathlib.Logic.Function.Basic
import Mathlib.Tactic.Common
import PolygonArb.Core.Types

/-!
# What the service learns about a route

`RouteStats` of `services/execution/service/route_stats.rs` and the two figures that `risk.rs` derives
from it: the multiplier of the minimum profit, and the cap on the flash loan.  The line a record writes to
the stats file is left out; nothing reads it back.

* `riskMultiplier_after_attempt` — the multiplier in closed form after any run.  One more failure never
  lowers it: failures have different weights, so the average weight of an attempt can go down, but only where
  the multiplier is at its cap.  One more success never raises it, except that the third attempt makes the
  failures before it count.
* `adaptiveFlashCap_restored` — wherever a run has left the cap of a route, two promotions bring it to the
  configured maximum and two demotions to the initial cap.
-/

namespace PolygonArb

open Function

/-- A counter (`u64`) that goes up wraps. -/
def incrementU64 (n : ℕ) : ℕ := (n + 1) % 2 ^ 64

def saturatingAddU64 (a b : ℕ) : ℕ := min (a + b) (2 ^ 64 - 1)

def saturatingMulU64 (a b : ℕ) : ℕ := min (a * b) (2 ^ 64 - 1)

/-- The counters of a route (`u64`). -/
structure RouteStats where
  successes : ℕ
  dryRunSuccesses : ℕ
  failures : ℕ
  dryRunFailures : ℕ
  submitFailures : ℕ
  receiptTimeouts : ℕ
  reverts : ℕ
  realizedLosses : ℕ
  adaptiveFlashLoanUsd : Option ℕ
  deriving DecidableEq

inductive RouteFailureKind
  | dryRun
  | submit
  | timeout
  | revert
  | realizedLoss
  deriving DecidableEq

/-- A quarter of the configured cap is where a route starts (`ADAPTIVE_FLASH_CAP_START_DIVISOR`). -/
def adaptiveFlashCapStartDivisor : ℕ := 4

namespace RouteStats

def new : RouteStats := ⟨0, 0, 0, 0, 0, 0, 0, 0, none⟩

def recordFailure (stats : RouteStats) (kind : RouteFailureKind) : RouteStats :=
  let stats := { stats with failures := incrementU64 stats.failures }
  match kind with
  | .dryRun => { stats with dryRunFailures := incrementU64 stats.dryRunFailures }
  | .submit => { stats with submitFailures := incrementU64 stats.submitFailures }
  | .timeout => { stats with receiptTimeouts := incrementU64 stats.receiptTimeouts }
  | .revert => { stats with reverts := incrementU64 stats.reverts }
  | .realizedLoss => { stats with realizedLosses := incrementU64 stats.realizedLosses }

def recordSuccess (stats : RouteStats) : RouteStats :=
  { stats with successes := incrementU64 stats.successes }

def recordDryRunPass (stats : RouteStats) : RouteStats :=
  { stats with dryRunSuccesses := incrementU64 stats.dryRunSuccesses }

def attempts (stats : RouteStats) : ℕ := saturatingAddU64 stats.successes stats.failures

def hardExtra (stats : RouteStats) : ℕ := saturatingAddU64 stats.reverts stats.realizedLosses

/-- Failures in half units: two for any, two more for a revert or a loss, one more for a timeout. -/
def weightedHalf (stats : RouteStats) : ℕ :=
  saturatingAddU64 (saturatingAddU64 (saturatingMulU64 stats.failures 2) (saturatingMulU64 stats.hardExtra 2))
    stats.receiptTimeouts

/-- `risk_multiplier_bps_from_stats`. -/
def riskMultiplierBps (stats : RouteStats) : ℕ :=
  if stats.attempts < 3 then 10000
  else min (saturatingAddU64 10000 (saturatingMulU64 stats.weightedHalf 10000 / stats.attempts)) 30000

end RouteStats

/-- `adaptive_flash_cap_initial`. -/
def adaptiveFlashCapInitial (configuredMaxUsd : ℕ) : ℕ :=
  saturatingAddU64 configuredMaxUsd (adaptiveFlashCapStartDivisor - 1) / adaptiveFlashCapStartDivisor

/-- What the service keeps per route; a route without an outcome has no entry. -/
abbrev RouteLearning := List Edge → Option RouteStats

namespace RouteLearning

variable (s : RouteLearning) (edges : List Edge) (maxUsd : ℕ)

/-- `entry(edges).or_default()`. -/
def entry : RouteStats := (s edges).getD .new

def put (stats : RouteStats) : RouteLearning := update s edges (some stats)

def routeRiskMultiplierBps : ℕ := ((s edges).map RouteStats.riskMultiplierBps).getD 10000

def adaptiveFlashLoanUsd : ℕ :=
  min (((s edges).bind RouteStats.adaptiveFlashLoanUsd).getD (adaptiveFlashCapInitial maxUsd)) maxUsd

def recordRouteFailure (kind : RouteFailureKind) : RouteLearning :=
  s.put edges ((s.entry edges).recordFailure kind)

def recordRouteSuccess : RouteLearning := s.put edges (s.entry edges).recordSuccess

def recordRouteDryRunPass : RouteLearning := s.put edges (s.entry edges).recordDryRunPass

/-- Both moves of the cap write nothing when they would change nothing. -/
def moveAdaptiveFlashLoanCap (next : ℕ) : RouteLearning :=
  s.put edges { s.entry edges with adaptiveFlashLoanUsd := some next }

def promoteAdaptiveFlashLoanCap : Option (ℕ × ℕ) × RouteLearning :=
  let current := s.adaptiveFlashLoanUsd edges maxUsd
  let next := min (saturatingMulU64 current 2) maxUsd
  if next = current then (none, s) else (some (current, next), s.moveAdaptiveFlashLoanCap edges next)

def demoteAdaptiveFlashLoanCap : Option (ℕ × ℕ) × RouteLearning :=
  let current := s.adaptiveFlashLoanUsd edges maxUsd
  let next := min (max (current / 2) (adaptiveFlashCapInitial maxUsd)) maxUsd
  if current ≤ next then (none, s) else (some (current, next), s.moveAdaptiveFlashLoanCap edges next)

end RouteLearning

/-! ## Runs -/

/-- What the service is told about a route. -/
inductive LearningEvent
  | success (edges : List Edge)
  | dryRunPass (edges : List Edge)
  | failure (edges : List Edge) (kind : RouteFailureKind)
  | promote (edges : List Edge)
  | demote (edges : List Edge)
  deriving DecidableEq

namespace RouteLearning

/-- `maxUsd` is the configured cap, the same in every call. -/
def apply (maxUsd : ℕ) (s : RouteLearning) : LearningEvent → RouteLearning
  | .success edges => s.recordRouteSuccess edges
  | .dryRunPass edges => s.recordRouteDryRunPass edges
  | .failure edges kind => s.recordRouteFailure edges kind
  | .promote edges => (s.promoteAdaptiveFlashLoanCap edges maxUsd).2
  | .demote edges => (s.demoteAdaptiveFlashLoanCap edges maxUsd).2

def run (maxUsd : ℕ) (s : RouteLearning) (events : List LearningEvent) : RouteLearning :=
  events.foldl (apply maxUsd) s

end RouteLearning

/-! ## The multiplier -/

/-- What a failure weighs, in half units. -/
def RouteFailureKind.weight : RouteFailureKind → ℕ
  | .dryRun | .submit => 2
  | .timeout => 3
  | .revert | .realizedLoss => 4

/-- The weight of the attempt at the route that the event reports, if it reports one. -/
def LearningEvent.attempt (edges : List Edge) : LearningEvent → Option ℕ
  | .success edges' => if edges' = edges then some 0 else none
  | .failure edges' kind => if edges' = edges then some kind.weight else none
  | _ => none

lemma RouteFailureKind.weight_le (kind : RouteFailureKind) : 2 ≤ kind.weight ∧ kind.weight ≤ 4 := by
  cases kind <;> simp [RouteFailureKind.weight]

namespace RouteStats

variable {stats : RouteStats}

/-- The attempts and their weight without a word size. -/
def outcomes (stats : RouteStats) : ℕ := stats.successes + stats.failures

def weight (stats : RouteStats) : ℕ :=
  stats.failures * 2 + (stats.reverts + stats.realizedLosses) * 2 + stats.receiptTimeouts

/-- The counters of the two figures can go up. -/
structure Fits (stats : RouteStats) : Prop where
  successes : stats.successes + 1 < 2 ^ 64
  failures : stats.failures + 1 < 2 ^ 64
  reverts : stats.reverts + 1 < 2 ^ 64
  realizedLosses : stats.realizedLosses + 1 < 2 ^ 64
  receiptTimeouts : stats.receiptTimeouts + 1 < 2 ^ 64

lemma incrementU64_of_lt {n : ℕ} (h : n + 1 < 2 ^ 64) : incrementU64 n = n + 1 := Nat.mod_eq_of_lt h

lemma Fits.recordSuccess (h : stats.Fits) :
    stats.recordSuccess.outcomes = stats.outcomes + 1 ∧ stats.recordSuccess.weight = stats.weight := by
  simp only [RouteStats.recordSuccess, outcomes, weight, incrementU64_of_lt h.successes, and_true]
  omega

lemma Fits.recordFailure (h : stats.Fits) (kind : RouteFailureKind) :
    (stats.recordFailure kind).outcomes = stats.outcomes + 1 ∧
      (stats.recordFailure kind).weight = stats.weight + kind.weight := by
  cases kind <;>
    simp only [RouteStats.recordFailure, outcomes, weight, RouteFailureKind.weight,
      incrementU64_of_lt h.failures, incrementU64_of_lt h.reverts, incrementU64_of_lt h.realizedLosses,
      incrementU64_of_lt h.receiptTimeouts] <;>
    omega

/-- Nothing saturates over fewer than `2 ^ 64 / 40000` attempts. -/
lemma riskMultiplierBps_of_few (hfew : stats.outcomes * 40000 < 2 ^ 64) (hlight : stats.weight ≤ 4 * stats.outcomes) :
    stats.riskMultiplierBps =
      if stats.outcomes < 3 then 10000
      else min (10000 + stats.weight * 10000 / stats.outcomes) 30000 := by
  have hattempts : stats.attempts = stats.outcomes := by
    rw [attempts, saturatingAddU64, ← outcomes]
    omega
  have hextra : stats.hardExtra = stats.reverts + stats.realizedLosses := by
    rw [hardExtra, saturatingAddU64]
    rw [weight] at hlight
    omega
  have hweighted : stats.weightedHalf = stats.weight := by
    simp only [weightedHalf, saturatingAddU64, saturatingMulU64, hextra]
    rw [weight] at hlight ⊢
    omega
  have hscaled : saturatingMulU64 stats.weight 10000 = stats.weight * 10000 := by
    rw [saturatingMulU64]
    omega
  have hquotient : stats.weight * 10000 / stats.outcomes ≤ stats.weight * 10000 := Nat.div_le_self _ _
  rw [riskMultiplierBps, hattempts, hweighted, hscaled, saturatingAddU64]
  split_ifs <;> omega

end RouteStats

/-- The multiplier for attempts of these weights. -/
def multiplierOf (weights : List ℕ) : ℕ :=
  if weights.length < 3 then 10000 else min (10000 + weights.sum * 10000 / weights.length) 30000

namespace RouteLearning

variable {s : RouteLearning} {edges edges' : List Edge} {maxUsd : ℕ} {stats : RouteStats}

@[simp] lemma entry_put_self : (s.put edges stats).entry edges = stats := by
  simp [entry, put]

@[simp] lemma entry_put_of_ne (h : edges ≠ edges') : (s.put edges' stats).entry edges = s.entry edges := by
  simp [entry, put, h]

lemma routeRiskMultiplierBps_eq : s.routeRiskMultiplierBps edges = (s.entry edges).riskMultiplierBps := by
  rw [routeRiskMultiplierBps, entry]
  cases s edges with
  | none => rfl
  | some stats => rfl

/-- Moving the cap of a route leaves its counters. -/
lemma counters_move (edges' : List Edge) (next : ℕ) :
    ((s.moveAdaptiveFlashLoanCap edges' next).entry edges).outcomes = (s.entry edges).outcomes ∧
      ((s.moveAdaptiveFlashLoanCap edges' next).entry edges).weight = (s.entry edges).weight := by
  rw [moveAdaptiveFlashLoanCap]
  by_cases h : edges = edges'
  · subst h
    simp [RouteStats.outcomes, RouteStats.weight]
  · simp [h]

/-- The counters of a route are those of the attempts reported for it, none of which weighs more than four. -/
structure Counts (s : RouteLearning) (edges : List Edge) (weights : List ℕ) : Prop where
  attempts : (s.entry edges).outcomes = weights.length
  weighted : (s.entry edges).weight = weights.sum
  light : weights.sum ≤ 4 * weights.length

/-- A record for a route that adds `more` to its attempts. -/
lemma Counts.put {weights more : List ℕ} (h : Counts s edges weights)
    (hself : edges' = edges → stats.outcomes = (s.entry edges).outcomes + more.length ∧
      stats.weight = (s.entry edges).weight + more.sum)
    (hlight : more.sum ≤ 4 * more.length) (hother : edges' ≠ edges → more = []) :
    Counts (s.put edges' stats) edges (weights ++ more) := by
  have hsum := h.light
  by_cases hroute : edges' = edges
  · obtain ⟨hattempts, hweighted⟩ := hself hroute
    subst hroute
    refine ⟨?_, ?_, ?_⟩
    · simp [hattempts, h.attempts]
    · simp [hweighted, h.weighted]
    · simp
      omega
  · have hentry : (s.put edges' stats).entry edges = s.entry edges :=
      entry_put_of_ne fun heq => hroute heq.symm
    rw [hother hroute, List.append_nil]
    exact ⟨hentry ▸ h.attempts, hentry ▸ h.weighted, hsum⟩

lemma Counts.move {weights : List ℕ} (h : Counts s edges weights) (next : ℕ) :
    Counts (s.moveAdaptiveFlashLoanCap edges' next) edges weights :=
  ⟨(counters_move edges' next).1.trans h.attempts, (counters_move edges' next).2.trans h.weighted, h.light⟩

/-- Over fewer than `2 ^ 60` attempts no counter of the two figures wraps. -/
lemma Counts.fits {weights : List ℕ} (h : Counts s edges weights) (hfew : weights.length < 2 ^ 60) :
    (s.entry edges).Fits := by
  have hattempts := h.attempts
  have hweighted := h.weighted
  have hlight := h.light
  simp only [RouteStats.outcomes, RouteStats.weight] at hattempts hweighted
  exact ⟨by omega, by omega, by omega, by omega, by omega⟩

lemma Counts.apply {weights : List ℕ} (h : Counts s edges weights) (hfew : weights.length < 2 ^ 60)
    (maxUsd : ℕ) (event : LearningEvent) :
    Counts (apply maxUsd s event) edges (weights ++ (event.attempt edges).toList) := by
  have hfits := h.fits hfew
  cases event with
  | success edges' =>
      refine h.put ?_ ?_ ?_
      · rintro rfl
        simp [LearningEvent.attempt, hfits.recordSuccess]
      · rw [LearningEvent.attempt]
        split_ifs <;> simp
      · intro hroute
        simp [LearningEvent.attempt, hroute]
  | dryRunPass edges' =>
      refine h.put ?_ le_rfl fun _ => rfl
      rintro rfl
      exact ⟨rfl, rfl⟩
  | failure edges' kind =>
      refine h.put ?_ ?_ ?_
      · rintro rfl
        simp [LearningEvent.attempt, hfits.recordFailure]
      · rw [LearningEvent.attempt]
        split_ifs
        · simpa using kind.weight_le.2
        · simp
      · intro hroute
        simp [LearningEvent.attempt, hroute]
  | promote edges' =>
      simp only [RouteLearning.apply, promoteAdaptiveFlashLoanCap, LearningEvent.attempt, Option.toList_none,
        List.append_nil]
      split_ifs
      · exact h
      · exact h.move _
  | demote edges' =>
      simp only [RouteLearning.apply, demoteAdaptiveFlashLoanCap, LearningEvent.attempt, Option.toList_none,
        List.append_nil]
      split_ifs
      · exact h
      · exact h.move _

lemma Counts.run {weights : List ℕ} (h : Counts s edges weights) (maxUsd : ℕ)
    (events : List LearningEvent) (hfew : weights.length + events.length < 2 ^ 60) :
    Counts (run maxUsd s events) edges (weights ++ events.filterMap (LearningEvent.attempt edges)) := by
  induction events generalizing s weights with
  | nil => simpa [RouteLearning.run] using h
  | cons event events ih =>
      rw [List.length_cons] at hfew
      have hone : (event.attempt edges).toList.length ≤ 1 := by cases event.attempt edges <;> simp
      have hrest := ih (h.apply (by omega) maxUsd event) (by rw [List.length_append]; omega)
      have hweights : weights ++ (event :: events).filterMap (LearningEvent.attempt edges) =
          weights ++ (event.attempt edges).toList ++ events.filterMap (LearningEvent.attempt edges) := by
        cases hattempt : event.attempt edges <;> simp [hattempt]
      rw [hweights]
      exact hrest

end RouteLearning

section Multiplier

variable {weights : List ℕ} {w : ℕ}

lemma le_multiplierOf : 10000 ≤ multiplierOf weights := by
  rw [multiplierOf]
  split_ifs
  · exact le_rfl
  · exact le_min (Nat.le_add_right _ _) (by omega)

lemma multiplierOf_le : multiplierOf weights ≤ 30000 := by
  rw [multiplierOf]
  split_ifs
  · omega
  · exact min_le_right _ _

lemma multiplierOf_failure (hw : 2 ≤ w) : multiplierOf weights ≤ multiplierOf (weights ++ [w]) := by
  by_cases hfew : weights.length < 3
  · rw [multiplierOf, if_pos hfew]
    exact le_multiplierOf
  · have hmore : ¬ (weights ++ [w]).length < 3 := by
      simp
      omega
    rw [multiplierOf, multiplierOf, if_neg hfew, if_neg hmore]
    simp only [List.length_append, List.length_singleton, List.sum_append, List.sum_singleton]
    by_cases hcap : 2 * weights.length ≤ weights.sum
    · -- at the cap the weights of an attempt average two or more, and still do
      have hstill : 20000 ≤ (weights.sum + w) * 10000 / (weights.length + 1) := by
        rw [Nat.le_div_iff_mul_le (by omega)]
        omega
      omega
    · have hquotient : weights.sum * 10000 / weights.length * weights.length ≤ weights.sum * 10000 :=
        Nat.div_mul_le_self _ _
      have hbelow : weights.sum * 10000 / weights.length ≤ 20000 := by
        refine Nat.div_le_of_le_mul ?_
        omega
      have hgrows : weights.sum * 10000 / weights.length ≤
          (weights.sum + w) * 10000 / (weights.length + 1) := by
        rw [Nat.le_div_iff_mul_le (by omega), Nat.mul_succ]
        omega
      omega

lemma multiplierOf_success (hthree : 3 ≤ weights.length) :
    multiplierOf (weights ++ [0]) ≤ multiplierOf weights := by
  have hmore : ¬ (weights ++ [0]).length < 3 := by
    simp
    omega
  rw [multiplierOf, multiplierOf, if_neg hmore, if_neg (not_lt.mpr hthree)]
  simp only [List.length_append, List.length_singleton, List.sum_append, List.sum_singleton, Nat.add_zero]
  have hdrops : weights.sum * 10000 / (weights.length + 1) ≤ weights.sum * 10000 / weights.length :=
    Nat.div_le_div_left (Nat.le_succ _) (by omega)
  exact min_le_min_right _ (Nat.add_le_add_left hdrops _)

end Multiplier

namespace RouteLearning

variable {s : RouteLearning} {maxUsd : ℕ}

/-- No route has an outcome yet (`replay_route_stats` starts fresh). -/
def fresh : RouteLearning := fun _ => none

lemma multiplier_run (edges : List Edge) (events : List LearningEvent) (hfew : events.length * 40000 < 2 ^ 64) :
    (run maxUsd fresh events).routeRiskMultiplierBps edges =
      multiplierOf (events.filterMap (LearningEvent.attempt edges)) := by
  have hfresh : Counts fresh edges [] := ⟨rfl, rfl, le_rfl⟩
  have hcounts := hfresh.run maxUsd events (by rw [List.length_nil]; omega)
  rw [List.nil_append] at hcounts
  have hlength := List.length_filterMap_le (LearningEvent.attempt edges) events
  have hlight := hcounts.light
  rw [routeRiskMultiplierBps_eq, RouteStats.riskMultiplierBps_of_few, hcounts.attempts, hcounts.weighted,
    multiplierOf]
  · rw [hcounts.attempts]
    exact lt_of_le_of_lt (Nat.mul_le_mul_right _ hlength) hfew
  · rw [hcounts.attempts, hcounts.weighted]
    exact hlight

/-- After fewer than `2 ^ 64 / 40000` events, over all routes, the multiplier of a route is that of its own
attempts, between one and three.  One more failure does not lower it, and one more success does not raise
it once the route has three attempts.  Beyond that the products saturate, and a failure can lower it. -/
theorem riskMultiplier_after_attempt (edges : List Edge) (events : List LearningEvent)
    (hfew : (events.length + 1) * 40000 < 2 ^ 64) :
    let attempts := events.filterMap (LearningEvent.attempt edges)
    let multiplier (events : List LearningEvent) :=
      (run maxUsd fresh events).routeRiskMultiplierBps edges
    multiplier events = multiplierOf attempts ∧
      (10000 ≤ multiplier events ∧ multiplier events ≤ 30000) ∧
      (∀ kind, multiplier events ≤ multiplier (events ++ [.failure edges kind])) ∧
      (3 ≤ attempts.length → multiplier (events ++ [.success edges]) ≤ multiplier events) := by
  intro attempts multiplier
  have hevents : multiplier events = multiplierOf attempts :=
    multiplier_run edges events (lt_of_le_of_lt (Nat.mul_le_mul_right _ (Nat.le_succ _)) hfew)
  have hmore : ∀ event, multiplier (events ++ [event]) =
      multiplierOf (attempts ++ (event.attempt edges).toList) := by
    intro event
    have hrun : multiplier (events ++ [event]) = _ := multiplier_run edges (events ++ [event]) (by simp; omega)
    rw [List.filterMap_append] at hrun
    refine hrun.trans ?_
    cases hattempt : event.attempt edges <;> simp [attempts, hattempt]
  refine ⟨hevents, ?_, ?_, ?_⟩
  · rw [hevents]
    exact ⟨le_multiplierOf, multiplierOf_le⟩
  · intro kind
    rw [hevents, hmore]
    simpa [LearningEvent.attempt] using multiplierOf_failure kind.weight_le.1
  · intro hthree
    rw [hevents, hmore]
    simpa [LearningEvent.attempt] using multiplierOf_success hthree

/-- A timeout, a revert and a success, and then a failed dry run. -/
theorem riskMultiplier_after_attempt_fourth :
    let route : List Edge := [⟨0, 0, 1, 0, 1, .uniswapV2, 30, true⟩]
    let events : List LearningEvent := [.failure route .timeout, .failure route .revert, .success route]
    (run 50000 fresh events).routeRiskMultiplierBps route = 30000 ∧
      (run 50000 fresh events).routeRiskMultiplierBps route ≤
        (run 50000 fresh (events ++ [.failure route .dryRun])).routeRiskMultiplierBps route :=
  ⟨by decide, (riskMultiplier_after_attempt _ _ (by decide)).2.2.1 .dryRun⟩

/-- At so many failures that the product saturates the multiplier falls. -/
example : ({ RouteStats.new with failures := 922337203685477 } : RouteStats).riskMultiplierBps = 30000 ∧
    (({ RouteStats.new with failures := 922337203685477 } : RouteStats).recordFailure .dryRun).riskMultiplierBps =
      29999 := by
  decide

/-! ## The cap -/

/-- What an event makes of the cap of a route. -/
def capAfter (maxUsd : ℕ) (edges : List Edge) (current : ℕ) : LearningEvent → ℕ
  | .promote edges' => if edges' = edges then min (saturatingMulU64 current 2) maxUsd else current
  | .demote edges' =>
      if edges' = edges then min current (min (max (current / 2) (adaptiveFlashCapInitial maxUsd)) maxUsd)
      else current
  | _ => current

variable {edges edges' : List Edge}

lemma adaptiveFlashLoanUsd_eq : s.adaptiveFlashLoanUsd edges maxUsd =
    min ((s.entry edges).adaptiveFlashLoanUsd.getD (adaptiveFlashCapInitial maxUsd)) maxUsd := by
  rw [adaptiveFlashLoanUsd, entry]
  cases s edges with
  | none => rfl
  | some stats => rfl

lemma adaptiveFlashLoanUsd_move {next : ℕ} (hnext : next ≤ maxUsd) :
    (s.moveAdaptiveFlashLoanCap edges' next).adaptiveFlashLoanUsd edges maxUsd =
      if edges' = edges then next else s.adaptiveFlashLoanUsd edges maxUsd := by
  rw [adaptiveFlashLoanUsd_eq, adaptiveFlashLoanUsd_eq, moveAdaptiveFlashLoanCap]
  by_cases h : edges' = edges
  · subst h
    simp [hnext]
  · simp [h, Ne.symm h]

/-- A record of an outcome leaves the caps. -/
lemma adaptiveFlashLoanUsd_put {stats : RouteStats}
    (hcap : stats.adaptiveFlashLoanUsd = (s.entry edges').adaptiveFlashLoanUsd) :
    (s.put edges' stats).adaptiveFlashLoanUsd edges maxUsd = s.adaptiveFlashLoanUsd edges maxUsd := by
  rw [adaptiveFlashLoanUsd_eq, adaptiveFlashLoanUsd_eq]
  by_cases h : edges = edges'
  · subst h
    simp [hcap]
  · simp [h]

lemma adaptiveFlashLoanUsd_apply (event : LearningEvent) :
    (apply maxUsd s event).adaptiveFlashLoanUsd edges maxUsd =
      capAfter maxUsd edges (s.adaptiveFlashLoanUsd edges maxUsd) event := by
  cases event with
  | success edges' => exact adaptiveFlashLoanUsd_put rfl
  | dryRunPass edges' => exact adaptiveFlashLoanUsd_put rfl
  | failure edges' kind => exact adaptiveFlashLoanUsd_put (by cases kind <;> rfl)
  | promote edges' =>
      simp only [RouteLearning.apply, promoteAdaptiveFlashLoanCap, capAfter]
      split_ifs with hsame hroute hroute
      · subst hroute
        exact hsame.symm
      · rfl
      · subst hroute
        simp only [adaptiveFlashLoanUsd_move (min_le_right _ _), if_true]
      · simp only [adaptiveFlashLoanUsd_move (min_le_right _ _), if_neg hroute]
  | demote edges' =>
      simp only [RouteLearning.apply, demoteAdaptiveFlashLoanCap, capAfter]
      split_ifs with hsame hroute hroute
      · subst hroute
        exact (min_eq_left hsame).symm
      · rfl
      · subst hroute
        simp only [adaptiveFlashLoanUsd_move (min_le_right _ _), if_true]
        exact (min_eq_right (not_le.mp hsame).le).symm
      · simp only [adaptiveFlashLoanUsd_move (min_le_right _ _), if_neg hroute]

lemma adaptiveFlashLoanUsd_run (events : List LearningEvent) :
    (run maxUsd s events).adaptiveFlashLoanUsd edges maxUsd =
      events.foldl (capAfter maxUsd edges) (s.adaptiveFlashLoanUsd edges maxUsd) := by
  induction events generalizing s with
  | nil => rfl
  | cons event events ih =>
      rw [RouteLearning.run, List.foldl_cons, List.foldl_cons, ← adaptiveFlashLoanUsd_apply]
      exact ih

variable {current : ℕ}

lemma initial_bounds (hmax : maxUsd + 3 < 2 ^ 64) :
    adaptiveFlashCapInitial maxUsd ≤ maxUsd ∧ maxUsd ≤ adaptiveFlashCapInitial maxUsd * 4 := by
  simp only [adaptiveFlashCapInitial, adaptiveFlashCapStartDivisor, saturatingAddU64]
  omega

lemma capAfter_bounds (hmax : maxUsd + 3 < 2 ^ 64) (hlow : adaptiveFlashCapInitial maxUsd ≤ current)
    (hhigh : current ≤ maxUsd) (event : LearningEvent) :
    adaptiveFlashCapInitial maxUsd ≤ capAfter maxUsd edges current event ∧
      capAfter maxUsd edges current event ≤ maxUsd := by
  have hinitial := (initial_bounds hmax).1
  cases event with
  | success edges' => exact ⟨hlow, hhigh⟩
  | dryRunPass edges' => exact ⟨hlow, hhigh⟩
  | failure edges' kind => exact ⟨hlow, hhigh⟩
  | promote edges' =>
      rw [capAfter, saturatingMulU64]
      split_ifs <;> omega
  | demote edges' =>
      rw [capAfter]
      split_ifs <;> omega

lemma foldl_capAfter_bounds (hmax : maxUsd + 3 < 2 ^ 64) (hlow : adaptiveFlashCapInitial maxUsd ≤ current)
    (hhigh : current ≤ maxUsd) (events : List LearningEvent) :
    adaptiveFlashCapInitial maxUsd ≤ events.foldl (capAfter maxUsd edges) current ∧
      events.foldl (capAfter maxUsd edges) current ≤ maxUsd := by
  induction events generalizing current with
  | nil => exact ⟨hlow, hhigh⟩
  | cons event events ih =>
      obtain ⟨hlow', hhigh'⟩ := capAfter_bounds hmax hlow hhigh event
      exact ih hlow' hhigh'

/-- Promotions double the cap up to the maximum. -/
lemma capAfter_other {event : LearningEvent} (hpromote : event ≠ .promote edges)
    (hdemote : event ≠ .demote edges) : capAfter maxUsd edges current event = current := by
  cases event with
  | promote edges' => exact if_neg (by rintro rfl; exact hpromote rfl)
  | demote edges' => exact if_neg (by rintro rfl; exact hdemote rfl)
  | _ => rfl

lemma foldl_capAfter_promote (hmax : maxUsd + 3 < 2 ^ 64) {events : List LearningEvent}
    (hnone : .demote edges ∉ events) :
    min (current * 2 ^ events.count (.promote edges)) maxUsd ≤ events.foldl (capAfter maxUsd edges) current := by
  induction events generalizing current with
  | nil => simp
  | cons event events ih =>
      rw [List.mem_cons, not_or] at hnone
      refine le_trans ?_ (ih hnone.2)
      by_cases hroute : event = .promote edges
      · subst hroute
        have hdouble : capAfter maxUsd edges current (.promote edges) = min (current * 2) maxUsd := by
          simp only [capAfter, if_true, saturatingMulU64]
          omega
        rw [hdouble, List.count_cons_self, pow_succ']
        have hpos : 1 ≤ 2 ^ events.count (.promote edges) := Nat.one_le_two_pow
        rcases le_total (current * 2) maxUsd with hle | hle
        · rw [min_eq_left hle, mul_assoc]
        · rw [min_eq_right hle]
          exact le_min (le_trans (min_le_right _ _) (Nat.le_mul_of_pos_right _ hpos)) (min_le_right _ _)
      · rw [capAfter_other hroute (Ne.symm hnone.1), List.count_cons_of_ne hroute]

lemma foldl_capAfter_demote {events : List LearningEvent} (hnone : .promote edges ∉ events) :
    events.foldl (capAfter maxUsd edges) current ≤
      max (current / 2 ^ events.count (.demote edges)) (adaptiveFlashCapInitial maxUsd) := by
  induction events generalizing current with
  | nil => simp
  | cons event events ih =>
      rw [List.mem_cons, not_or] at hnone
      refine le_trans (ih hnone.2) ?_
      by_cases hroute : event = .demote edges
      · subst hroute
        have hhalf : capAfter maxUsd edges current (.demote edges) ≤
            max (current / 2) (adaptiveFlashCapInitial maxUsd) := by
          simp only [capAfter, if_true]
          omega
        rw [List.count_cons_self, pow_succ', ← Nat.div_div_eq_div_mul]
        refine max_le ?_ (le_max_right _ _)
        refine le_trans (Nat.div_le_div_right hhalf) ?_
        rcases le_total (current / 2) (adaptiveFlashCapInitial maxUsd) with hle | hle
        · rw [max_eq_right hle]
          exact le_trans (Nat.div_le_self _ _) (le_max_right _ _)
        · rw [max_eq_left hle]
          exact le_max_left _ _
      · rw [capAfter_other (Ne.symm hnone.1) hroute, List.count_cons_of_ne hroute]

/-- For a configured maximum below `2 ^ 64 - 3` the cap of a route stays between its initial value and the
maximum.  Wherever a run has left it, two promotions without a demotion bring it to the maximum, and two
demotions without a promotion to the initial value. -/
theorem adaptiveFlashCap_restored (hmax : maxUsd + 3 < 2 ^ 64) (edges : List Edge)
    (events later : List LearningEvent) :
    let cap (events : List LearningEvent) := (run maxUsd fresh events).adaptiveFlashLoanUsd edges maxUsd
    (adaptiveFlashCapInitial maxUsd ≤ cap events ∧ cap events ≤ maxUsd) ∧
      (.demote edges ∉ later → 2 ≤ later.count (.promote edges) → cap (events ++ later) = maxUsd) ∧
      (.promote edges ∉ later → 2 ≤ later.count (.demote edges) →
        cap (events ++ later) = adaptiveFlashCapInitial maxUsd) := by
  intro cap
  have hinitial := initial_bounds hmax
  have hfresh : fresh.adaptiveFlashLoanUsd edges maxUsd = adaptiveFlashCapInitial maxUsd :=
    min_eq_left hinitial.1
  have hbounds : ∀ events, adaptiveFlashCapInitial maxUsd ≤ cap events ∧ cap events ≤ maxUsd := by
    intro events
    simp only [cap, adaptiveFlashLoanUsd_run, hfresh]
    exact foldl_capAfter_bounds hmax le_rfl hinitial.1 events
  have hlater : cap (events ++ later) = later.foldl (capAfter maxUsd edges) (cap events) := by
    simp only [cap, RouteLearning.run, List.foldl_append]
    exact adaptiveFlashLoanUsd_run later
  refine ⟨hbounds events, ?_, ?_⟩
  · intro hnone htwice
    refine le_antisymm (hbounds _).2 ?_
    rw [hlater]
    refine le_trans (le_min ?_ le_rfl) (foldl_capAfter_promote hmax hnone)
    calc maxUsd ≤ adaptiveFlashCapInitial maxUsd * 2 ^ 2 := hinitial.2
      _ ≤ cap events * 2 ^ later.count (.promote edges) :=
        Nat.mul_le_mul (hbounds events).1 (Nat.pow_le_pow_right (by omega) htwice)
  · intro hnone htwice
    refine le_antisymm ?_ (hbounds _).1
    rw [hlater]
    refine le_trans (foldl_capAfter_demote hnone) (max_le ?_ le_rfl)
    calc cap events / 2 ^ later.count (.demote edges)
        ≤ maxUsd / 2 ^ 2 :=
          Nat.div_le_div (hbounds events).2 (Nat.pow_le_pow_right (by omega) htwice) (by omega)
      _ ≤ adaptiveFlashCapInitial maxUsd := by omega

theorem adaptiveFlashCap_restored_twice :
    let route : List Edge := [⟨0, 0, 1, 0, 1, .uniswapV2, 30, true⟩]
    let events : List LearningEvent := [.promote route, .failure route .dryRun, .demote route]
    (run 50000 fresh events).adaptiveFlashLoanUsd route 50000 = 12500 ∧
      (run 50000 fresh (events ++ [.promote route, .success route, .promote route])).adaptiveFlashLoanUsd route
        50000 = 50000 :=
  ⟨by decide, (adaptiveFlashCap_restored (by omega) _ _ _).2.1 (by decide) (by decide)⟩

end RouteLearning

end PolygonArb

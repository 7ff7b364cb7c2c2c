import PolygonArb.Core.Types
import PolygonArb.Lib.Expiry

/-!
# Quarantines

`services/execution/service/risk.rs` and the daily-loss breaker of `pnl.rs`: routes, route hashes, start
tokens and the whole service are put out of use until an instant.  Instants and durations are naturals,
in nanoseconds.

Most operations overwrite the expiry of their key (`quarantineInsert`), with durations from half a minute
to an hour; three of them (`quarantineStaleRoute`, `quarantineExtendUntil`,
`quarantineProbeBelowDispatchFloor`) look at what is there first.  `quarantine_kept_iff` says for which
sequences of operations no quarantine in force is shortened.
-/

namespace PolygonArb

open Word Expiry

/-- `std::time::Instant`, in nanoseconds since some start. -/
abbrev Instant := ℕ

/-- `Duration::from_secs`. -/
def fromSecs (n : ℕ) : ℕ := n * 10 ^ 9

def routeCooldown : ℕ := fromSecs 30

def batchQueryFailQuarantine : ℕ := fromSecs 600

def directTokenZeroRealizedQuarantine : ℕ := fromSecs 1800

def structuralDryRunQuarantine : ℕ := fromSecs 600

def probeBelowFloorQuarantine : ℕ := fromSecs 300

def permanentQuarantine : ℕ := fromSecs 3600

def maxConsecutiveFailures : ℕ := 5

def chronicUnderwaterCoverBps : ℕ := 10000

def chronicUnderwaterMinCoverBps : ℕ := 25

def chronicNearMissCoverBps : ℕ := 500

def chronicHighCoverBps : ℕ := 7500

def chronicUnderwaterStrikes : ℕ := 3

def chronicUnderwaterStrikeWindow : ℕ := fromSecs 120

/-- A thousandth of a MATIC. -/
def chronicUnderwaterMinAvailableMaticWei : U256 := 1000000000000000#256

/-- A hundredth of a MATIC. -/
def chronicDustAvailableMaticWei : U256 := 10000000000000000#256

/-- A twentieth of a MATIC. -/
def chronicThinLiqAvailableMaticWei : U256 := 50000000000000000#256

def chronicThinLiqQuarantine : ℕ := fromSecs 3600

def chronicNearMissQuarantine : ℕ := fromSecs 30

def chronicMidBandQuarantine : ℕ := fromSecs 90

def chronicUnderwaterQuarantine : ℕ := structuralDryRunQuarantine

/-- `FixedBytes<32>`. -/
abbrev RouteHash := BitVec 256

/-- What the execution service keeps about failures.  `inserts` counts the calls of `quarantineInsert`,
every thirty-second of which prunes. -/
structure RiskState where
  quarantine : ExpiryMap (List Edge)
  routeHashQuarantine : ExpiryMap RouteHash
  directTokenQuarantine : ExpiryMap Address
  globalQuarantineUntil : Option Instant
  failCounts : List Edge → ℕ
  underwaterStrikes : List Edge → Option (ℕ × Instant)
  maxDailyLossMaticWei : Option U256
  inserts : ℕ

namespace RiskState

variable (s : RiskState)

/-! ## Operations -/

/-- `clock` is the time the prune reads. -/
def quarantineInsert (edges : List Edge) (until_ clock : Instant) : RiskState :=
  let kept := if s.inserts % 32 = 0 then prune s.quarantine clock else s.quarantine
  { s with quarantine := put kept edges until_, inserts := s.inserts + 1 }

def quarantineBatchQueryFailure (edges : List Edge) (clock : Instant) : RiskState :=
  s.quarantineInsert edges (clock + batchQueryFailQuarantine) clock

/-- Never shortens an existing longer cooldown. -/
def quarantineStaleRoute (edges : List Edge) (clock : Instant) : RiskState :=
  { s with quarantine := extend s.quarantine edges (clock + routeCooldown) }

/-- No refresh of an active cooldown. -/
def quarantineProbeBelowDispatchFloor (edges : List Edge) (clock : Instant) : RiskState :=
  if isLive s.quarantine edges clock then s
  else { s with quarantine := put s.quarantine edges (clock + probeBelowFloorQuarantine) }

def quarantineExtendUntil (edges : List Edge) (until_ : Instant) : RiskState :=
  { s with quarantine := extend s.quarantine edges until_ }

def quarantineRouteHash (hash : RouteHash) (now : Instant) : RiskState :=
  { s with
    routeHashQuarantine := put s.routeHashQuarantine hash (now + structuralDryRunQuarantine) }

def quarantineDirectTokenZeroRealized (token : Address) (clock : Instant) : RiskState :=
  { s with
    directTokenQuarantine :=
      put s.directTokenQuarantine token (clock + directTokenZeroRealizedQuarantine) }

/-- How long a route is out after one more failure. -/
def failureCooldown (edges : List Edge) : ℕ :=
  if maxConsecutiveFailures ≤ s.failCounts edges + 1 then permanentQuarantine else routeCooldown

/-- `now` is the time the failure was noticed at, which the caller passes. -/
def quarantineRoute (edges : List Edge) (now clock : Instant) : RiskState :=
  { s with failCounts := Function.update s.failCounts edges (s.failCounts edges + 1) }.quarantineInsert
    edges (now + s.failureCooldown edges) clock

def quarantineRouteSoft (edges : List Edge) (now clock : Instant) : RiskState :=
  s.quarantineInsert edges (now + routeCooldown) clock

def clearFailCount (edges : List Edge) : RiskState :=
  { s with failCounts := Function.update s.failCounts edges 0 }

def quarantineGlobal (duration now : Instant) : RiskState :=
  { s with globalQuarantineUntil := some (now + duration) }

/-- The loss of the day has reached the limit. -/
def dailyLossBreached (daily : ℤ) : Bool :=
  match s.maxDailyLossMaticWei with
  | none => false
  | some maxLoss => daily < 0 && decide (maxLoss.toNat ≤ daily.natAbs)

def enforceDailyLossLimit (daily : ℤ) (clock : Instant) : RiskState :=
  if s.dailyLossBreached daily then s.quarantineGlobal (fromSecs 3600) clock else s

/-! ### Routes that do not pay their gas -/

/-- The cover of a route with little to gain is cut into the chronic band. -/
def chronicCoverBps (gasCoverBps : ℕ) (available : U256) : ℕ :=
  if available < chronicUnderwaterMinAvailableMaticWei ∨
      (available < chronicThinLiqAvailableMaticWei ∧ chronicUnderwaterCoverBps ≤ gasCoverBps) then
    min gasCoverBps (chronicUnderwaterCoverBps - 1)
  else gasCoverBps

/-- The strikes of a route after one more; they start over after a pause. -/
def nextStrikes (edges : List Edge) (clock : Instant) : ℕ :=
  match s.underwaterStrikes edges with
  | none => 1
  | some (count, last) => if chronicUnderwaterStrikeWindow < clock - last then 1 else count + 1

def strikesNeeded (gasCoverBps : ℕ) (available : U256) : ℕ :=
  let coverBps := chronicCoverBps gasCoverBps available
  let nearMiss := chronicNearMissCoverBps ≤ gasCoverBps ∧ chronicDustAvailableMaticWei ≤ available
  let highCoverNearMiss := chronicHighCoverBps ≤ gasCoverBps ∧ chronicDustAvailableMaticWei ≤ available
  let midBand := chronicNearMissCoverBps ≤ gasCoverBps ∧
    chronicUnderwaterMinAvailableMaticWei ≤ available ∧ available < chronicDustAvailableMaticWei
  let thinFirstStrike := available < chronicDustAvailableMaticWei ∨
    (available < chronicThinLiqAvailableMaticWei ∧ coverBps < chronicNearMissCoverBps)
  if thinFirstStrike ∨ midBand ∨ (nearMiss ∧ ¬ highCoverNearMiss) then 1 else chronicUnderwaterStrikes

def chronicTtl (gasCoverBps : ℕ) (available : U256) : ℕ :=
  if available < chronicUnderwaterMinAvailableMaticWei then chronicThinLiqQuarantine
  else if chronicNearMissCoverBps ≤ gasCoverBps ∧ chronicDustAvailableMaticWei ≤ available then
    chronicNearMissQuarantine
  else if chronicNearMissCoverBps ≤ gasCoverBps ∧ available < chronicDustAvailableMaticWei then
    chronicMidBandQuarantine
  else chronicUnderwaterQuarantine

/-- A route that keeps winning without paying its gas is put out; one that is out already is not
looked at. -/
def quarantineChronicGasUnderwater (edges : List Edge) (gasCoverBps : ℕ) (available : U256)
    (clock : Instant) : RiskState :=
  let coverBps := chronicCoverBps gasCoverBps available
  if coverBps < chronicUnderwaterMinCoverBps ∨ chronicUnderwaterCoverBps ≤ coverBps then s
  else if isLive s.quarantine edges clock then s
  else
    let strikes := s.nextStrikes edges clock
    if strikes < strikesNeeded gasCoverBps available then
      { s with underwaterStrikes := Function.update s.underwaterStrikes edges (some (strikes, clock)) }
    else
      { s with underwaterStrikes := Function.update s.underwaterStrikes edges none }.quarantineInsert
        edges (clock + chronicTtl gasCoverBps available) clock

end RiskState

/-! ## Sequences of operations -/

/-- What is reported to the service.  Failures carry the time they were noticed at. -/
inductive RiskOp
  | route (edges : List Edge) (now : Instant)
  | routeSoft (edges : List Edge) (now : Instant)
  | routeStructural (edges : List Edge) (now : Instant)
  | batchQueryFailure (edges : List Edge)
  | staleRoute (edges : List Edge)
  | probeBelowDispatchFloor (edges : List Edge)
  | chronicGasUnderwater (edges : List Edge) (gasCoverBps : ℕ) (available : U256)
  | extendUntil (edges : List Edge) (until_ : Instant)
  | routeHash (hash : RouteHash) (now : Instant)
  | directTokenZeroRealized (token : Address)
  | global (duration now : Instant)
  | dailyLoss (daily : ℤ)
  | clearFailCount (edges : List Edge)

/-- An operation and the time it runs at. -/
structure RiskEvent where
  clock : Instant
  op : RiskOp

def RiskState.apply (s : RiskState) (event : RiskEvent) : RiskState :=
  match event.op with
  | .route edges now => s.quarantineRoute edges now event.clock
  | .routeSoft edges now => s.quarantineRouteSoft edges now event.clock
  | .routeStructural edges now =>
      s.quarantineInsert edges (now + structuralDryRunQuarantine) event.clock
  | .batchQueryFailure edges => s.quarantineBatchQueryFailure edges event.clock
  | .staleRoute edges => s.quarantineStaleRoute edges event.clock
  | .probeBelowDispatchFloor edges => s.quarantineProbeBelowDispatchFloor edges event.clock
  | .chronicGasUnderwater edges cover available =>
      s.quarantineChronicGasUnderwater edges cover available event.clock
  | .extendUntil edges until_ => s.quarantineExtendUntil edges until_
  | .routeHash hash now => s.quarantineRouteHash hash now
  | .directTokenZeroRealized token => s.quarantineDirectTokenZeroRealized token event.clock
  | .global duration now => s.quarantineGlobal duration now
  | .dailyLoss daily => s.enforceDailyLossLimit daily event.clock
  | .clearFailCount edges => s.clearFailCount edges

def RiskState.run (s : RiskState) (events : List RiskEvent) : RiskState :=
  events.foldl RiskState.apply s

/-- What can be put out of use. -/
inductive QuarantineKey
  | route (edges : List Edge)
  | routeHash (hash : RouteHash)
  | token (token : Address)
  | global

/-- Until when a key is out of use. -/
def RiskState.expiry (s : RiskState) : ExpiryMap QuarantineKey
  | .route edges => s.quarantine edges
  | .routeHash hash => s.routeHashQuarantine hash
  | .token token => s.directTokenQuarantine token
  | .global => s.globalQuarantineUntil

/-- What the operation overwrites in `s` does not last longer than what it writes. -/
def RiskEvent.Outlasts (event : RiskEvent) (s : RiskState) : Prop :=
  let within (old : Option Instant) (until_ : Instant) : Prop :=
    ∀ e, old = some e → event.clock < e → e ≤ until_
  match event.op with
  | .route edges now => within (s.quarantine edges) (now + s.failureCooldown edges)
  | .routeSoft edges now => within (s.quarantine edges) (now + routeCooldown)
  | .routeStructural edges now => within (s.quarantine edges) (now + structuralDryRunQuarantine)
  | .batchQueryFailure edges => within (s.quarantine edges) (event.clock + batchQueryFailQuarantine)
  | .routeHash hash now => within (s.routeHashQuarantine hash) (now + structuralDryRunQuarantine)
  | .directTokenZeroRealized token =>
      within (s.directTokenQuarantine token) (event.clock + directTokenZeroRealizedQuarantine)
  | .global duration now => within s.globalQuarantineUntil (now + duration)
  | .dailyLoss daily =>
      s.dailyLossBreached daily = true → within s.globalQuarantineUntil (event.clock + fromSecs 3600)
  | _ => True

/-- Along the events nothing in force is lifted or brought forward: as long as an entry has not expired,
it stays, with no earlier expiry. -/
def KeepsQuarantines (s : RiskState) (events : List RiskEvent) : Prop :=
  ∀ before later after, events = before ++ later ++ after →
    ∀ key e, (s.run before).expiry key = some e → (∀ event ∈ later, event.clock < e) →
      ∃ e', e ≤ e' ∧ (s.run (before ++ later)).expiry key = some e'

/-! ## What one operation keeps -/

variable {s s' : RiskState} {clock : Instant}

/-- The four kinds of keys are kept separately. -/
lemma keeps_expiry_iff :
    Keeps s.expiry s'.expiry clock ↔
      Keeps s.quarantine s'.quarantine clock ∧
      Keeps s.routeHashQuarantine s'.routeHashQuarantine clock ∧
      Keeps s.directTokenQuarantine s'.directTokenQuarantine clock ∧
      ∀ e, s.globalQuarantineUntil = some e → clock < e →
        ∃ e', e ≤ e' ∧ s'.globalQuarantineUntil = some e' := by
  constructor
  · intro h
    exact ⟨fun edges => h (.route edges), fun hash => h (.routeHash hash), fun token => h (.token token),
      h .global⟩
  · rintro ⟨hroute, hhash, htoken, hglobal⟩ key
    cases key with
    | route edges => exact hroute edges
    | routeHash hash => exact hhash hash
    | token token => exact htoken token
    | «global» => exact hglobal

lemma keeps_of_quarantine (hroute : Keeps s.quarantine s'.quarantine clock)
    (hhash : s'.routeHashQuarantine = s.routeHashQuarantine)
    (htoken : s'.directTokenQuarantine = s.directTokenQuarantine)
    (hglobal : s'.globalQuarantineUntil = s.globalQuarantineUntil) :
    Keeps s.expiry s'.expiry clock := by
  rw [keeps_expiry_iff, hhash, htoken, hglobal]
  exact ⟨hroute, Keeps.refl, Keeps.refl, fun e he _ => ⟨e, le_refl e, he⟩⟩

/-- Pruning or not, an insertion overwrites one entry. -/
lemma keeps_quarantineInsert_iff {edges : List Edge} {until_ : Instant} :
    Keeps s.expiry (s.quarantineInsert edges until_ clock).expiry clock ↔
      ∀ e, s.quarantine edges = some e → clock < e → e ≤ until_ := by
  have hput : Keeps s.quarantine (s.quarantineInsert edges until_ clock).quarantine clock ↔
      ∀ e, s.quarantine edges = some e → clock < e → e ≤ until_ := by
    simp only [RiskState.quarantineInsert]
    split_ifs with hprune
    · exact keeps_put_prune_iff
    · exact keeps_put_iff
  rw [← hput]
  exact ⟨fun h => (keeps_expiry_iff.mp h).1, fun h => keeps_of_quarantine h rfl rfl rfl⟩

lemma keeps_global_iff {until_ : Instant} :
    Keeps s.expiry { s with globalQuarantineUntil := some until_ : RiskState }.expiry clock ↔
      ∀ e, s.globalQuarantineUntil = some e → clock < e → e ≤ until_ := by
  rw [keeps_expiry_iff]
  constructor
  · rintro ⟨-, -, -, hglobal⟩ e he hlt
    rcases hglobal e he hlt with ⟨e', hle, he'⟩
    rwa [Option.some.inj he']
  · intro h
    exact ⟨Keeps.refl, Keeps.refl, Keeps.refl, fun e he hlt => ⟨until_, h e he hlt, rfl⟩⟩

lemma keeps_chronicGasUnderwater {edges : List Edge} {cover : ℕ} {available : U256} :
    Keeps s.expiry (s.quarantineChronicGasUnderwater edges cover available clock).expiry clock := by
  simp only [RiskState.quarantineChronicGasUnderwater]
  split_ifs with hband hlive hstrikes
  · exact Keeps.refl
  · exact Keeps.refl
  · exact keeps_of_quarantine Keeps.refl rfl rfl rfl
  · -- the insertion finds no entry in force
    rw [isLive_iff] at hlive
    have hinsert : ∀ e, s.quarantine edges = some e → clock < e →
        e ≤ clock + RiskState.chronicTtl cover available :=
      fun e he hlt => absurd ⟨e, he, hlt⟩ hlive
    exact keeps_quarantineInsert_iff.mpr hinsert

lemma keeps_probeBelowDispatchFloor {edges : List Edge} :
    Keeps s.expiry (s.quarantineProbeBelowDispatchFloor edges clock).expiry clock := by
  rw [RiskState.quarantineProbeBelowDispatchFloor]
  split_ifs with hlive
  · exact Keeps.refl
  · rw [isLive_iff] at hlive
    refine keeps_of_quarantine (keeps_put_iff.mpr ?_) rfl rfl rfl
    exact fun e he hlt => absurd ⟨e, he, hlt⟩ hlive

/-- An operation brings nothing forward exactly when it outlasts what it overwrites. -/
lemma keeps_apply_iff (event : RiskEvent) :
    Keeps s.expiry (s.apply event).expiry event.clock ↔ event.Outlasts s := by
  rcases event with ⟨clock, op⟩
  cases op with
  | route edges now =>
      -- the failure count does not change what is in force
      exact keeps_quarantineInsert_iff
        (s := { s with failCounts := Function.update s.failCounts edges (s.failCounts edges + 1) })
  | routeSoft edges now => exact keeps_quarantineInsert_iff
  | routeStructural edges now => exact keeps_quarantineInsert_iff
  | batchQueryFailure edges => exact keeps_quarantineInsert_iff
  | staleRoute edges => exact iff_of_true (keeps_of_quarantine keeps_extend rfl rfl rfl) trivial
  | probeBelowDispatchFloor edges => exact iff_of_true keeps_probeBelowDispatchFloor trivial
  | chronicGasUnderwater edges cover available => exact iff_of_true keeps_chronicGasUnderwater trivial
  | extendUntil edges until_ => exact iff_of_true (keeps_of_quarantine keeps_extend rfl rfl rfl) trivial
  | routeHash hash now =>
      refine Iff.trans ?_ keeps_put_iff
      rw [keeps_expiry_iff]
      exact ⟨fun h => h.2.1, fun h => ⟨Keeps.refl, h, Keeps.refl, fun e he _ => ⟨e, le_refl e, he⟩⟩⟩
  | directTokenZeroRealized token =>
      refine Iff.trans ?_ keeps_put_iff
      rw [keeps_expiry_iff]
      exact ⟨fun h => h.2.2.1, fun h => ⟨Keeps.refl, Keeps.refl, h, fun e he _ => ⟨e, le_refl e, he⟩⟩⟩
  | «global» duration now => exact keeps_global_iff
  | dailyLoss daily =>
      simp only [RiskState.apply, RiskState.enforceDailyLossLimit, RiskEvent.Outlasts]
      split_ifs with hbreached
      · simp only [hbreached, true_implies]
        exact keeps_global_iff
      · exact iff_of_true Keeps.refl fun h => absurd h hbreached
  | clearFailCount edges => exact iff_of_true (keeps_of_quarantine Keeps.refl rfl rfl rfl) trivial

/-! ## Whole sequences -/

lemma run_append (s : RiskState) (before later : List RiskEvent) :
    s.run (before ++ later) = (s.run before).run later := List.foldl_append

/-- Entries in force survive a sequence of operations that each outlast what they overwrite. -/
lemma exists_expiry_run {key : QuarantineKey} {e : Instant} (later : List RiskEvent)
    (hkeeps : ∀ before event after, later = before ++ event :: after →
      event.Outlasts (s.run before))
    (he : s.expiry key = some e) (hclock : ∀ event ∈ later, event.clock < e) :
    ∃ e', e ≤ e' ∧ (s.run later).expiry key = some e' := by
  induction later generalizing s e with
  | nil => exact ⟨e, le_refl e, he⟩
  | cons event later ih =>
      have hone := (keeps_apply_iff event).mpr (hkeeps [] event later rfl)
      rcases hone key e he (hclock event List.mem_cons_self) with ⟨e₁, hle, he₁⟩
      have hrest : ∀ before next after, later = before ++ next :: after →
          next.Outlasts ((s.apply event).run before) := by
        rintro before next after rfl
        exact hkeeps (event :: before) next after rfl
      have hlater : ∀ next ∈ later, next.clock < e₁ :=
        fun next hnext => lt_of_lt_of_le (hclock next (List.mem_cons_of_mem event hnext)) hle
      rcases ih hrest he₁ hlater with ⟨e₂, hle₂, he₂⟩
      exact ⟨e₂, le_trans hle hle₂, he₂⟩

/-- No quarantine in force is shortened along a sequence of operations exactly when every one of them
outlasts what it overwrites. -/
theorem quarantine_kept_iff (s : RiskState) (events : List RiskEvent) :
    KeepsQuarantines s events ↔
      ∀ before event after, events = before ++ event :: after → event.Outlasts (s.run before) := by
  constructor
  · intro h before event after hsplit
    rw [← keeps_apply_iff]
    intro key e he hlt
    have hone := h before [event] after (by rw [hsplit]; simp) key e he (by simpa using hlt)
    rwa [run_append] at hone
  · intro h before later after hsplit key e he hclock
    rw [run_append]
    refine exists_expiry_run later ?_ he hclock
    rintro mid event rest rfl
    rw [← run_append]
    exact h (before ++ mid) event (rest ++ after) (by rw [hsplit]; simp)

/-! ### A breaker after a breaker -/

/-- A service with a loss limit and nothing out of use. -/
def freshRisk (maxLoss : U256) : RiskState where
  quarantine := fun _ => none
  routeHashQuarantine := fun _ => none
  directTokenQuarantine := fun _ => none
  globalQuarantineUntil := none
  failCounts := fun _ => 0
  underwaterStrikes := fun _ => none
  maxDailyLossMaticWei := some maxLoss
  inserts := 0

/-- The loss limit is breached; ten seconds later too many failures in a row trip the other breaker, and
the hour becomes a minute. -/
theorem global_quarantine_shortened :
    ¬ KeepsQuarantines (freshRisk 1#256)
      [⟨0, .dailyLoss (-1)⟩, ⟨fromSecs 10, .global (fromSecs 60) (fromSecs 10)⟩] := by
  intro h
  rcases h [⟨0, .dailyLoss (-1)⟩] [⟨fromSecs 10, .global (fromSecs 60) (fromSecs 10)⟩] [] rfl .global
    (fromSecs 3600) (by decide) (by simp [fromSecs]) with ⟨e', hle, he'⟩
  have hminute : ((freshRisk 1#256).run ([⟨0, .dailyLoss (-1)⟩] ++
      [⟨fromSecs 10, .global (fromSecs 60) (fromSecs 10)⟩])).expiry .global = some (fromSecs 70) := by
    decide
  rw [hminute, Option.some.injEq] at he'
  rw [← he'] at hle
  revert hle
  decide

end PolygonArb

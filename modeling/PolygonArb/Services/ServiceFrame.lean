import PolygonArb.Services.ProcessCandidate

/-!
# What a call leaves as it is

Most of what `process_candidate` does to the service is bookkeeping: `Notes` says that nonces and times of
submission are as before, and that what is out of use was changed by events of the call only.
`RiskEvent.Within` says when these are noted and applied.

`OutUntil` holds of a route that cannot be submitted before an instant.  No event noted in the last
`routeCooldown` before that instant takes it away.
-/

namespace PolygonArb

open Expiry Word

/-- Noted and applied between two instants. -/
def RiskEvent.Within (start end_ : Instant) (event : RiskEvent) : Prop :=
  start ≤ event.clock ∧ event.clock ≤ end_ ∧
    match event.op with
    | .route _ now => start ≤ now
    | .routeSoft _ now => start ≤ now
    | .routeStructural _ now => start ≤ now
    | _ => True

/-- The clock of a call does not run backwards. -/
structure CandidateClock.Ordered (clock : CandidateClock) : Prop where
  gates : clock.now ≤ clock.gates
  dryRun : clock.gates ≤ clock.dryRun
  live : clock.dryRun ≤ clock.live
  settle : clock.live ≤ clock.settle

lemma CandidateClock.Ordered.le_settle {clock : CandidateClock} (h : clock.Ordered) :
    clock.now ≤ clock.settle :=
  h.gates.trans (h.dryRun.trans (h.live.trans h.settle))

/-- Nothing but bookkeeping between two instants. -/
structure Notes (start end_ : Instant) (svc svc' : ExecutionService) : Prop where
  nonce : svc'.nonce = svc.nonce
  lastSubmit : svc'.lastSubmit = svc.lastSubmit
  risk : ∃ events, svc'.risk = svc.risk.run events ∧ ∀ event ∈ events, event.Within start end_

namespace Notes

variable {start end_ : Instant} {svc svc' svc'' : ExecutionService}

/-- The risk state is not touched. -/
lemma of_eq (hnonce : svc'.nonce = svc.nonce) (hlast : svc'.lastSubmit = svc.lastSubmit)
    (hrisk : svc'.risk = svc.risk) : Notes start end_ svc svc' :=
  ⟨hnonce, hlast, [], hrisk, by simp⟩

lemma refl : Notes start end_ svc svc := of_eq rfl rfl rfl

lemma trans (h : Notes start end_ svc svc') (h' : Notes start end_ svc' svc'') :
    Notes start end_ svc svc'' := by
  obtain ⟨events, hrisk, hwithin⟩ := h.risk
  obtain ⟨events', hrisk', hwithin'⟩ := h'.risk
  refine ⟨h'.nonce.trans h.nonce, h'.lastSubmit.trans h.lastSubmit, events ++ events', ?_, ?_⟩
  · rw [hrisk', hrisk, run_append]
  · intro event hevent
    rcases List.mem_append.mp hevent with hmem | hmem
    · exact hwithin event hmem
    · exact hwithin' event hmem

/-- One event. -/
lemma of_apply (event : RiskEvent) (hnonce : svc'.nonce = svc.nonce)
    (hlast : svc'.lastSubmit = svc.lastSubmit) (hrisk : svc'.risk = svc.risk.apply event)
    (hwithin : event.Within start end_) : Notes start end_ svc svc' :=
  ⟨hnonce, hlast, [event], hrisk, by simpa using hwithin⟩

end Notes

namespace ExecutionService

variable {Log : Type} (w : CandidateWorld Log) (svc : ExecutionService) (c : CandidateExecution)
  {start end_ now clock : Instant}

section Marks

variable (edges : List Edge) (hnow : start ≤ now) (hclock : start ≤ clock) (hend : clock ≤ end_)

include hclock hend

lemma notes_quarantineToken (token : Address) : Notes start end_ svc (svc.quarantineToken token clock) :=
  .of_apply ⟨clock, .directTokenZeroRealized token⟩ rfl rfl rfl ⟨hclock, hend, trivial⟩

lemma notes_recordRealized (profitWei gasCostWei : U256) (today : ℕ) :
    Notes start end_ svc (svc.recordRealized profitWei gasCostWei today clock) := by
  have hbook : (svc.bookRealized profitWei gasCostWei today).nonce = svc.nonce ∧
      (svc.bookRealized profitWei gasCostWei today).lastSubmit = svc.lastSubmit ∧
      (svc.bookRealized profitWei gasCostWei today).risk = svc.risk := by
    simp only [bookRealized]
    split_ifs <;> exact ⟨rfl, rfl, rfl⟩
  refine .of_apply ⟨clock, .dailyLoss (svc.bookRealized profitWei gasCostWei today).pnl.daily⟩
    hbook.1 hbook.2.1 ?_ ⟨hclock, hend, trivial⟩
  simp only [recordRealized, hbook.2.2]
  rfl

lemma notes_recordGasCostLoss (gasCostWei : U256) (today : ℕ) :
    Notes start end_ svc (svc.recordGasCostLoss gasCostWei today clock) := by
  rw [recordGasCostLoss]
  split_ifs
  · exact .refl
  · exact svc.notes_recordRealized hclock hend 0 gasCostWei today

include hnow

lemma notes_quarantineRoute (kind : RouteFailureKind) :
    Notes start end_ svc (svc.quarantineRoute edges now clock kind) :=
  .of_apply ⟨clock, .route edges now⟩ rfl rfl rfl ⟨hclock, hend, hnow⟩

lemma notes_quarantineRouteSoft : Notes start end_ svc (svc.quarantineRouteSoft edges now clock) :=
  .of_apply ⟨clock, .routeSoft edges now⟩ rfl rfl rfl ⟨hclock, hend, hnow⟩

end Marks

/-! ## Before the nonce -/

lemma notes_teachGas (gas : ℕ) : Notes start end_ svc (svc.teachGas c gas) := .of_eq rfl rfl rfl

lemma notes_demoteCap (reason : String) : Notes start end_ svc (svc.demoteCap c reason) := by
  rw [demoteCap]
  split_ifs <;> exact .of_eq rfl rfl rfl

section Gates

variable (hclock : w.clock.Ordered)

include hclock

lemma notes_quarantineFailedCall (decoded : Option DecodedRevert) :
    Notes w.clock.now w.clock.settle svc (svc.quarantineFailedCall w c decoded) := by
  have hdry : w.clock.now ≤ w.clock.dryRun := hclock.gates.trans hclock.dryRun
  have hend : w.clock.dryRun ≤ w.clock.settle := hclock.live.trans hclock.settle
  have hhash : Notes w.clock.now w.clock.settle svc { svc with
      risk := (svc.risk.quarantineRouteHash c.routeHash w.clock.now).quarantineInsert c.routeEdges
        (w.clock.now + structuralDryRunQuarantine) w.clock.dryRun } := by
    refine ⟨rfl, rfl, [⟨w.clock.dryRun, .routeHash c.routeHash w.clock.now⟩,
      ⟨w.clock.dryRun, .routeStructural c.routeEdges w.clock.now⟩], rfl, ?_⟩
    simp [RiskEvent.Within, hdry, hend]
  simp only [quarantineFailedCall]
  split
  · split_ifs
    · split
      · exact svc.notes_quarantineToken hdry hend _
      · exact .refl
    · split
      · exact hhash.trans (notes_quarantineToken _ hdry hend _)
      · exact hhash
  · split
    · exact svc.notes_quarantineToken hdry hend _
    · exact .refl
  · exact .refl

lemma notes_afterFailedDryRun (dry : DryRunResult) :
    Notes w.clock.now w.clock.settle svc (svc.afterFailedDryRun w c dry) := by
  have hdry : w.clock.now ≤ w.clock.dryRun := hclock.gates.trans hclock.dryRun
  have hend : w.clock.dryRun ≤ w.clock.settle := hclock.live.trans hclock.settle
  have hzero : ∀ svc : ExecutionService,
      Notes w.clock.now w.clock.settle svc (svc.quarantineZeroRealized w c dry) := by
    intro svc
    rw [quarantineZeroRealized]
    split_ifs
    · exact svc.notes_quarantineToken hdry hend c.profitToken
    · exact .refl
  have hcool : ∀ (svc : ExecutionService) (decoded : Option DecodedRevert),
      Notes w.clock.now w.clock.settle svc (svc.coolFailedRoute w c decoded) := by
    intro svc decoded
    rw [coolFailedRoute]
    split_ifs
    · exact svc.notes_quarantineRouteSoft c.routeEdges le_rfl hdry hend
    · exact svc.notes_quarantineRoute c.routeEdges le_rfl hdry hend .dryRun
  simp only [afterFailedDryRun]
  exact (((hzero svc).trans (hcool _ _)).trans (notes_quarantineFailedCall w _ c hclock _)).trans
    (notes_demoteCap _ c _)

lemma notes_planSubmit (dry : DryRunResult) :
    Notes w.clock.now w.clock.settle svc (svc.planSubmit w c dry).1 := by
  have hdry : w.clock.now ≤ w.clock.dryRun := hclock.gates.trans hclock.dryRun
  have hend : w.clock.dryRun ≤ w.clock.settle := hclock.live.trans hclock.settle
  have hteach : ∀ gas, Notes w.clock.now w.clock.settle svc (svc.teachDryRun c dry gas) := by
    intro gas
    rw [teachDryRun]
    split_ifs
    · exact .refl
    · exact notes_teachGas svc c gas
  have hfail : ∀ svc : ExecutionService, Notes w.clock.now w.clock.settle svc
      (svc.quarantineRoute c.routeEdges w.clock.now w.clock.dryRun .dryRun) :=
    fun svc => svc.notes_quarantineRoute c.routeEdges le_rfl hdry hend .dryRun
  simp only [planSubmit]
  split_ifs
  · exact hfail svc
  · split
    · exact (hteach _).trans (hfail _)
    · split
      · exact hteach _
      · split
        · exact hteach _
        · split_ifs
          · exact (hteach _).trans (.of_eq rfl rfl rfl)
          · exact hteach _

lemma notes_liveGates (plan : SubmitPlan) (chainHead : ℕ) :
    Notes w.clock.now w.clock.settle svc (svc.liveGates w c plan chainHead).1 := by
  have hlive : w.clock.now ≤ w.clock.live := hclock.gates.trans (hclock.dryRun.trans hclock.live)
  have hnonces : Notes w.clock.now w.clock.settle svc (svc.operatorNonces w).1 := by
    rw [operatorNonces]
    split
    · exact .refl
    · split <;> exact .of_eq rfl rfl rfl
  rw [liveGates]
  split
  · exact .refl
  · have hsvc : (svc.operatorMempoolClear w).1 = (svc.operatorNonces w).1 := rfl
    rw [← hsvc] at hnonces
    split
    · next heq =>
      rw [heq] at hnonces
      exact hnonces
    · next heq =>
      rw [heq] at hnonces
      split_ifs
      · exact hnonces
      · exact hnonces
      · exact hnonces.trans (.of_apply ⟨w.clock.live, .global (fromSecs 60) w.clock.now⟩ rfl rfl
          rfl ⟨hlive, hclock.settle, trivial⟩)
      · split <;> exact hnonces

end Gates

/-! ## After the receipt -/

section Settle

variable (hclock : w.clock.Ordered)

include hclock

lemma notes_finalizeRevert (gasLimit : ℕ) (receipt : ReceiptData Log) :
    Notes w.clock.now w.clock.settle svc (svc.finalizeRevert w c gasLimit receipt) := by
  have hsettle := hclock.le_settle
  have hteach : ∀ svc : ExecutionService,
      Notes w.clock.now w.clock.settle svc (svc.teachRevert c gasLimit receipt) := by
    intro svc
    rw [teachRevert]
    split_ifs
    · exact notes_teachGas svc c _
    · exact .refl
  simp only [finalizeRevert]
  exact ((svc.notes_quarantineRoute c.routeEdges le_rfl hsettle le_rfl .revert).trans
    (notes_recordGasCostLoss _ hsettle le_rfl _ w.today)).trans (hteach _)

lemma notes_attributeProfit (profit : Option U256) (gasCost : U256) :
    Notes w.clock.now w.clock.settle svc (svc.attributeProfit w c profit gasCost) := by
  have hsettle := hclock.le_settle
  have hclear : ∀ svc : ExecutionService, Notes w.clock.now w.clock.settle svc (svc.clearFailCount c) :=
    fun svc => .of_apply ⟨w.clock.settle, .clearFailCount c.routeEdges⟩ rfl rfl rfl
      ⟨hsettle, le_rfl, trivial⟩
  cases profit with
  | none => exact svc.notes_quarantineRouteSoft c.routeEdges le_rfl hsettle le_rfl
  | some profit =>
      have hbook := svc.notes_recordRealized hsettle le_rfl profit gasCost w.today
      simp only [attributeProfit]
      split_ifs
      · exact hbook.trans ((hclear _).trans (.of_eq rfl rfl rfl))
      · exact hbook.trans (hclear _)
      · exact hbook.trans (notes_quarantineRoute _ c.routeEdges le_rfl hsettle le_rfl .realizedLoss)

lemma notes_finalizeSuccess (receipt : ReceiptData Log) :
    Notes w.clock.now w.clock.settle svc (svc.finalizeSuccess w c receipt) := by
  have hsettle := hclock.le_settle
  have hteach : Notes w.clock.now w.clock.settle svc
      (if 0 < receipt.gasUsed then svc.teachGas c receipt.gasUsed else svc) := by
    split_ifs
    · exact notes_teachGas svc c _
    · exact .refl
  simp only [finalizeSuccess]
  split
  · exact hteach.trans (notes_quarantineRoute _ c.routeEdges le_rfl hsettle le_rfl .realizedLoss)
  · exact hteach.trans (notes_attributeProfit w _ c hclock _ _)

end Settle

end ExecutionService

/-! ## Routes that are out -/

section OutUntil

variable {start end_ now until_ : Instant} {edges : List Edge} {risk : RiskState} {svc svc' : ExecutionService}

/-- The route is out of use for long enough, or the instant is over by `clock`. -/
def RiskState.BarredUntil (risk : RiskState) (edges : List Edge) (until_ clock : Instant) : Prop :=
  until_ ≤ clock ∨ ∃ e, risk.quarantine edges = some e ∧ until_ ≤ e

/-- The same for a service, which also looks at the last submission of the route. -/
def ExecutionService.OutUntil (svc : ExecutionService) (edges : List Edge) (until_ clock : Instant) : Prop :=
  svc.risk.BarredUntil edges until_ clock ∨ ∃ l, svc.lastSubmit edges = some l ∧ until_ ≤ l + routeCooldown

lemma barred_of_eq {risk' : RiskState} (h : risk.BarredUntil edges until_ end_)
    (heq : risk'.quarantine = risk.quarantine) : risk'.BarredUntil edges until_ end_ := by
  rwa [RiskState.BarredUntil, heq]

/-- An insertion that lasts long enough, or is for another route. -/
lemma barred_quarantineInsert {edges' : List Edge} {e clock : Instant}
    (h : risk.BarredUntil edges until_ end_) (he : until_ ≤ e) (hclock : clock ≤ end_) :
    (risk.quarantineInsert edges' e clock).BarredUntil edges until_ end_ := by
  rcases h with hover | ⟨old, hold, hle⟩
  · exact .inl hover
  · by_cases hedges : edges = edges'
    · subst hedges
      exact .inr ⟨e, by simp [RiskState.quarantineInsert], he⟩
    · simp only [RiskState.BarredUntil, RiskState.quarantineInsert, put_of_ne _ hedges]
      split_ifs
      · by_cases hlive : clock < old
        · exact .inr ⟨old, by simp [prune, hold, hlive], hle⟩
        · -- what is dropped is over
          exact .inl (hle.trans ((not_lt.mp hlive).trans hclock))
      · exact .inr ⟨old, hold, hle⟩

lemma barred_extend {edges' : List Edge} {e : Instant} (h : risk.BarredUntil edges until_ end_) :
    ({ risk with quarantine := extend risk.quarantine edges' e } : RiskState).BarredUntil edges until_ end_ := by
  rcases h with hover | ⟨old, hold, hle⟩
  · exact .inl hover
  · rw [RiskState.BarredUntil]
    simp only [extend]
    split_ifs with hall
    · by_cases hedges : edges = edges'
      · subst hedges
        rw [hold, Option.all_some, decide_eq_true_eq] at hall
        exact .inr ⟨e, put_self _ _ _, hle.trans hall.le⟩
      · exact .inr ⟨old, (put_of_ne _ hedges e).trans hold, hle⟩
    · exact .inr ⟨old, hold, hle⟩

lemma routeCooldown_le_chronicTtl (cover : ℕ) (available : U256) :
    routeCooldown ≤ RiskState.chronicTtl cover available := by
  rw [RiskState.chronicTtl]
  split_ifs <;> decide

/-- Every entry that is written lasts at least `routeCooldown` from when it was noted. -/
lemma barred_apply {event : RiskEvent} (h : risk.BarredUntil edges until_ end_)
    (hevent : event.Within start end_) (hstart : until_ ≤ start + routeCooldown) :
    (risk.apply event).BarredUntil edges until_ end_ := by
  obtain ⟨clock, op⟩ := event
  obtain ⟨hlow, hhigh, hnoted⟩ := hevent
  have hlong : ∀ {t ttl : ℕ}, start ≤ t → routeCooldown ≤ ttl → until_ ≤ t + ttl :=
    fun ht httl => hstart.trans (Nat.add_le_add ht httl)
  simp only at hlow hhigh hnoted
  cases op with
  | route edges' now =>
      refine barred_quarantineInsert (barred_of_eq h rfl) (hlong hnoted ?_) hhigh
      rw [RiskState.failureCooldown]
      split_ifs
      · decide
      · exact le_rfl
  | routeSoft edges' now => exact barred_quarantineInsert h (hlong hnoted le_rfl) hhigh
  | routeStructural edges' now => exact barred_quarantineInsert h (hlong hnoted (by decide)) hhigh
  | batchQueryFailure edges' => exact barred_quarantineInsert h (hlong hlow (by decide)) hhigh
  | staleRoute edges' => exact barred_extend h
  | probeBelowDispatchFloor edges' =>
      simp only [RiskState.apply, RiskState.quarantineProbeBelowDispatchFloor]
      split_ifs
      · exact h
      · rcases h with hover | ⟨old, hold, hle⟩
        · exact .inl hover
        · by_cases hedges : edges = edges'
          · subst hedges
            exact .inr ⟨_, put_self _ _ _, hlong hlow (by decide)⟩
          · exact .inr ⟨old, (put_of_ne _ hedges _).trans hold, hle⟩
  | chronicGasUnderwater edges' cover available =>
      simp only [RiskState.apply, RiskState.quarantineChronicGasUnderwater]
      split_ifs
      · exact h
      · exact h
      · exact h
      · exact barred_quarantineInsert (barred_of_eq h rfl)
          (hlong hlow (routeCooldown_le_chronicTtl cover available)) hhigh
  | extendUntil edges' e => exact barred_extend h
  | routeHash hash now => exact h
  | directTokenZeroRealized token => exact h
  | «global» duration now => exact h
  | dailyLoss daily =>
      simp only [RiskState.apply, RiskState.enforceDailyLossLimit]
      split_ifs <;> exact h
  | clearFailCount edges' => exact h

lemma barred_run {events : List RiskEvent} (h : risk.BarredUntil edges until_ end_)
    (hwithin : ∀ event ∈ events, event.Within start end_) (hstart : until_ ≤ start + routeCooldown) :
    (risk.run events).BarredUntil edges until_ end_ := by
  induction events generalizing risk with
  | nil => exact h
  | cons event events ih =>
      have hone := barred_apply h (hwithin event List.mem_cons_self) hstart
      exact ih hone fun later hlater => hwithin later (List.mem_cons_of_mem event hlater)

/-- A route that is out stays out through bookkeeping. -/
lemma Notes.outUntil (hnotes : Notes start end_ svc svc') (h : svc.OutUntil edges until_ end_)
    (hstart : until_ ≤ start + routeCooldown) : svc'.OutUntil edges until_ end_ := by
  rcases h with hbarred | ⟨l, hl, hle⟩
  · obtain ⟨events, hrisk, hwithin⟩ := hnotes.risk
    left
    rw [hrisk]
    exact barred_run hbarred hwithin hstart
  · exact .inr ⟨l, by rw [hnotes.lastSubmit]; exact hl, hle⟩

lemma ExecutionService.OutUntil.later (h : svc.OutUntil edges until_ now) (hle : now ≤ end_) :
    svc.OutUntil edges until_ end_ := by
  rcases h with (hover | hbarred) | hlast
  · exact .inl (.inl (hover.trans hle))
  · exact .inl (.inr hbarred)
  · exact .inr hlast

/-- Routes that are out shortly after the start stay out to the end. -/
def KeepsOut (start end_ : Instant) (svc svc' : ExecutionService) : Prop :=
  ∀ edges until_, until_ ≤ start + routeCooldown → svc.OutUntil edges until_ end_ →
    svc'.OutUntil edges until_ end_

lemma Notes.keepsOut (h : Notes start end_ svc svc') : KeepsOut start end_ svc svc' :=
  fun _ _ hstart hout => h.outUntil hout hstart

lemma KeepsOut.trans {svc'' : ExecutionService} (h : KeepsOut start end_ svc svc')
    (h' : KeepsOut start end_ svc' svc'') : KeepsOut start end_ svc svc'' :=
  fun edges until_ hstart hout => h' edges until_ hstart (h edges until_ hstart hout)

/-- A submission that is entered counts from the start. -/
lemma keepsOut_lastSubmit (edges : List Edge) :
    KeepsOut start end_ svc { svc with lastSubmit := Function.update svc.lastSubmit edges (some start) } := by
  intro edges' until_ hstart hout
  rcases hout with hbarred | ⟨l, hl, hle⟩
  · exact .inl hbarred
  · right
    by_cases hedges : edges' = edges
    · subst hedges
      exact ⟨start, by simp, hstart⟩
    · exact ⟨l, by simp [hedges, hl], hle⟩

end OutUntil

/-! ## The loop of attempts -/

section Attempts

variable {answers : SubmitAnswers} {gasLimit : ℕ}

/-- What a retry has done, and what the attempt after it bids. -/
lemma retryAfter_cases {attempts : ℕ} {mgr : NonceManager} {n : Nonce} {fees : SubmitFees}
    {e : SubmitError × String} {r : Retry} (h : retryAfter answers gasLimit attempts mgr n fees e = some r) :
    (∃ result rest, r = .stop result ∧ result.events = .sent n fees gasLimit :: rest ∧
        ((rest = [] ∨ rest = [.resynced]) ∨ rest = [.accepted n] ∧ result.result = .ok ())) ∨
      ∃ mgr' n' fees' rest, r = .again mgr' n' fees' (.sent n fees gasLimit :: rest) ∧
        (rest = [] ∧ fees' = bumpFees fees feeBumpBps ∨ rest = [.resynced, .reserved n'] ∧ fees' = fees) := by
  rw [retryAfter] at h
  split at h
  · split at h
    · rw [Option.some.injEq] at h
      exact .inl ⟨_, [], h.symm, rfl, .inl (.inl rfl)⟩
    · obtain ⟨⟨answer, mgr'⟩, -, rfl⟩ := Option.map_eq_some_iff.mp h
      cases answer with
      | error text => exact .inl ⟨_, _, rfl, rfl, .inl (.inr rfl)⟩
      | ok next => exact .inr ⟨_, _, _, _, rfl, .inr ⟨rfl, rfl⟩⟩
  · rw [Option.some.injEq] at h
    exact .inr ⟨_, _, _, [], h.symm, .inl ⟨rfl, rfl⟩⟩
  · split_ifs at h <;> rw [Option.some.injEq] at h
    · exact .inl ⟨_, _, h.symm, rfl, .inr ⟨rfl, rfl⟩⟩
    · exact .inl ⟨_, [], h.symm, rfl, .inl (.inl rfl)⟩
  · rw [Option.some.injEq] at h
    exact .inl ⟨_, [], h.symm, rfl, .inl (.inl rfl)⟩
  · rw [Option.some.injEq] at h
    exact .inl ⟨_, [], h.symm, rfl, .inl (.inl rfl)⟩

/-- A property of single attempts that retries pass on is one of the whole loop. -/
theorem submitAttempts_rule {P : ℕ → NonceManager → Nonce → SubmitFees → Submission → Prop}
    (hrefused : ∀ {left mgr n fees} e, P left mgr n fees ⟨mgr, n, .error e, []⟩)
    (haccepted : ∀ {left mgr n fees},
      P left mgr n fees ⟨mgr, n, .ok (), [.sent n fees gasLimit, .accepted n]⟩)
    (hlast : ∀ {left mgr n fees} e, P left mgr n fees ⟨mgr, n, .error e, [.sent n fees gasLimit]⟩)
    (hstop : ∀ {attempts left mgr n fees e result},
      retryAfter answers gasLimit attempts mgr n fees e = some (.stop result) → P left mgr n fees result)
    (hagain : ∀ {attempts left mgr n fees e mgr' n' fees' events s},
      retryAfter answers gasLimit attempts mgr n fees e = some (.again mgr' n' fees' events) →
      P left mgr' n' fees' s → P (left + 1) mgr n fees (s.after events))
    {left : ℕ} {mgr : NonceManager} {n : Nonce} {fees : SubmitFees} {s : Submission}
    (h : submitAttempts answers gasLimit left mgr n fees = some s) : P left mgr n fees s := by
  induction left generalizing mgr n fees s with
  | zero =>
      rw [submitAttempts] at h
      split at h
      · exact Option.some.inj h ▸ hrefused _
      · split at h
        · exact Option.some.inj h ▸ haccepted
        · exact Option.some.inj h ▸ hlast _
  | succ left ih =>
      rw [submitAttempts] at h
      split at h
      · exact Option.some.inj h ▸ hrefused _
      · split at h
        · exact Option.some.inj h ▸ haccepted
        · obtain ⟨r, hr, hrest⟩ := Option.bind_eq_some_iff.mp h
          cases r with
          | stop result => exact Option.some.inj hrest ▸ hstop hr
          | again mgr' n' fees' events =>
              obtain ⟨s', hs', rfl⟩ := Option.map_eq_some_iff.mp hrest
              exact hagain hr (ih hs')

end Attempts

/-- The call has called `submit_transaction`. -/
def Processed.Sends (p : Processed) : Prop := ∃ n fees gasLimit, .sent n fees gasLimit ∈ p.events

/-! ## Admission -/

section Admit

variable {Log : Type} {w : CandidateWorld Log} {svc : ExecutionService} {c : CandidateExecution} {head : ℕ}

/-- What holds of a candidate that is let in. -/
structure ExecutionService.Admitted (svc : ExecutionService) (w : CandidateWorld Log) (c : CandidateExecution)
    (head : ℕ) : Prop where
  running : w.shutdownAtStart = false
  breaker : ∀ e, svc.risk.globalQuarantineUntil = some e → e ≤ w.clock.now
  generation : c.stateGeneration ≤ w.cacheGeneration
  provenance : c.stateBlock = w.expectedStateBlock ∧ c.stateHash = w.expectedStateHash
  floor : svc.learnedFloor c ≤ c.expectedProfitMaticWei
  head : ExecutionService.chainHead w = .ok head
  route : ∀ e, svc.risk.quarantine c.routeEdges = some e → e ≤ w.clock.now
  routeHash : ∀ e, svc.risk.routeHashQuarantine c.routeHash = some e → e ≤ w.clock.gates
  token : ∀ e, svc.risk.directTokenQuarantine c.profitToken = some e → e ≤ w.clock.gates
  cooldown : ∀ last, svc.lastSubmit c.routeEdges = some last →
    last + ExecutionService.submitCooldown w ≤ w.clock.now

lemma le_of_not_isLive {κ : Type} {m : ExpiryMap κ} {k : κ} {now e : ℕ} (h : ¬ isLive m k now = true)
    (he : m k = some e) : e ≤ now := by
  rw [isLive_iff] at h
  by_contra hlt
  exact h ⟨e, he, not_le.mp hlt⟩

lemma submitCooldown_pos : 0 < ExecutionService.submitCooldown w := by
  rw [ExecutionService.submitCooldown]
  split_ifs <;> decide

lemma admitCandidate_ok (h : svc.admitCandidate w c = .ok head) : svc.Admitted w c head := by
  rw [ExecutionService.admitCandidate] at h
  cases hhead : ExecutionService.chainHead w with
  | error text =>
      simp only [hhead] at h
      split_ifs at h
  | ok head' =>
    simp only [hhead] at h
    split_ifs at h with hshutdown hglobal hgeneration hprovenance hfloor hroute hhash htoken hcooldown
    rw [Except.ok.injEq] at h
    subst h
    push Not at hprovenance
    refine ⟨by simpa using hshutdown, ?_, not_lt.mp hgeneration, hprovenance, BitVec.not_lt.mp hfloor, hhead,
      fun e => le_of_not_isLive hroute, fun e => le_of_not_isLive hhash, fun e => le_of_not_isLive htoken, ?_⟩
    · intro e he
      simpa [he] using hglobal
    · intro last hlast
      have hpos := submitCooldown_pos (w := w)
      simp only [ExecutionService.onCooldown, hlast, Option.any_some, decide_eq_true_eq, not_lt] at hcooldown
      have hlast_lt : last < w.clock.now := Nat.lt_of_sub_pos (hpos.trans_le hcooldown)
      exact Nat.add_le_of_le_sub' hlast_lt.le hcooldown

/-- A route that is out is not let in. -/
lemma ExecutionService.Admitted.out_over (h : svc.Admitted w c head) {until_ : Instant}
    (hout : svc.OutUntil c.routeEdges until_ w.clock.now) : until_ ≤ w.clock.now := by
  have hlong : routeCooldown ≤ ExecutionService.submitCooldown w := by
    rw [ExecutionService.submitCooldown]
    split_ifs <;> decide
  rcases hout with (hover | ⟨e, he, hle⟩) | ⟨l, hl, hle⟩
  · exact hover
  · exact hle.trans (h.route e he)
  · exact hle.trans ((Nat.add_le_add_left hlong l).trans (h.cooldown l hl))

/-- What has been passed when a nonce is taken: the state is `ready`, and `pendingAhead` whether the pending
nonce was ahead. -/
structure Cleared (w : CandidateWorld Log) (svc : ExecutionService) (c : CandidateExecution) (head : ℕ)
    (plan : ExecutionService.SubmitPlan) (ready : ExecutionService) (pendingAhead : Bool) : Prop where
  admitted : svc.Admitted w c head
  dryRun : ExecutionService.dryRunFails (w.dryRun (ExecutionService.simulationBlock w c head)) = false
  planned : ∃ planned,
    svc.planSubmit w c (w.dryRun (ExecutionService.simulationBlock w c head)) = (planned, .ok plan) ∧
      planned.liveGates w c plan head = (ready, .ok pendingAhead)
  live : w.config.dryRun = false
  notes : Notes w.clock.now w.clock.settle svc ready

/-- A call takes no nonce, or all gates were passed. -/
lemma processCandidate_cases {p : Processed} (hclock : w.clock.Ordered)
    (hrun : svc.processCandidate w c = some p) :
    (p.events = [] ∧ p.svc.nonce = svc.nonce ∧ KeepsOut w.clock.now w.clock.settle svc p.svc) ∨
      ∃ head plan ready pendingAhead, Cleared w svc c head plan ready pendingAhead ∧
        ready.submitPlanned w c plan pendingAhead = some p := by
  have hended : ∀ {svc' outcome aave}, Notes w.clock.now w.clock.settle svc svc' →
      some (⟨svc', outcome, [], aave⟩ : Processed) = some p →
        p.events = [] ∧ p.svc.nonce = svc.nonce ∧ KeepsOut w.clock.now w.clock.settle svc p.svc := by
    intro svc' outcome aave hnotes heq
    rw [Option.some.injEq] at heq
    subst heq
    exact ⟨rfl, hnotes.nonce, hnotes.keepsOut⟩
  rw [ExecutionService.processCandidate] at hrun
  cases hverdict : svc.admitCandidate w c with
  | error outcome =>
      rw [hverdict] at hrun
      exact .inl (hended .refl hrun)
  | ok head =>
    simp only [hverdict] at hrun
    generalize hdry : w.dryRun (ExecutionService.simulationBlock w c head) = dry at hrun
    cases hfails : ExecutionService.dryRunFails dry with
    | true =>
        rw [if_pos hfails] at hrun
        exact .inl (hended (svc.notes_afterFailedDryRun w c hclock dry) hrun)
    | false =>
      rw [if_neg (by simp [hfails])] at hrun
      have hplan := svc.notes_planSubmit w c hclock dry
      cases hplanned : svc.planSubmit w c dry with
      | mk planned result =>
        rw [hplanned] at hplan
        cases result with
        | error outcome =>
            rw [hplanned] at hrun
            exact .inl (hended hplan hrun)
        | ok plan =>
          simp only [hplanned] at hrun
          split_ifs at hrun with hmode
          · rw [Option.some.injEq] at hrun
            subst hrun
            exact .inl ⟨rfl, hplan.nonce, hplan.keepsOut.trans (keepsOut_lastSubmit c.routeEdges)⟩
          · have hlive := planned.notes_liveGates w c hclock plan head
            rw [ExecutionService.processLive] at hrun
            cases hgates : planned.liveGates w c plan head with
            | mk ready verdict =>
              rw [hgates] at hlive hrun
              cases verdict with
              | error outcome => exact .inl (hended (hplan.trans hlive) hrun)
              | ok pendingAhead =>
                  refine .inr ⟨head, plan, ready, pendingAhead, ⟨admitCandidate_ok hverdict, ?_, ?_, ?_, ?_⟩, hrun⟩
                  · rw [hdry, hfails]
                  · rw [hdry]
                    exact ⟨planned, hplanned, hgates⟩
                  · simpa using hmode
                  · exact hplan.trans hlive

/-- What comes before a submission: the manager is brought up to date, and a nonce is taken. -/
def TxEvent.Quiet : TxEvent → Prop
  | .reserved _ | .resynced => True
  | _ => False

lemma cleanNonces_quiet {mgr : NonceManager} {pendingAhead : Bool} :
    ∀ event ∈ (ExecutionService.cleanNonces w mgr pendingAhead).2, event.Quiet := by
  intro event hmem
  rw [ExecutionService.cleanNonces] at hmem
  split_ifs at hmem
  · split at hmem
    · rw [List.mem_singleton.mp hmem]
      trivial
    · cases hmem
  · cases hmem

/-- A call that has passed the gates ends before it submits, or its submission fails, or it goes on to the
receipt. -/
lemma submitPlanned_cases {plan : ExecutionService.SubmitPlan} {pendingAhead : Bool} {p : Processed}
    (hrun : svc.submitPlanned w c plan pendingAhead = some p) :
    ((∀ event ∈ p.events, event.Quiet) ∧ ∀ start end_, KeepsOut start end_ svc p.svc) ∨
      ∃ before mgr nonce s p', (∀ event ∈ before, TxEvent.Quiet event) ∧
        submitWithRecovery w.submit plan.gasLimit mgr nonce plan.fees = some s ∧
        p = { p' with events := before ++ (s.events ++ p'.events) } ∧
        ((∃ e, s.result = .error e ∧ p' = svc.afterSubmitError w c s.mgr s.nonce e) ∨
          svc.afterSubmit w c s.mgr s.nonce plan = some p') := by
  rw [ExecutionService.submitPlanned] at hrun
  cases hensure : svc.ensureNonceManager w with
  | error text =>
      simp only [hensure, Option.some.injEq] at hrun
      subst hrun
      exact .inl ⟨by simp [ExecutionService.ended], fun _ _ => Notes.refl.keepsOut⟩
  | ok mgr =>
    have hcleaned := @cleanNonces_quiet _ w mgr pendingAhead
    cases hclean : ExecutionService.cleanNonces w mgr pendingAhead with
    | mk mgr₁ cleaned =>
      rw [hclean] at hcleaned
      simp only [hensure, hclean, Option.bind_eq_some_iff] at hrun
      obtain ⟨⟨answer, mgr₂⟩, -, hrun⟩ := hrun
      cases answer with
      | error text =>
          rw [Option.some.injEq] at hrun
          subst hrun
          exact .inl ⟨hcleaned, fun _ _ _ _ _ hout => hout⟩
      | ok nonce =>
        have hbefore : ∀ event ∈ cleaned ++ [.reserved nonce], TxEvent.Quiet event := by
          simp only [List.mem_append, List.mem_singleton]
          rintro event (hmem | rfl)
          · exact hcleaned event hmem
          · trivial
        cases hconfig : w.privateConfig with
        | error text =>
            simp only [hconfig, Option.some.injEq] at hrun
            subst hrun
            exact .inl ⟨by simpa [ExecutionService.ended] using hbefore, fun _ _ _ _ _ hout => hout⟩
        | ok _ =>
            simp only [hconfig, Option.bind_eq_some_iff] at hrun
            obtain ⟨s, hs, hrun⟩ := hrun
            right
            cases hresult : s.result with
            | error e =>
                simp only [hresult, Option.some.injEq] at hrun
                exact ⟨_, mgr₂, nonce, s, _, hbefore, hs, by rw [← hrun]; simp,
                  .inl ⟨e, hresult, rfl⟩⟩
            | ok _ =>
                simp only [hresult] at hrun
                obtain ⟨p', hp', rfl⟩ := Option.map_eq_some_iff.mp hrun
                exact ⟨_, mgr₂, nonce, s, p', hbefore, hs, by simp, .inr hp'⟩

end Admit

end PolygonArb

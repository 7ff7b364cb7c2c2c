import PolygonArb.Services.NonceSettlement

/-!
# Runs of the execution service

The service over its life: calls of `process_candidate` one after the other, in between whatever else is
noted about routes, and the resync at shutdown.  Two promises hold of every run.

`nonce_not_reused`: no nonce is taken or sent with while a transaction is out with it, but to cancel it, and
the service comes to rest with every such nonce marked stale.  `submissions_spaced`: two calls that send for the same route
start at least `routeCooldown` apart.  Both rest on the shutdown flag being seen for good: a sweep that is
shut down gives its nonce back although its transaction is out, and a submission that is shut down puts its
route under no cooldown.
-/

namespace PolygonArb

open Word Transition TxEvent

variable {Log : Type} {w : CandidateWorld Log} {svc : ExecutionService} {c : CandidateExecution}
  {p : Processed} {mgr : NonceManager} {n : Nonce}

/-! ## A call that sends puts its route out -/

/-- The call has read the flag as set.  An answer that is not asked for counts as unset. -/
def seesShutdown (w : CandidateWorld Log) : Bool :=
  w.shutdownAtStart || w.shutdownBeforeSubmit || w.shutdownAfterWait || sweepSeesShutdown w ||
    match w.receipt with
    | .shutdown => true
    | _ => false

/-- All routes that are out stay out, and this one is out for `routeCooldown` from the start of the call. -/
structure Rests (w : CandidateWorld Log) (c : CandidateExecution) (svc svc' : ExecutionService) : Prop where
  keeps : KeepsOut w.clock.now w.clock.settle svc svc'
  out : svc'.OutUntil c.routeEdges (w.clock.now + routeCooldown) w.clock.settle

lemma Rests.notes {svc' svc'' : ExecutionService} (h : Rests w c svc svc')
    (hnotes : Notes w.clock.now w.clock.settle svc' svc'') : Rests w c svc svc'' :=
  ⟨h.keeps.trans hnotes.keepsOut, hnotes.outUntil h.out le_rfl⟩

/-- Only what is out matters. -/
lemma Rests.congr {svc₁ svc₂ svc' svc'' : ExecutionService} (h : Rests w c svc₁ svc')
    (hrisk : svc₁.risk = svc₂.risk) (hlast : svc₁.lastSubmit = svc₂.lastSubmit) (hrisk' : svc''.risk = svc'.risk)
    (hlast' : svc''.lastSubmit = svc'.lastSubmit) : Rests w c svc₂ svc'' := by
  have hkeeps := h.keeps
  have hout := h.out
  constructor
  · intro edges until_ hstart hbefore
    rw [ExecutionService.OutUntil, hrisk', hlast']
    rw [ExecutionService.OutUntil, ← hrisk, ← hlast] at hbefore
    exact hkeeps edges until_ hstart hbefore
  · rw [ExecutionService.OutUntil, hrisk', hlast']
    exact hout

section Rest

variable (hclock : w.clock.Ordered)

include hclock

lemma rests_quarantineRoute (svc : ExecutionService) (kind : RouteFailureKind) :
    Rests w c svc (svc.quarantineRoute c.routeEdges w.clock.now w.clock.settle kind) := by
  refine ⟨(svc.notes_quarantineRoute c.routeEdges le_rfl hclock.le_settle le_rfl kind).keepsOut, ?_⟩
  refine .inl (.inr ⟨_, Expiry.put_self _ _ _, Nat.add_le_add_left ?_ _⟩)
  rw [RiskState.failureCooldown]
  split_ifs <;> decide

lemma rests_quarantineRouteSoft (svc : ExecutionService) :
    Rests w c svc (svc.quarantineRouteSoft c.routeEdges w.clock.now w.clock.settle) := by
  refine ⟨(svc.notes_quarantineRouteSoft c.routeEdges le_rfl hclock.le_settle le_rfl).keepsOut, ?_⟩
  exact .inl (.inr ⟨_, Expiry.put_self _ _ _, le_rfl⟩)

lemma rests_finalizeReceipt (svc : ExecutionService) (gasLimit : ℕ) (receipt : ReceiptData Log) :
    Rests w c svc (svc.finalizeReceipt w c gasLimit receipt).1 := by
  have hentered : Rests w c svc
      { svc with lastSubmit := Function.update svc.lastSubmit c.routeEdges (some w.clock.now) } :=
    ⟨keepsOut_lastSubmit c.routeEdges, .inr ⟨w.clock.now, by simp, le_rfl⟩⟩
  rw [ExecutionService.finalizeReceipt]
  split_ifs
  · exact hentered.notes (ExecutionService.notes_finalizeSuccess w _ c hclock receipt)
  · exact hentered.notes (ExecutionService.notes_finalizeRevert w _ c hclock gasLimit receipt)

lemma rests_finalize {gasLimit : ℕ} {receipt : ReceiptData Log}
    (hrun : svc.finalizeReceiptAndMaybeSweep w c mgr n gasLimit receipt = some p) : Rests w c svc p.svc := by
  have hrests := rests_finalizeReceipt (c := c) hclock svc gasLimit receipt
  simp only [ExecutionService.finalizeReceiptAndMaybeSweep] at hrun
  split at hrun
  · split_ifs at hrun
    · rw [Option.some.injEq] at hrun
      subst hrun
      exact hrests.congr rfl rfl rfl rfl
    · obtain ⟨_, -, rfl⟩ := Option.map_eq_some_iff.mp hrun
      exact hrests.congr rfl rfl rfl rfl
  · rw [Option.some.injEq] at hrun
    subst hrun
    exact hrests.congr rfl rfl rfl rfl

lemma rests_afterReceiptTimeout {plan : ExecutionService.SubmitPlan}
    (hrun : svc.afterReceiptTimeout w c mgr n plan = some p) : Rests w c svc p.svc := by
  have hgaveUp : ∀ (svc' : ExecutionService) (mgr : NonceManager),
      Notes w.clock.now w.clock.settle svc svc' →
      Rests w c svc ((svc'.withNonce mgr).quarantineRoute c.routeEdges w.clock.now w.clock.settle .timeout) := by
    intro svc' mgr hnotes
    have hrests := rests_quarantineRoute (c := c) hclock (svc'.withNonce mgr) .timeout
    have hkeeps : KeepsOut w.clock.now w.clock.settle svc (svc'.withNonce mgr) := hnotes.keepsOut
    exact ⟨hkeeps.trans hrests.keeps, hrests.out⟩
  simp only [ExecutionService.afterReceiptTimeout] at hrun
  split at hrun
  · exact rests_finalize hclock hrun
  · rw [Option.some.injEq] at hrun
    subst hrun
    exact hgaveUp _ _ (svc.notes_recordGasCostLoss hclock.le_settle le_rfl _ w.today)
  · rw [Option.some.injEq] at hrun
    subst hrun
    exact hgaveUp _ _ .refl

lemma rests_afterSubmit {plan : ExecutionService.SubmitPlan} (hflag : seesShutdown w = false)
    (hrun : svc.afterSubmit w c mgr n plan = some p) : Rests w c svc p.svc := by
  simp only [seesShutdown, Bool.or_eq_false_iff] at hflag
  simp only [ExecutionService.afterSubmit] at hrun
  split at hrun
  · exact (rests_finalize hclock hrun).congr rfl rfl rfl rfl
  · next hreceipt => simp [hreceipt] at hflag
  · rw [Option.some.injEq] at hrun
    subst hrun
    exact (rests_quarantineRouteSoft hclock _).congr rfl rfl rfl rfl
  · rw [if_neg (by simp [hflag])] at hrun
    exact (rests_afterReceiptTimeout hclock hrun).congr rfl rfl rfl rfl

lemma rests_afterSubmitError (svc : ExecutionService) (mgr : NonceManager) (n : Nonce)
    (e : SubmitError × String) : Rests w c svc (svc.afterSubmitError w c mgr n e).svc := by
  simp only [ExecutionService.afterSubmitError]
  split_ifs
  · exact (rests_quarantineRouteSoft hclock _).congr rfl rfl rfl rfl
  · exact (rests_quarantineRoute hclock _ .submit).congr rfl rfl rfl rfl

lemma rests_submitPlanned {plan : ExecutionService.SubmitPlan} {pendingAhead : Bool}
    (hflag : seesShutdown w = false) (hrun : svc.submitPlanned w c plan pendingAhead = some p) :
    (¬ p.Sends ∧ KeepsOut w.clock.now w.clock.settle svc p.svc) ∨ Rests w c svc p.svc := by
  rcases submitPlanned_cases hrun with
    ⟨hquiet, hkeeps⟩ | ⟨before, mgr, nonce, s, p', -, -, rfl, ⟨e, -, rfl⟩ | hp'⟩
  · refine .inl ⟨?_, hkeeps _ _⟩
    rintro ⟨n, fees, gas, hmem⟩
    exact hquiet _ hmem
  · exact .inr (rests_afterSubmitError hclock svc s.mgr s.nonce e)
  · have hrests : Rests w c svc p'.svc := rests_afterSubmit hclock hflag hp'
    exact .inr hrests

/-- A call whose flag is unset keeps routes out, and puts its own out when it sends. -/
lemma rests_processCandidate (hflag : seesShutdown w = false) (hrun : svc.processCandidate w c = some p) :
    KeepsOut w.clock.now w.clock.settle svc p.svc ∧
      (p.Sends → p.svc.OutUntil c.routeEdges (w.clock.now + routeCooldown) w.clock.settle) := by
  rcases processCandidate_cases hclock hrun with
    ⟨hevents, -, hkeeps⟩ | ⟨head, plan, ready, pendingAhead, hcleared, hsubmit⟩
  · refine ⟨hkeeps, ?_⟩
    rintro ⟨n, fees, gas, hmem⟩
    simp [hevents] at hmem
  · have hready := hcleared.notes.keepsOut
    rcases rests_submitPlanned hclock hflag hsubmit with ⟨hnot, hkeeps⟩ | hrests
    · exact ⟨hready.trans hkeeps, fun hsends => absurd hsends hnot⟩
    · exact ⟨hready.trans hrests.keeps, fun _ => hrests.out⟩

end Rest

/-! ## Runs -/

/-- What happens to the service: a call, something noted elsewhere up to an instant, or the resync at
shutdown. -/
inductive ServiceStep (Log : Type)
  | candidate (w : CandidateWorld Log) (c : CandidateExecution)
  | elsewhere (svc : ExecutionService) (now : Instant)
  | resync (pending : Except String Nonce)

/-- The service, all that was done with nonces, whether the shutdown flag has been seen, and for every route
when the last call that has sent for it started. -/
structure ServiceRun where
  svc : ExecutionService
  history : List TxEvent
  stopping : Bool
  clock : Instant
  sentAt : List Edge → Option Instant

namespace ServiceRun

def sends (p : Processed) : Bool :=
  p.events.any fun
    | .sent _ _ _ => true
    | _ => false

def step (s : ServiceRun) : ServiceStep Log → Option ServiceRun
  | .candidate w c =>
      (s.svc.processCandidate w c).map fun p =>
        { svc := p.svc
          history := s.history ++ p.events
          stopping := s.stopping || seesShutdown w
          clock := w.clock.settle
          sentAt := if sends p then Function.update s.sentAt c.routeEdges (some w.clock.now) else s.sentAt }
  | .elsewhere svc now => some { s with svc, clock := now }
  | .resync pending =>
      let (svc, events) := s.svc.shutdownResync pending
      some { s with svc, history := s.history ++ events }

/-- Calls follow each other in time and never see the flag taken back; the highest nonce is left.  Elsewhere
nothing but bookkeeping is done. -/
def Allowed (s : ServiceRun) : ServiceStep Log → Prop
  | .candidate w _ =>
      w.clock.Ordered ∧ s.clock ≤ w.clock.now ∧ (s.stopping = true → w.shutdownAtStart = true) ∧
        s.svc.NonceRoom
  | .elsewhere svc now => s.clock ≤ now ∧ Notes s.clock now s.svc svc
  | .resync _ => True

/-- Nothing has been sent. -/
def Initial (s : ServiceRun) : Prop :=
  s.svc.nonce = none ∧ s.history = [] ∧ s.stopping = false ∧ s.sentAt = fun _ => none

lemma sends_iff : sends p = true ↔ p.Sends := by
  rw [sends, List.any_eq_true, Processed.Sends]
  constructor
  · rintro ⟨e, hmem, he⟩
    cases e with
    | sent n fees gas => exact ⟨n, fees, gas, hmem⟩
    | _ => simp at he
  · rintro ⟨n, fees, gas, hmem⟩
    exact ⟨_, hmem, rfl⟩

/-- The nonces are settled and routes that were sent for are out. -/
structure Kept (s : ServiceRun) : Prop where
  disciplined : Disciplined ∅ s.history
  idle : s.svc.NoncesIdle
  settled : s.stopping = false → s.svc.NoncesSettled (outstanding ∅ s.history)
  rested : s.stopping = false → ∀ edges t, s.sentAt edges = some t →
    t ≤ s.clock ∧ s.svc.OutUntil edges (t + routeCooldown) s.clock

variable {s s' : ServiceRun}

lemma kept_initial (h : s.Initial) : s.Kept := by
  obtain ⟨hnonce, hhistory, -, hsent⟩ := h
  have hsettled : s.svc.NoncesSettled (outstanding ∅ s.history) := by
    rw [ExecutionService.NoncesSettled, hnonce, hhistory]
    rfl
  refine ⟨by rw [hhistory]; trivial, hsettled.idle, fun _ => hsettled, ?_⟩
  intro _ edges t ht
  simp [hsent] at ht

/-- A call that sees the flag at its start does nothing. -/
lemma processCandidate_stopping (hstop : w.shutdownAtStart = true) (hrun : svc.processCandidate w c = some p) :
    p = svc.ended .skippedShutdown := by
  have hverdict : svc.admitCandidate w c = .error .skippedShutdown := by simp [ExecutionService.admitCandidate, hstop]
  rw [ExecutionService.processCandidate, hverdict, Option.some.injEq] at hrun
  exact hrun.symm

lemma sweepSeesShutdown_eq_false (h : seesShutdown w = false) : sweepSeesShutdown w = false := by
  simp only [seesShutdown, Bool.or_eq_false_iff] at h
  exact h.1.2

lemma kept_candidate (h : s.Kept) (hok : s.Allowed (.candidate w c))
    (hstep : s.step (.candidate w c) = some s') : s'.Kept := by
  obtain ⟨hclock, hle, hflag, hroom⟩ := hok
  obtain ⟨p, hp, rfl⟩ := Option.map_eq_some_iff.mp hstep
  cases hstopping : s.stopping with
  | true =>
      have hended := processCandidate_stopping (hflag hstopping) hp
      subst hended
      refine ⟨?_, h.idle, by simp, by simp⟩
      simpa [ExecutionService.ended] using h.disciplined
  | false =>
      have hsound := processCandidate_sound hclock (h.settled hstopping) hroom hp
      refine ⟨?_, hsound.idle, ?_, ?_⟩
      · rw [disciplined_append]
        exact ⟨h.disciplined, hsound.disciplined⟩
      · intro hstop
        rw [outstanding_append]
        exact hsound.settled (sweepSeesShutdown_eq_false (by simpa using hstop))
      · intro hstop edges t ht
        obtain ⟨hkeeps, hown⟩ := rests_processCandidate hclock (by simpa using hstop) hp
        have hold : s.sentAt edges = some t →
            t ≤ w.clock.settle ∧ p.svc.OutUntil edges (t + routeCooldown) w.clock.settle := by
          intro hsent
          obtain ⟨htle, hout⟩ := h.rested hstopping edges t hsent
          have htnow := htle.trans hle
          refine ⟨htnow.trans hclock.le_settle, hkeeps edges _ (Nat.add_le_add_right htnow _) ?_⟩
          exact hout.later (hle.trans hclock.le_settle)
        simp only at ht ⊢
        split_ifs at ht with hsends
        · by_cases hedges : edges = c.routeEdges
          · subst hedges
            simp only [Function.update_self, Option.some.injEq] at ht
            subst ht
            exact ⟨hclock.le_settle, hown (sends_iff.mp hsends)⟩
          · rw [Function.update_of_ne hedges] at ht
            exact hold ht
        · exact hold ht

/-- The resync at shutdown changes nothing but the manager; when it does, no transaction counts as out. -/
lemma shutdownResync_cases (svc : ExecutionService) (pending : Except String Nonce) :
    svc.shutdownResync pending = (svc, []) ∨
      ∃ mgr, (mgr.Settled ∅) ∧ svc.shutdownResync pending = (svc.withNonce mgr, [.resynced]) := by
  rw [ExecutionService.shutdownResync]
  cases hnonce : svc.nonce with
  | none => exact .inl rfl
  | some mgr =>
      simp only
      split_ifs
      · cases pending with
        | error text =>
            left
            simp only [NonceManager.resync, ExecutionService.withNonce, ← hnonce]
        | ok pending => exact .inr ⟨_, NonceManager.settled_adoptPending pending, rfl⟩
      · exact .inl rfl

lemma kept_resync (h : s.Kept) (pending : Except String Nonce)
    (hstep : @step Log s (.resync pending) = some s') : s'.Kept := by
  simp only [step, Option.some.injEq] at hstep
  subst hstep
  rcases shutdownResync_cases s.svc pending with heq | ⟨mgr, hmgr, heq⟩
  · rw [heq]
    simpa using h
  · have hsettled : (s.svc.withNonce mgr).NoncesSettled ∅ := hmgr
    rw [heq]
    refine ⟨?_, hsettled.idle, ?_, h.rested⟩
    · rw [disciplined_append]
      exact ⟨h.disciplined, proper_resynced, trivial⟩
    · intro _
      rw [outstanding_append]
      exact hsettled

lemma kept_step {a : ServiceStep Log} (h : s.Kept) (hok : s.Allowed a) (hstep : s.step a = some s') :
    s'.Kept := by
  cases a with
  | candidate w c => exact kept_candidate h hok hstep
  | elsewhere svc now =>
      obtain ⟨hle, hnotes⟩ := hok
      simp only [step, Option.some.injEq] at hstep
      subst hstep
      refine ⟨h.disciplined, ?_, ?_, ?_⟩
      · rw [ExecutionService.NoncesIdle, hnotes.nonce]
        exact h.idle
      · rw [ExecutionService.NoncesSettled, hnotes.nonce]
        exact h.settled
      · intro hstop edges t ht
        obtain ⟨htle, hout⟩ := h.rested hstop edges t ht
        exact ⟨htle.trans hle, hnotes.outUntil (hout.later hle) (Nat.add_le_add_right htle _)⟩
  | resync pending => exact kept_resync h pending hstep

lemma kept_of_reachable (hrun : Reachable (@step Log) Allowed Initial s) : s.Kept :=
  hrun.inv Kept (fun _ => kept_initial) fun _ _ _ => kept_step

def oneRoute : CandidateExecution where
  routeEdges := []
  targetAddress := 1
  value := 0
  profitToken := 2
  expectedProfitMaticWei := 1000000000000000000#256
  priorityBidBasisMaticWei := 0
  simulatedGas := 200000#32
  routeHash := 0
  grossProfit := 1000000000000000000#256
  amountIn := 1000000000000000000#256
  tokenDecimals := 18#8
  tokenToMaticRate := 1000000000000000000#256
  slippageBps := 0
  flashLoanSource := .direct
  minProfitMaticWei := 1000000000000000#256
  minProfitRoiBps := 0
  safetyMultiplierBps := 10000#64
  stateGeneration := 0
  stateBlock := 0
  stateHash := none
  adaptiveFlashCapBound := false
  adaptiveFlashLoanUsdLimit := 0

def feeSnapshot : FeeSnapshot := ⟨100000000000#256, 30000000000#256, by decide, by decide⟩

/-- The relay takes every transaction. -/
def taken : SubmitAnswers := ⟨fun _ => .ok (), fun _ => .ok 0, fun _ => (⟨.fail, false⟩, "")⟩

def lateReceipt (now : Instant) (pending : Nonce) : CandidateWorld Unit where
  config := ⟨false, 5, 0, 5000#64, none⟩
  flashFees := ⟨0, 0⟩
  reader := ⟨fun _ => 2, fun _ => none⟩
  parseAddress := fun _ => none
  isPolygonHubToken := fun _ => false
  operator := 7
  expectedStateBlock := 0
  expectedStateHash := none
  cacheGeneration := 0
  clock := ⟨now, now, now, now, now⟩
  today := 0
  shutdownAtStart := false
  shutdownBeforeSubmit := false
  shutdownAfterWait := false
  chainHeadHint := some 100
  blockNumber := .ok 100
  dryRun := fun _ => ⟨true, true, some 180000, some 500000000000000000#256, none, none⟩
  submitSnapshot := some feeSnapshot
  reassessSnapshot := some feeSnapshot
  feesReady := true
  snapshotAge := ""
  hasSigner := true
  submitProvider := true
  operatorNonces := .ok (5, pending)
  balance := .ok 100000000000000000000#256
  headBeforeSubmit := .ok 101
  initialPending := .ok 5
  resyncPending := .error "timed out"
  privateConfig := .ok ()
  submit := taken
  receipt := .timedOut
  recovery := ⟨none, .ok true, .ok 5, .error "timed out"⟩
  settleGasPrice := none
  sweepSnapshot := none
  sweepSubmit := taken
  sweepReceipt := .timedOut

def idleRun : ServiceRun := ⟨ExecutionService.fresh 100#256, [], false, 0, fun _ => none⟩

/-- What is bid: the tip is at its cap. -/
def cappedBid : SubmitFees := ⟨300000000000#256, 200000000000#256⟩

/-- A call whose receipt does not come: the transaction is taken, and its cancellation is not. -/
def lateEvents (n : Nonce) : List TxEvent :=
  [.reserved n, .sent n cappedBid 250001, .accepted n, .cancelSent n ⟨345000000000#256, 230000000000#256⟩ 21000]

lemma ordered_lateReceipt (now : Instant) (pending : Nonce) : (lateReceipt now pending).clock.Ordered :=
  ⟨le_rfl, le_rfl, le_rfl, le_rfl⟩

/-- The first nonce is stale when the second call begins. -/
lemma firstCall : ∃ s, idleRun.step (.candidate (lateReceipt 0 5) oneRoute) = some s ∧
    Reachable (@step Unit) Allowed Initial s ∧ s.Allowed (.candidate (lateReceipt (fromSecs 40) 6) oneRoute) ∧
    s.history = lateEvents 5 ∧ s.sentAt [] = some 0 := by
  have hrun : (idleRun.step (.candidate (lateReceipt 0 5) oneRoute)).map
      (fun s => (s.history, s.sentAt [], s.stopping, s.clock, s.svc.nonce)) =
      some (lateEvents 5, some 0, false, 0,
        some ⟨true, ⟨5, ∅, none, {5}⟩⟩) := by decide +kernel
  obtain ⟨s, hs, hfacts⟩ := Option.map_eq_some_iff.mp hrun
  simp only [Prod.mk.injEq] at hfacts
  obtain ⟨hhistory, hsent, hstop, hclock, hnonce⟩ := hfacts
  have hstart : Reachable (@step Unit) Allowed Initial idleRun := .init ⟨rfl, rfl, rfl, rfl⟩
  have hfirst : idleRun.Allowed (.candidate (lateReceipt 0 5) oneRoute) :=
    ⟨ordered_lateReceipt 0 5, le_rfl, by simp [idleRun], by simp [ExecutionService.NonceRoom, idleRun,
      ExecutionService.fresh]⟩
  refine ⟨s, hs, hstart.step hfirst hs, ⟨ordered_lateReceipt _ 6, ?_, ?_, ?_⟩, hhistory, hsent⟩
  · rw [hclock]
    exact Nat.zero_le _
  · simp [hstop]
  · intro mgr hmgr
    rw [hnonce, Option.some.injEq] at hmgr
    rw [← hmgr]
    decide

/-- The second call takes the next nonce, though the resync before it fails. -/
lemma secondCall : ∃ s p, Reachable (@step Unit) Allowed Initial s ∧
    s.Allowed (.candidate (lateReceipt (fromSecs 40) 6) oneRoute) ∧
    s.history = lateEvents 5 ∧ s.sentAt [] = some 0 ∧
    s.svc.processCandidate (lateReceipt (fromSecs 40) 6) oneRoute = some p ∧
    p.events = lateEvents 6 := by
  obtain ⟨s, hs, hreach, hok, hhistory, hsent⟩ := firstCall
  have hrun : (play step idleRun [.candidate (lateReceipt 0 5) oneRoute,
      .candidate (lateReceipt (fromSecs 40) 6) oneRoute]).map ServiceRun.history =
      some (lateEvents 5 ++ lateEvents 6) := by decide +kernel
  rw [play_cons hs, Option.map_eq_some_iff] at hrun
  obtain ⟨s', hs', hboth⟩ := hrun
  rw [play, Option.bind_eq_some_iff] at hs'
  obtain ⟨s'', hstep, hs''⟩ := hs'
  rw [play, Option.some.injEq] at hs''
  subst hs''
  obtain ⟨p, hp, rfl⟩ := Option.map_eq_some_iff.mp hstep
  refine ⟨s, p, hreach, hok, hhistory, hsent, hp, ?_⟩
  simpa [hhistory] using hboth

/-- In every run a call that sends starts at least `routeCooldown` after the last call before it that has sent
for the same route. -/
theorem submissions_spaced (hrun : Reachable (@step Log) Allowed Initial s) (hok : s.Allowed (.candidate w c))
    (hcall : s.svc.processCandidate w c = some p) (hsends : p.Sends) {t : Instant}
    (ht : s.sentAt c.routeEdges = some t) : t + routeCooldown ≤ w.clock.now := by
  have hkept := kept_of_reachable hrun
  obtain ⟨hclock, hle, hflag, -⟩ := hok
  have hrunning : s.stopping = false := by
    by_contra hstop
    have hended := processCandidate_stopping (hflag (by simpa using hstop)) hcall
    rw [hended] at hsends
    obtain ⟨n, fees, gas, hmem⟩ := hsends
    simp [ExecutionService.ended] at hmem
  obtain ⟨-, hout⟩ := hkept.rested hrunning c.routeEdges t ht
  rcases processCandidate_cases hclock hcall with ⟨hevents, -⟩ | ⟨_, _, _, _, hcleared, -⟩
  · obtain ⟨n, fees, gas, hmem⟩ := hsends
    simp [hevents] at hmem
  · exact hcleared.admitted.out_over (hout.later hle)

theorem submissions_spaced_lateReceipt : ∃ (s : ServiceRun) (p : Processed), s.sentAt [] = some 0 ∧
    s.svc.processCandidate (lateReceipt (fromSecs 40) 6) oneRoute = some p ∧ p.Sends ∧
    0 + routeCooldown ≤ fromSecs 40 := by
  obtain ⟨s, p, hreach, hok, -, hsent, hp, hevents⟩ := secondCall
  have hsends : p.Sends := ⟨6, cappedBid, 250001, by simp [hevents, lateEvents]⟩
  exact ⟨s, p, hsent, hp, hsends, submissions_spaced hreach hok hp hsends hsent⟩

end ServiceRun

end PolygonArb

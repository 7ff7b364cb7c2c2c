import PolygonArb.Services.ServiceRuns

/-!
# What has to hold before a transaction is sent

`process_candidate` takes a nonce only after its gates.  `Cleared` lists them as the code computes them; here
they are read over the naturals.  The dry run has realized a profit, and what it is worth covers the learned
floor and the gas at the price the bid is expected to pay, with the safety margin on top (`Covered`); the
operator can pay the whole limit at the ceiling (`Funded`).

`sends_only_when_covered` states this for every call that sends, and lists what such a call can send: the
arbitrage at most three times, with fees bumped after fee errors, and the sweep of its profit at most three
times.
-/

namespace PolygonArb

open Word

variable {Log : Type} {w : CandidateWorld Log} {svc : ExecutionService} {c : CandidateExecution}

namespace ExecutionService

/-- The profit in MATIC wei is worth the gas, the floor and the safety margin, and is not absurd. -/
structure Covered (svc : ExecutionService) (c : CandidateExecution) (realized : U256) (gas price : ℕ) :
    Prop where
  floor : max (svc.learnedFloor c).toNat 1 + gas * price ≤
    realized.toNat * c.tokenToMaticRate.toNat / 10 ^ c.tokenDecimals.toNat
  safety : gas * price * c.safetyMultiplierBps.toNat / 10000 + gas * price ≤
    realized.toNat * c.tokenToMaticRate.toNat / 10 ^ c.tokenDecimals.toNat
  sane : realized.toNat * c.tokenToMaticRate.toNat / 10 ^ c.tokenDecimals.toNat ≤ 10 ^ 18 + gas * price

/-- The balance pays the limit at the ceiling, the value, and leaves the reserve. -/
def Funded (w : CandidateWorld Log) (c : CandidateExecution) (plan : SubmitPlan) : Prop :=
  ∃ balance : U256, w.balance = .ok balance ∧
    plan.gasLimit * plan.fees.maxFeePerGas.toNat + c.value.toNat + w.config.minOperatorMaticWei.toNat ≤
      balance.toNat

/-! ## The reassessment -/

/-- Gas of the reassessment is a `u32`. -/
lemma exactGasCost_reassess (profitGas : ℕ) (price floor realized : U256) :
    exactGasCost (reassessInput c profitGas price floor realized) = min profitGas (2 ^ 32 - 1) * price.toNat := by
  simp only [exactGasCost, reassessInput, BitVec.toNat_ofNat]
  rw [Nat.mod_eq_of_lt (by omega)]

/-- No slippage, no flash fee: the profit is worth what it converts to. -/
lemma reassess_worth (fees : FlashFees) (profitGas : ℕ) (price floor realized : U256) :
    let input := reassessInput c profitGas price floor realized
    (exactAdjustedOut input - input.amountIn.toNat) * input.tokenToMaticRate.toNat
        / 10 ^ input.tokenDecimals.toNat
      - (exactFlashFee fees input.flashLoanSource input.amountIn.toNat
          * input.tokenToMaticRate.toNat) ⌈/⌉ 10 ^ input.tokenDecimals.toNat
      - exactGasCost input =
    realized.toNat * c.tokenToMaticRate.toNat / 10 ^ c.tokenDecimals.toNat
      - min profitGas (2 ^ 32 - 1) * price.toNat := by
  intro input
  have hout : exactAdjustedOut input = realized.toNat + c.amountIn.toNat := by
    simp [input, exactAdjustedOut, reassessInput]
  have hfee : exactFlashFee fees input.flashLoanSource input.amountIn.toNat = 0 := rfl
  have hamount : input.amountIn = c.amountIn := rfl
  have hrate : input.tokenToMaticRate = c.tokenToMaticRate := rfl
  have hdecimals : input.tokenDecimals = c.tokenDecimals := rfl
  rw [hout, hfee, hamount, hrate, hdecimals, exactGasCost_reassess, Nat.zero_mul, zero_ceilDiv, Nat.sub_zero,
    Nat.add_sub_cancel]

/-- Nothing is taken off a realized profit but the gas. -/
lemma covered_of_reassess {profitGas : ℕ} {price : U256} {dry : DryRunResult}
    (hsafety : c.safetyMultiplierBps ≠ 0) (hdecimals : c.tokenDecimals.toNat ≤ 30)
    (h : reassess w c profitGas price (svc.learnedFloor c) dry = true) :
    ∃ realized, realizedProfit dry = some realized ∧
      Covered svc c realized (min profitGas (2 ^ 32 - 1)) price.toNat := by
  rw [reassess] at h
  cases hrealized : realizedProfit dry with
  | none => simp [hrealized] at h
  | some realized =>
      refine ⟨realized, rfl, ?_⟩
      simp only [hrealized] at h
      set input := reassessInput c profitGas price (svc.learnedFloor c) realized with hinput
      rw [assessProfit] at h
      split at h
      · contradiction
      · next f hf =>
        obtain ⟨hrate, -, hpos, hmin, hsafe, hsane⟩ := shouldExecute_of_safety hsafety h
        have hspec := profitFigures_ok hrate hdecimals (.inr (by simp [hinput, reassessInput])) hf
        have hcost : exactGasCost input = min profitGas (2 ^ 32 - 1) * price.toNat :=
          exactGasCost_reassess profitGas price (svc.learnedFloor c) realized
        have hworth := hspec.preTip
        rw [hinput, reassess_worth] at hworth
        have huplift : f.priorityUplift.toNat = 0 := by
          rw [hspec.uplift]
          simp [hinput, reassessInput, exactUplift]
        have hnet := hspec.afterPriority
        rw [huplift, Nat.sub_zero] at hnet
        have hfloor : f.requiredNetMatic.toNat =
            min profitGas (2 ^ 32 - 1) * price.toNat * c.safetyMultiplierBps.toNat / 10000 := by
          have hsmall : (safetyFloorMaticWei f.gasCostWei input.safetyMultiplierBps).toNat <
              (2 ^ 256 - 1) / 10000 := by
            rw [← hspec.required]
            omega
          rw [hspec.required, safetyFloorMaticWei_toNat hsmall, hspec.gasCost, hcost]
          rfl
        have hminimum : (svc.learnedFloor c).toNat ≤ f.netAfterPriority.toNat := hmin
        rw [hfloor] at hsafe
        refine ⟨?_, ?_, ?_⟩
        all_goals
          generalize min profitGas (2 ^ 32 - 1) * price.toNat = cost at hworth hsafe ⊢
          generalize realized.toNat * c.tokenToMaticRate.toNat / 10 ^ c.tokenDecimals.toNat = worth at hworth ⊢
          omega

/-! ## The plan -/

/-- What a plan is made of. -/
structure Planned (w : CandidateWorld Log) (svc : ExecutionService) (c : CandidateExecution)
    (dry : DryRunResult) (plan : SubmitPlan) (snap feeSnap : FeeSnapshot) : Prop where
  gasUsed : plan.gasUsed = submitGasBasis (svc.observedRouteGas c) svc.simScaleBps c.simulatedGas.toNat dry.gasUsed
  gasLimit : liveGasLimit c dry plan.gasUsed = .ok plan.gasLimit
  submitSnapshot : w.submitSnapshot = some snap
  bids : plan.fees.Bids snap
  reassessSnapshot : w.reassessSnapshot = some feeSnap
  reassessed : ∃ scale, reassess w c (profitReassessGas (svc.observedRouteGas c) c.simulatedGas.toNat dry.gasUsed
    dry.gasUsed.isNone scale) (expectedSubmitGasPrice feeSnap.baseFee plan.fees) (svc.learnedFloor c) dry = true

/-- Planning teaches the service gas, and keeps what the live gates read. -/
lemma planSubmit_ok {dry : DryRunResult} {plan : SubmitPlan} {planned : ExecutionService}
    (h : svc.planSubmit w c dry = (planned, .ok plan)) :
    (∃ snap feeSnap, Planned w svc c dry plan snap feeSnap) ∧ planned.consecutiveFails = svc.consecutiveFails ∧
      planned.lastGlobalSubmit = svc.lastGlobalSubmit ∧ planned.mempoolNonceCache = svc.mempoolNonceCache := by
  simp only [planSubmit] at h
  split_ifs at h
  · simp at h
  split at h
  · simp at h
  · next hlimit =>
    split at h
    · simp at h
    · next snap hsnap =>
      split at h
      · simp at h
      · next feeSnap hfee =>
        split_ifs at h with hreassess
        · rw [Prod.mk.injEq, Except.ok.injEq] at h
          obtain ⟨rfl, rfl⟩ := h
          refine ⟨⟨snap, feeSnap, rfl, hlimit, hsnap, resolveSubmitFeesWithProfit_bids snap _ _ _, hfee, _,
            hreassess⟩, ?_⟩
          simp only [teachDryRun]
          split_ifs <;> exact ⟨rfl, rfl, rfl⟩
        · simp at h

lemma liveGasLimit_ok {dry : DryRunResult} {gasUsed limit : ℕ} (h : liveGasLimit c dry gasUsed = .ok limit) :
    c.simulatedGas.toNat < limit ∧ (gasUsed < 2 ^ 32 → gasUsed < limit) ∧ limit < 2 ^ 34 := by
  rw [liveGasLimit] at h
  split_ifs at h
  · exact gasLimit_covers c.simulatedGas.isLt (by decide) h
  · exact gasLimit_covers c.simulatedGas.isLt (by decide) h

/-! ## The live gates -/

lemma requiredOperatorBalance_toNat {plan : SubmitPlan} {required : U256} (hlimit : plan.gasLimit < 2 ^ 34)
    (h : requiredOperatorBalance w c plan = some required) :
    required.toNat =
      plan.gasLimit * plan.fees.maxFeePerGas.toNat + c.value.toNat + w.config.minOperatorMaticWei.toNat := by
  obtain ⟨budget, hbudget, h⟩ := Option.bind_eq_some_iff.mp h
  obtain ⟨withValue, hvalue, h⟩ := Option.bind_eq_some_iff.mp h
  have hgas : (BitVec.ofNat 256 plan.gasLimit).toNat = plan.gasLimit := by
    rw [BitVec.toNat_ofNat]
    exact Nat.mod_eq_of_lt (by omega)
  rw [checkedAdd_eq_some.mp h, checkedAdd_eq_some.mp hvalue, checkedMul_eq_some.mp hbudget, hgas]

/-- The operator has nothing pending, or has waited for it long enough. -/
def MempoolClear (w : CandidateWorld Log) (lastGlobalSubmit : Option Instant) (latest pending : Nonce) : Prop :=
  pending = latest ∨ ∀ t, lastGlobalSubmit = some t → mempoolStallTimeout + t < w.clock.live

lemma mempoolClear_of_allow {last : Option Instant} {latest pending : Nonce}
    (h : (decideMempoolGate latest pending last w.clock.live).allowSubmit = true) :
    MempoolClear w last latest pending := by
  rw [decideMempoolGate] at h
  split_ifs at h with hsame hrecent
  · exact .inl hsame
  · right
    rintro t rfl
    simpa using hrecent

/-- What the live gates have looked at. -/
structure LiveReady (svc : ExecutionService) (w : CandidateWorld Log) (c : CandidateExecution)
    (plan : SubmitPlan) (head : ℕ) : Prop where
  feesReady : w.feesReady = true
  signer : w.hasSigner = true
  relay : w.submitProvider = true
  mempool : ∃ latest pending, (svc.operatorNonces w).2 = .ok (latest, pending) ∧
    MempoolClear w svc.lastGlobalSubmit latest pending
  running : w.shutdownBeforeSubmit = false
  fails : svc.consecutiveFails < w.config.maxGlobalConsecutiveFailures
  funded : Funded w c plan
  headNow : ∃ now, w.headBeforeSubmit = .ok now ∧ now ≤ head + 1

/-- Of the service the gates read the failures, the last submission and the cached nonces. -/
lemma LiveReady.congr {svc' : ExecutionService} {plan : SubmitPlan} {head : ℕ} (h : svc'.LiveReady w c plan head)
    (hfails : svc'.consecutiveFails = svc.consecutiveFails) (hlast : svc'.lastGlobalSubmit = svc.lastGlobalSubmit)
    (hcache : svc'.mempoolNonceCache = svc.mempoolNonceCache) : svc.LiveReady w c plan head := by
  have hnonces : (svc'.operatorNonces w).2 = (svc.operatorNonces w).2 := by
    rw [operatorNonces, operatorNonces, hcache]
    split
    · rfl
    · split <;> rfl
  obtain ⟨latest, pending, hanswer, hclear⟩ := h.mempool
  refine ⟨h.feesReady, h.signer, h.relay, ⟨latest, pending, ?_, ?_⟩, h.running, ?_, h.funded, h.headNow⟩
  · rw [← hnonces]
    exact hanswer
  · rw [← hlast]
    exact hclear
  · rw [← hfails]
    exact h.fails

lemma balanceAndHead_ok {plan : SubmitPlan} {head : ℕ} (hlimit : plan.gasLimit < 2 ^ 34)
    (h : balanceAndHead w c plan head = .ok ()) :
    Funded w c plan ∧ ∃ now, w.headBeforeSubmit = .ok now ∧ now ≤ head + 1 := by
  rw [balanceAndHead] at h
  split at h
  · contradiction
  · next required hrequired =>
    split at h
    · contradiction
    · next balance hbalance =>
      split_ifs at h with hshort
      split at h
      · contradiction
      · next now hnow =>
        split_ifs at h with hle
        refine ⟨⟨balance, hbalance, ?_⟩, now, hnow, by omega⟩
        rw [← requiredOperatorBalance_toNat hlimit hrequired]
        exact le_iff.mp (BitVec.not_lt.mp hshort)

lemma liveGates_ok {plan : SubmitPlan} {head : ℕ} {ready : ExecutionService} {pendingAhead : Bool}
    (hlimit : plan.gasLimit < 2 ^ 34) (h : svc.liveGates w c plan head = (ready, .ok pendingAhead)) :
    svc.LiveReady w c plan head := by
  have hnonces : (svc.operatorNonces w).1.lastGlobalSubmit = svc.lastGlobalSubmit ∧
      (svc.operatorNonces w).1.consecutiveFails = svc.consecutiveFails := by
    rw [operatorNonces]
    split
    · exact ⟨rfl, rfl⟩
    · split <;> exact ⟨rfl, rfl⟩
  rw [liveGates] at h
  split at h
  · simp at h
  · next hready =>
    rw [liveReady] at hready
    split_ifs at hready with hfees hsigner hrelay
    rw [operatorMempoolClear] at h
    cases hquery : svc.operatorNonces w with
    | mk queried answer =>
      rw [hquery] at hnonces
      cases answer with
      | error text => simp [hquery, Except.map] at h
      | ok nonces =>
        obtain ⟨latest, pending⟩ := nonces
        simp only [hquery, Except.map] at h
        split_ifs at h with hclear hshutdown hfails
        · simp at h
        · simp at h
        · simp at h
        split at h
        · simp at h
        · next hbalance =>
          obtain ⟨hfunded, hhead⟩ := balanceAndHead_ok hlimit hbalance
          refine ⟨by simpa using hfees, by simpa using hsigner, by simpa using hrelay,
            ⟨latest, pending, by rw [hquery], ?_⟩, by simpa using hshutdown, ?_, hfunded, hhead⟩
          · exact mempoolClear_of_allow (by rw [← hnonces.1]; simpa using hclear)
          · rw [← hnonces.2]
            exact not_le.mp hfails

end ExecutionService

/-! ## What is sent -/

/-- The fees and the gas limit of the transactions of a run, cancellations among them. -/
def sentOf (events : List TxEvent) : List (SubmitFees × ℕ) :=
  events.filterMap fun
    | .sent _ fees gasLimit => some (fees, gasLimit)
    | .cancelSent _ fees gasLimit => some (fees, gasLimit)
    | _ => none

/-- The next attempt has the same gas limit, and the same fees or bumped ones. -/
def Resends (sent next : SubmitFees × ℕ) : Prop :=
  next.2 = sent.2 ∧ (next.1 = sent.1 ∨ next.1 = bumpFees sent.1 feeBumpBps)

/-- Attempts at one transaction, from the first. -/
structure Attempts (first : SubmitFees × ℕ) (most : ℕ) (sent : List (SubmitFees × ℕ)) : Prop where
  length_le : sent.length ≤ most
  head : ∀ x ∈ sent.head?, x = first
  chain : List.IsChain Resends sent

section Sent

variable {answers : SubmitAnswers} {gasLimit left : ℕ} {mgr mgr' : NonceManager} {n : Nonce}
  {fees : SubmitFees} {s : Submission} {p : Processed} {events : List TxEvent}

@[simp] lemma sentOf_append (xs ys : List TxEvent) : sentOf (xs ++ ys) = sentOf xs ++ sentOf ys :=
  List.filterMap_append

@[simp] lemma sentOf_nil : sentOf [] = [] := rfl

@[simp] lemma sentOf_sent (n : Nonce) (fees : SubmitFees) (gasLimit : ℕ) (events : List TxEvent) :
    sentOf (.sent n fees gasLimit :: events) = (fees, gasLimit) :: sentOf events := rfl

@[simp] lemma sentOf_cancelSent (n : Nonce) (fees : SubmitFees) (gasLimit : ℕ) (events : List TxEvent) :
    sentOf (.cancelSent n fees gasLimit :: events) = (fees, gasLimit) :: sentOf events := rfl

@[simp] lemma sentOf_reserved (n : Nonce) (events : List TxEvent) :
    sentOf (.reserved n :: events) = sentOf events := rfl

@[simp] lemma sentOf_accepted (n : Nonce) (events : List TxEvent) :
    sentOf (.accepted n :: events) = sentOf events := rfl

@[simp] lemma sentOf_confirmed (n : Nonce) (events : List TxEvent) :
    sentOf (.confirmed n :: events) = sentOf events := rfl

@[simp] lemma sentOf_resynced (events : List TxEvent) : sentOf (.resynced :: events) = sentOf events := rfl

lemma Attempts.single (first : SubmitFees × ℕ) {most : ℕ} (h : 1 ≤ most) : Attempts first most [first] :=
  ⟨h, by simp, List.isChain_singleton first⟩

/-- One more attempt before. -/
lemma Attempts.cons {first next : SubmitFees × ℕ} {most : ℕ} {sent : List (SubmitFees × ℕ)}
    (h : Attempts next most sent) (hnext : Resends first next) : Attempts first (most + 1) (first :: sent) := by
  refine ⟨Nat.succ_le_succ h.length_le, by simp, List.isChain_cons.mpr ⟨?_, h.chain⟩⟩
  intro y hy
  rw [h.head y hy]
  exact hnext

lemma submitAttempts_sent (h : submitAttempts answers gasLimit left mgr n fees = some s) :
    Attempts (fees, gasLimit) (left + 1) (sentOf s.events) := by
  refine submitAttempts_rule (P := fun left _ _ fees s => Attempts (fees, gasLimit) (left + 1) (sentOf s.events))
    ?_ ?_ ?_ ?_ ?_ h
  · exact fun _ => ⟨Nat.zero_le _, by simp, List.isChain_nil⟩
  · exact .single _ (Nat.le_add_left 1 _)
  · exact fun _ => .single _ (Nat.le_add_left 1 _)
  · intro attempts left mgr n fees e result hretry
    rcases retryAfter_cases hretry with ⟨_, rest, heq, hevents, hrest⟩ | ⟨_, _, _, _, heq, -⟩
    · rw [Retry.stop.inj heq, hevents]
      rcases hrest with (rfl | rfl) | ⟨rfl, -⟩ <;> exact .single _ (Nat.le_add_left 1 _)
    · cases heq
  · intro attempts left mgr n fees e mgr' n' fees' events s hretry ih
    rcases retryAfter_cases hretry with ⟨_, _, heq, -⟩ | ⟨_, _, _, rest, heq, hrest⟩
    · cases heq
    · obtain ⟨rfl, rfl, rfl, rfl⟩ := Retry.again.inj heq
      rw [Submission.after, sentOf_append]
      rcases hrest with ⟨rfl, hfees⟩ | ⟨rfl, hfees⟩
      · exact ih.cons ⟨rfl, .inr hfees⟩
      · exact ih.cons ⟨rfl, .inl hfees⟩

/-- The arbitrage was confirmed with a profit, and its sweep is sent. -/
structure Sweeps (w : CandidateWorld Log) (c : CandidateExecution) (outcome : ExecutionOutcome)
    (sent : List (SubmitFees × ℕ)) : Prop where
  confirmed : ∃ gasUsed profit, outcome = .confirmed gasUsed profit ∧ profit ≠ 0
  recipient : ∃ recipient,
    ExecutionService.resolveProfitRecipient w.config.profitRecipient w.operator c.targetAddress = some recipient
  attempts : ∃ snap, w.sweepSnapshot = some snap ∧
    Attempts (resolveSubmitFees snap, ExecutionService.transferAllGasLimit) maxSubmitAttempts sent

lemma sweep_sent (h : ExecutionService.sweepProfitToRecipient w c mgr = some (mgr', events)) :
    sentOf events = [] ∨
      (∃ recipient, ExecutionService.resolveProfitRecipient w.config.profitRecipient w.operator
        c.targetAddress = some recipient) ∧
      ∃ snap, w.sweepSnapshot = some snap ∧
        Attempts (resolveSubmitFees snap, ExecutionService.transferAllGasLimit) maxSubmitAttempts
          (sentOf events) := by
  rw [ExecutionService.sweepProfitToRecipient] at h
  split at h
  · rw [Option.some.injEq, Prod.mk.injEq] at h
    exact .inl (by rw [← h.2]; rfl)
  · rw [Option.some.injEq, Prod.mk.injEq] at h
    exact .inl (by rw [← h.2]; rfl)
  · next recipient snap hrecipient hsnap =>
    obtain ⟨⟨answer, held⟩, -, h⟩ := Option.bind_eq_some_iff.mp h
    cases answer with
    | error text =>
        rw [Option.some.injEq, Prod.mk.injEq] at h
        exact .inl (by rw [← h.2]; rfl)
    | ok nonce =>
        obtain ⟨s, hs, hsettle⟩ := Option.map_eq_some_iff.mp h
        have hsent : sentOf events = sentOf s.events := by
          split at hsettle
          · rw [Prod.mk.injEq] at hsettle
            rw [← hsettle.2, sentOf_reserved]
          · rw [Prod.mk.injEq] at hsettle
            rw [← hsettle.2, sentOf_append, sentOf_reserved]
            simp only [ExecutionService.settleSweep]
            split <;> simp
        refine .inr ⟨⟨recipient, hrecipient⟩, snap, hsnap, ?_⟩
        rw [hsent]
        exact submitAttempts_sent hs

lemma finalize_sent {receipt : ReceiptData Log}
    (h : svc.finalizeReceiptAndMaybeSweep w c mgr n gasLimit receipt = some p) :
    sentOf p.events = [] ∨ Sweeps w c p.outcome (sentOf p.events) := by
  simp only [ExecutionService.finalizeReceiptAndMaybeSweep] at h
  split at h
  · next gasUsed profit hconfirmed =>
    split_ifs at h with hzero
    · rw [Option.some.injEq] at h
      subst h
      exact .inl rfl
    · obtain ⟨⟨mgr', events⟩, hsweep, rfl⟩ := Option.map_eq_some_iff.mp h
      refine (sweep_sent hsweep).imp id ?_
      rintro ⟨hrecipient, hattempts⟩
      exact ⟨⟨gasUsed, profit, hconfirmed, hzero⟩, hrecipient, hattempts⟩
  · rw [Option.some.injEq] at h
    subst h
    exact .inl rfl

/-- The receipt has not come and the node still knows the arbitrage: its cancellation is sent. -/
structure Recalls (w : CandidateWorld Log) (plan : ExecutionService.SubmitPlan) (outcome : ExecutionOutcome)
    (sent : List (SubmitFees × ℕ)) : Prop where
  timedOut : outcome = .receiptTimeout
  pending : w.recovery.receipt = none ∧ w.recovery.lookup = .ok true
  attempt : sent = [(cancelFees plan.fees, min plan.gasLimit 21000)]

/-- What is sent after the arbitrage: nothing, its cancellation, or its sweep. -/
def SentAfter (w : CandidateWorld Log) (c : CandidateExecution) (plan : ExecutionService.SubmitPlan)
    (outcome : ExecutionOutcome) (sent : List (SubmitFees × ℕ)) : Prop :=
  sent = [] ∨ Recalls w plan outcome sent ∨ Sweeps w c outcome sent

lemma recover_sent {answers : RecoveryAnswers Log} {recovered : NonceRecoveryOutcome Log}
    (h : recoverAfterReceiptTimeout answers mgr n fees gasLimit = (recovered, mgr', events)) :
    sentOf events = [] ∨ (answers.receipt = none ∧ answers.lookup = .ok true) ∧
      sentOf events = [(cancelFees fees, min gasLimit 21000)] := by
  have hevents : events = (recoverAfterReceiptTimeout answers mgr n fees gasLimit).2.2 := by rw [h]
  rw [hevents, recoverAfterReceiptTimeout]
  split
  · exact .inl rfl
  · next hreceipt =>
    split
    · exact .inl rfl
    · split <;> exact .inl rfl
    · next hlookup => split <;> exact .inr ⟨⟨hreceipt, hlookup⟩, rfl⟩

lemma afterReceiptTimeout_sent {plan : ExecutionService.SubmitPlan}
    (h : svc.afterReceiptTimeout w c mgr n plan = some p) : SentAfter w c plan p.outcome (sentOf p.events) := by
  simp only [ExecutionService.afterReceiptTimeout] at h
  split at h
  · exact (finalize_sent h).imp_right .inr
  · next heq =>
    rw [Option.some.injEq] at h
    subst h
    exact (recover_sent heq).imp_right fun hcancel => .inl ⟨rfl, hcancel.1, hcancel.2⟩
  · next heq =>
    rw [Option.some.injEq] at h
    subst h
    exact (recover_sent heq).imp_right fun hcancel => .inl ⟨rfl, hcancel.1, hcancel.2⟩

lemma afterSubmit_sent {plan : ExecutionService.SubmitPlan} (h : svc.afterSubmit w c mgr n plan = some p) :
    SentAfter w c plan p.outcome (sentOf p.events) := by
  have hquiet : ∀ {svc' outcome aave}, some (⟨svc', outcome, [], aave⟩ : Processed) = some p →
      SentAfter w c plan p.outcome (sentOf p.events) := by
    intro svc' outcome aave heq
    rw [Option.some.injEq] at heq
    subst heq
    exact .inl rfl
  simp only [ExecutionService.afterSubmit] at h
  split at h
  · exact (finalize_sent h).imp_right .inr
  · exact hquiet h
  · exact hquiet h
  · split_ifs at h
    · exact hquiet h
    · exact afterReceiptTimeout_sent h

lemma sentOf_quiet {events : List TxEvent} (h : ∀ event ∈ events, event.Quiet) : sentOf events = [] := by
  refine List.filterMap_eq_nil_iff.mpr fun event hmem => ?_
  cases event with
  | sent | cancelSent => cases h _ hmem
  | _ => rfl

/-- A call that has passed the gates sends the plan, and then perhaps its cancellation or its sweep. -/
lemma submitPlanned_sent {plan : ExecutionService.SubmitPlan} {pendingAhead : Bool}
    (h : svc.submitPlanned w c plan pendingAhead = some p) :
    ∃ arbitrage later, sentOf p.events = arbitrage ++ later ∧
      Attempts (plan.fees, plan.gasLimit) maxSubmitAttempts arbitrage ∧
      SentAfter w c plan p.outcome later := by
  rcases submitPlanned_cases h with
    ⟨hquiet, -⟩ | ⟨before, mgr, nonce, s, p', hbefore, hs, rfl, ⟨e, -, rfl⟩ | hp'⟩
  · exact ⟨[], [], sentOf_quiet hquiet, ⟨Nat.zero_le _, by simp, List.isChain_nil⟩, .inl rfl⟩
  · refine ⟨sentOf s.events, [], ?_, submitAttempts_sent hs, .inl rfl⟩
    simp [sentOf_quiet hbefore, ExecutionService.afterSubmitError, ExecutionService.ended]
  · refine ⟨sentOf s.events, sentOf p'.events, ?_, submitAttempts_sent hs, afterSubmit_sent hp'⟩
    simp [sentOf_quiet hbefore]

end Sent

/-! ## The whole call -/

/-- What holds of a call that sends. -/
structure SendReady (w : CandidateWorld Log) (svc : ExecutionService) (c : CandidateExecution) (head : ℕ)
    (plan : ExecutionService.SubmitPlan) (snap feeSnap : FeeSnapshot) (realized : U256) : Prop where
  admitted : svc.Admitted w c head
  live : w.config.dryRun = false
  simulated : (w.dryRun (ExecutionService.simulationBlock w c head)).success = true ∧
    (w.dryRun (ExecutionService.simulationBlock w c head)).semanticSuccess = true ∧
    (w.dryRun (ExecutionService.simulationBlock w c head)).realizedProfit = some realized
  /-- The gas is the dry run's; where it has none, the route's or the simulated gas, scaled. -/
  covered : ∃ scale, svc.Covered c realized
    (min (profitReassessGas (svc.observedRouteGas c) c.simulatedGas.toNat
      (w.dryRun (ExecutionService.simulationBlock w c head)).gasUsed
      (w.dryRun (ExecutionService.simulationBlock w c head)).gasUsed.isNone scale) (2 ^ 32 - 1))
    (feeSnap.baseFee.toNat + plan.fees.maxPriorityFeePerGas.toNat)
  snapshots : w.submitSnapshot = some snap ∧ w.reassessSnapshot = some feeSnap
  bids : plan.fees.Bids snap
  gasLimit : c.simulatedGas.toNat < plan.gasLimit ∧ (plan.gasUsed < 2 ^ 32 → plan.gasUsed < plan.gasLimit)
  gates : svc.LiveReady w c plan head

lemma sendReady_of_cleared {head : ℕ} {plan : ExecutionService.SubmitPlan} {ready : ExecutionService}
    {pendingAhead : Bool} (h : Cleared w svc c head plan ready pendingAhead)
    (hsafety : c.safetyMultiplierBps ≠ 0) (hdecimals : c.tokenDecimals.toNat ≤ 30) :
    ∃ snap feeSnap realized, SendReady w svc c head plan snap feeSnap realized := by
  obtain ⟨planned, hplan, hgates⟩ := h.planned
  obtain ⟨⟨snap, feeSnap, hplanned⟩, hfails, hlast, hcache⟩ := ExecutionService.planSubmit_ok hplan
  obtain ⟨hsimulated, hused, hlimit⟩ := ExecutionService.liveGasLimit_ok hplanned.gasLimit
  have hready := ExecutionService.liveGates_ok hlimit hgates
  obtain ⟨scale, hreassess⟩ := hplanned.reassessed
  obtain ⟨realized, hrealized, hcovered⟩ := ExecutionService.covered_of_reassess hsafety hdecimals hreassess
  rw [hplanned.bids.toNat_expected] at hcovered
  have hdry := h.dryRun
  simp only [ExecutionService.dryRunFails, Bool.or_eq_false_iff, Bool.not_eq_false'] at hdry
  refine ⟨snap, feeSnap, realized, h.admitted, h.live, ⟨hdry.1.1, hdry.1.2, ?_⟩, ⟨scale, hcovered⟩,
    ⟨hplanned.submitSnapshot, hplanned.reassessSnapshot⟩, hplanned.bids, ⟨hsimulated, hused⟩,
    hready.congr hfails hlast hcache⟩
  exact (Option.filter_eq_some_iff.mp hrealized).1

/-- A call sends only when everything holds.  Then it sends the arbitrage, at most three times, each time at the
fees of the attempt before or at those bumped, and after it at most its cancellation or the sweep of its
profit. -/
theorem sends_only_when_covered {p : Processed} (hclock : w.clock.Ordered)
    (hsafety : c.safetyMultiplierBps ≠ 0) (hdecimals : c.tokenDecimals.toNat ≤ 30)
    (hrun : svc.processCandidate w c = some p) (hsends : p.Sends) :
    ∃ head plan snap feeSnap realized, SendReady w svc c head plan snap feeSnap realized ∧
      ∃ arbitrage later, sentOf p.events = arbitrage ++ later ∧
        Attempts (plan.fees, plan.gasLimit) maxSubmitAttempts arbitrage ∧
        SentAfter w c plan p.outcome later := by
  rcases processCandidate_cases hclock hrun with
    ⟨hevents, -⟩ | ⟨head, plan, ready, pendingAhead, hcleared, hsubmit⟩
  · obtain ⟨n, fees, gasLimit, hmem⟩ := hsends
    simp [hevents] at hmem
  · obtain ⟨snap, feeSnap, realized, hready⟩ := sendReady_of_cleared hcleared hsafety hdecimals
    exact ⟨head, plan, snap, feeSnap, realized, hready, submitPlanned_sent hsubmit⟩

open ServiceRun in
theorem sends_only_when_covered_lateReceipt : ∃ (p : Processed) (head : ℕ) (plan : ExecutionService.SubmitPlan)
    (snap feeSnap : FeeSnapshot) (realized : U256) (arbitrage later : List (SubmitFees × ℕ)),
    idleRun.svc.processCandidate (lateReceipt 0 5) oneRoute = some p ∧ p.Sends ∧
    SendReady (lateReceipt 0 5) idleRun.svc oneRoute head plan snap feeSnap realized ∧
    sentOf p.events = [(cappedBid, 250001), (cancelFees cappedBid, 21000)] ∧
    sentOf p.events = arbitrage ++ later ∧
    Attempts (plan.fees, plan.gasLimit) maxSubmitAttempts arbitrage ∧
    SentAfter (lateReceipt 0 5) oneRoute plan p.outcome later := by
  have hevents : (idleRun.svc.processCandidate (lateReceipt 0 5) oneRoute).map (·.events) =
      some (lateEvents 5) := by decide +kernel
  obtain ⟨p, hp, hsent⟩ := Option.map_eq_some_iff.mp hevents
  have hsends : p.Sends := ⟨5, cappedBid, 250001, by simp [hsent, lateEvents]⟩
  have hboth : sentOf p.events = [(cappedBid, 250001), (cancelFees cappedBid, 21000)] := by
    rw [hsent]
    decide
  obtain ⟨head, plan, snap, feeSnap, realized, hready, arbitrage, later, hsplit, hattempts, hafter⟩ :=
    sends_only_when_covered (ordered_lateReceipt 0 5) (by decide) (by decide) hp hsends
  exact ⟨p, head, plan, snap, feeSnap, realized, arbitrage, later, hp, hsends, hready, hboth, hsplit, hattempts,
    hafter⟩

end PolygonArb

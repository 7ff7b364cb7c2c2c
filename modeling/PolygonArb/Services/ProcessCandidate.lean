import PolygonArb.Services.CandidateGates

/-!
# Processing a candidate

`ExecutionService::process_candidate` of `services/execution/service.rs`, with `submit_with_recovery` run to
its end, the recovery after a missing receipt (`recovery.rs`), the booking of the receipt, and the sweep of
the profit (`profit_sweep.rs`).  Beside the outcome and the new state a run returns its `TxEvent`s.

`SubmitWorld` interleaves several submissions; here one runs alone, as the service runs them, so that its
answers are read off `SubmitAnswers`.
-/

namespace PolygonArb

open Word

/-! ## Sending -/

/-- What `submit_with_recovery` leaves: the manager, the caller's nonce, and the result. -/
structure Submission where
  mgr : NonceManager
  nonce : Nonce
  result : Except (SubmitError × String) Unit
  events : List TxEvent

/-- What was done before. -/
def Submission.after (before : List TxEvent) (s : Submission) : Submission :=
  { s with events := before ++ s.events }

/-- How the loop goes on after an error: it ends, or tries again with another nonce or other fees. -/
inductive Retry
  | stop (result : Submission)
  | again (mgr : NonceManager) (nonce : Nonce) (fees : SubmitFees) (events : List TxEvent)

section Submit

variable (answers : SubmitAnswers) (gasLimit : ℕ)

/-- The error arm of the loop, when attempts are left. -/
def retryAfter (attempts : ℕ) (mgr : NonceManager) (nonce : Nonce) (fees : SubmitFees)
    (e : SubmitError × String) : Run Retry :=
  let events : List TxEvent := [.sent nonce fees gasLimit]
  match e.1.action with
  | .resyncAndRetry =>
      match answers.pending attempts with
      | .error e => some (.stop ⟨mgr.release nonce, nonce, .error e, events⟩)
      | .ok pending =>
          ((mgr.release nonce).adoptPending pending).nextNonce.map fun
            | (.error text, mgr) => .stop ⟨mgr, nonce, .error (⟨.fail, false⟩, text), events ++ [.resynced]⟩
            | (.ok next, mgr) => .again mgr next fees (events ++ [.resynced, .reserved next])
  | .bumpFeesAndRetry => some (.again mgr nonce (bumpFees fees feeBumpBps) events)
  | .alreadyKnown =>
      if e.1.hashFound then some (.stop ⟨mgr, nonce, .ok (), events ++ [.accepted nonce]⟩)
      else
        some (.stop ⟨mgr, nonce,
          .error (⟨.alreadyKnown, false⟩, "transaction already known but hash unavailable"), events⟩)
  | .insufficientFunds => some (.stop ⟨mgr, nonce, .error e, events⟩)
  | .fail => some (.stop ⟨mgr, nonce, .error e, events⟩)

/-- The loop, with so many attempts left after this one. -/
def submitAttempts : ℕ → NonceManager → Nonce → SubmitFees → Run Submission
  | left, mgr, nonce, fees =>
    let attempts := maxSubmitAttempts - left
    match buildTransactionRequest nonce fees with
    | none => some ⟨mgr, nonce, .error (answers.overflow fees), []⟩
    | some _ =>
        match answers.send attempts with
        | .ok () => some ⟨mgr, nonce, .ok (), [.sent nonce fees gasLimit, .accepted nonce]⟩
        | .error e =>
            match left with
            | 0 => some ⟨mgr, nonce, .error e, [.sent nonce fees gasLimit]⟩
            | left + 1 =>
                (retryAfter answers gasLimit attempts mgr nonce fees e).bind fun
                  | .stop result => some result
                  | .again mgr nonce fees events => (submitAttempts left mgr nonce fees).map (.after events)

def submitWithRecovery (mgr : NonceManager) (nonce : Nonce) (fees : SubmitFees) : Run Submission :=
  submitAttempts answers gasLimit (maxSubmitAttempts - 1) mgr nonce fees

end Submit

/-- A failed submission gives its nonce back, unless the node knows the transaction. -/
def releaseFailedSubmitNonce (mgr : NonceManager) (nonce : Nonce) (action : SubmitAction) : NonceManager :=
  if action = .alreadyKnown then mgr.markStale nonce else mgr.release nonce

/-! ## Recovery after a missing receipt -/

inductive NonceRecoveryOutcome (Log : Type)
  | mined (receipt : ReceiptData Log)
  | cancelled
  | stillPending
  | dropped

/-- A cancellation bids bumped fees, and at most a `u128`. -/
def cancelFees (fees : SubmitFees) : SubmitFees :=
  let bumped := bumpFees fees feeBumpBps
  let capped (fee : U256) : U256 := ((u256ToU128 fee).getD (BitVec.allOnes 128)).setWidth 256
  { maxFeePerGas := capped bumped.maxFeePerGas
    maxPriorityFeePerGas := capped bumped.maxPriorityFeePerGas }

section Recovery

variable {Log : Type} (answers : RecoveryAnswers Log) (mgr : NonceManager) (nonce : Nonce)
  (fees : SubmitFees) (gasLimit : ℕ)

def recoverAfterReceiptTimeout : NonceRecoveryOutcome Log × NonceManager × List TxEvent :=
  match answers.receipt with
  | some receipt => (.mined receipt, mgr, [])
  | none =>
      match answers.lookup with
      | .error _ => (.stillPending, mgr.markStale nonce, [])
      | .ok false =>
          match answers.pending with
          | .error _ => (.stillPending, mgr.markStale nonce, [])
          | .ok pending => (.dropped, mgr.adoptPending pending, [.resynced])
      | .ok true =>
          let cancel : TxEvent := .cancelSent nonce (cancelFees fees) (min gasLimit 21000)
          match answers.cancel with
          | .ok () => (.cancelled, mgr.markStale nonce, [cancel, .accepted nonce])
          | .error _ => (.stillPending, mgr.markStale nonce, [cancel])

end Recovery

/-- How a call of `process_candidate` ends. -/
structure Processed where
  svc : ExecutionService
  outcome : ExecutionOutcome
  events : List TxEvent
  /-- The token whose reserve at the lender is to be marked inactive. -/
  aaveInactive : Option Address

namespace ExecutionService

variable {Log : Type} (w : CandidateWorld Log) (svc : ExecutionService) (c : CandidateExecution)

/-! ## Booking a receipt -/

/-- `u64` arithmetic saturates before the division. -/
def percentOf (gas percent : ℕ) : ℕ := min (gas * percent) (2 ^ 64 - 1) / 100

/-- What a reverted transaction has cost: the price is the receipt's, else the oracle's. -/
def revertCost (receipt : ReceiptData Log) : U256 :=
  let gasUsed := BitVec.ofNat 256 receipt.gasUsed
  ((receipt.effectiveGasPrice.bind fun price => checkedMul gasUsed (BitVec.ofNat 256 price)).or
    (w.settleGasPrice.bind fun price => checkedMul gasUsed price)).getD 0

/-- A revert above the simulated gas raises what is known of the route, by more when it has run out of gas. -/
def teachRevert (gasLimit : ℕ) (receipt : ReceiptData Log) : ExecutionService :=
  if c.simulatedGas.toNat * 105 / 100 < receipt.gasUsed then
    let outOfGas : Bool := 0 < gasLimit && percentOf gasLimit 98 ≤ receipt.gasUsed
    svc.teachGas c (percentOf receipt.gasUsed (if outOfGas then 130 else 110))
  else svc

def finalizeRevert (gasLimit : ℕ) (receipt : ReceiptData Log) : ExecutionService :=
  let svc := svc.quarantineRoute c.routeEdges w.clock.now w.clock.settle .revert
  let svc := svc.recordGasCostLoss (revertCost w receipt) w.today w.clock.settle
  svc.teachRevert c gasLimit receipt

def parsedProfit (receipt : ReceiptData Log) : Option U256 :=
  parseTransferProfit w.reader c.targetAddress (some c.profitToken) receipt.logs

def promoteCap : ExecutionService :=
  { svc with
    routeStats := (svc.routeStats.promoteAdaptiveFlashLoanCap c.routeEdges c.adaptiveFlashLoanUsdLimit).2 }

/-- `clear_fail_count`. -/
def clearFailCount : ExecutionService :=
  { svc with
    risk := svc.risk.clearFailCount c.routeEdges
    routeStats := svc.routeStats.recordRouteSuccess c.routeEdges }

/-- A profit that can be told is booked; one that cannot is not. -/
def attributeProfit (profitMaticWei : Option U256) (gasCost : U256) : ExecutionService :=
  match profitMaticWei with
  | none => svc.quarantineRouteSoft c.routeEdges w.clock.now w.clock.settle
  | some profit =>
      let svc := svc.recordRealized profit gasCost w.today w.clock.settle
      if gasCost ≤ profit then
        let svc := svc.clearFailCount c
        if gasCost < profit ∧ c.adaptiveFlashCapBound then svc.promoteCap c else svc
      else svc.quarantineRoute c.routeEdges w.clock.now w.clock.settle .realizedLoss

def finalizeSuccess (receipt : ReceiptData Log) : ExecutionService :=
  let svc := if 0 < receipt.gasUsed then svc.teachGas c receipt.gasUsed else svc
  let cost := receipt.effectiveGasPrice.bind fun price =>
    checkedMul (BitVec.ofNat 256 receipt.gasUsed) (BitVec.ofNat 256 price)
  match cost with
  | none => svc.quarantineRoute c.routeEdges w.clock.now w.clock.settle .realizedLoss
  | some gasCost =>
      let profit := (parsedProfit w c receipt).bind fun profit =>
        tokenProfitToMaticWei profit c.tokenToMaticRate c.tokenDecimals
      svc.attributeProfit w c profit gasCost

/-- `finalize_receipt`, after the nonce has been confirmed. -/
def finalizeReceipt (gasLimit : ℕ) (receipt : ReceiptData Log) : ExecutionService × ExecutionOutcome :=
  let svc := { svc with lastSubmit := Function.update svc.lastSubmit c.routeEdges (some w.clock.now) }
  if receipt.success then
    (svc.finalizeSuccess w c receipt,
      .confirmed receipt.gasUsed ((parsedProfit w c receipt).getD 0))
  else (svc.finalizeRevert w c gasLimit receipt, .reverted receipt.gasUsed)

/-! ## The sweep -/

/-- Gas limit of `transferAll` (`TRANSFER_ALL_GAS_LIMIT`). -/
def transferAllGasLimit : ℕ := 150000

def resolveProfitRecipient (configured : Option Address) (operator executor : Address) : Option Address :=
  let recipient := configured.getD operator
  if recipient = 0 ∨ recipient = executor then none else some recipient

/-- How the wait for the sweep's receipt ends, for the nonce. -/
def settleSweep (mgr : NonceManager) (nonce : Nonce) :
    ReceiptPollOutcome Log → NonceManager × List TxEvent
  | .received _ => (mgr.confirm nonce, [.confirmed nonce])
  | .shutdown => (mgr.release nonce, [])
  | .rpcFailure _ => (mgr.markStale nonce, [])
  | .timedOut => (mgr.markStale nonce, [])

/-- `sweep_profit_to_recipient`; that it fails changes nothing but the nonces. -/
def sweepProfitToRecipient (mgr : NonceManager) : Run (NonceManager × List TxEvent) :=
  match resolveProfitRecipient w.config.profitRecipient w.operator c.targetAddress, w.sweepSnapshot with
  | none, _ => some (mgr, [])
  | some _, none => some (mgr, [])
  | some _, some snap =>
      mgr.nextNonce.bind fun
        | (.error _, mgr) => some (mgr, [])
        | (.ok nonce, mgr) =>
            (submitWithRecovery w.sweepSubmit transferAllGasLimit mgr nonce (resolveSubmitFees snap)).map
              fun s =>
                match s.result with
                | .error _ => (s.mgr.release s.nonce, .reserved nonce :: s.events)
                | .ok () =>
                    let settled := settleSweep s.mgr s.nonce w.sweepReceipt
                    (settled.1, .reserved nonce :: s.events ++ settled.2)

/-! ## The whole call -/

/-- A call that has sent nothing. -/
def ended (outcome : ExecutionOutcome) : Processed := ⟨svc, outcome, [], none⟩

def withNonce (mgr : NonceManager) : ExecutionService := { svc with nonce := some mgr }

/-- `finalize_receipt_and_maybe_sweep`. -/
def finalizeReceiptAndMaybeSweep (mgr : NonceManager) (nonce : Nonce) (gasLimit : ℕ)
    (receipt : ReceiptData Log) : Run Processed :=
  let (svc, outcome) := svc.finalizeReceipt w c gasLimit receipt
  let mgr := mgr.confirm nonce
  match outcome with
  | .confirmed _ profitWei =>
      if profitWei = 0 then some ⟨svc.withNonce mgr, outcome, [.confirmed nonce], none⟩
      else
        (sweepProfitToRecipient w c mgr).map fun (mgr, events) =>
          ⟨{ svc.withNonce mgr with mempoolNonceCache := none }, outcome, .confirmed nonce :: events, none⟩
  | _ => some ⟨svc.withNonce mgr, outcome, [.confirmed nonce], none⟩

/-- The cost of a cancellation, at most: it is sent with bumped fees. -/
def cancelCost (fees : SubmitFees) : U256 :=
  saturatingMul 21000#256 (bumpFees fees feeBumpBps).maxFeePerGas

/-- A receipt that did not come in time. -/
def afterReceiptTimeout (mgr : NonceManager) (nonce : Nonce) (plan : SubmitPlan) : Run Processed :=
  let gaveUp (svc : ExecutionService) (mgr : NonceManager) (events : List TxEvent) : Run Processed :=
    some ⟨(svc.withNonce mgr).quarantineRoute c.routeEdges w.clock.now w.clock.settle .timeout,
      .receiptTimeout, events, none⟩
  match recoverAfterReceiptTimeout w.recovery mgr nonce plan.fees plan.gasLimit with
  | (.mined receipt, mgr, _) => svc.finalizeReceiptAndMaybeSweep w c mgr nonce plan.gasLimit receipt
  | (.cancelled, mgr, events) =>
      gaveUp (svc.recordGasCostLoss (cancelCost plan.fees) w.today w.clock.settle) mgr events
  | (_, mgr, events) => gaveUp svc mgr events

/-- The wait for the receipt of a transaction the node has taken. -/
def afterSubmit (mgr : NonceManager) (nonce : Nonce) (plan : SubmitPlan) : Run Processed :=
  let svc := { svc with lastGlobalSubmit := some w.clock.now, mempoolNonceCache := none }
  match w.receipt with
  | .received receipt => svc.finalizeReceiptAndMaybeSweep w c mgr nonce plan.gasLimit receipt
  | .shutdown => some ((svc.withNonce (mgr.markStale nonce)).ended .skippedShutdown)
  | .rpcFailure reason =>
      some (((svc.withNonce (mgr.markStale nonce)).quarantineRouteSoft c.routeEdges w.clock.now
        w.clock.settle).ended (.submitFailed ("receipt RPC failed; transaction fate unknown: " ++ reason)))
  | .timedOut =>
      if w.shutdownAfterWait then
        some ((svc.withNonce (mgr.markStale nonce)).ended .skippedShutdown)
      else svc.afterReceiptTimeout w c mgr nonce plan

/-- A submission the node has refused: after a nonce error the route cools down, otherwise it is out. -/
def afterSubmitError (mgr : NonceManager) (nonce : Nonce) (e : SubmitError × String) : Processed :=
  let svc := { svc.withNonce (releaseFailedSubmitNonce mgr nonce e.1.action) with
    mempoolNonceCache := none
    consecutiveFails := svc.consecutiveFails + 1 }
  let svc :=
    if e.1.action = .resyncAndRetry then svc.quarantineRouteSoft c.routeEdges w.clock.now w.clock.settle
    else svc.quarantineRoute c.routeEdges w.clock.now w.clock.settle .submit
  svc.ended (.submitFailed e.2)

/-- The manager, from the node when there is none. -/
def ensureNonceManager : Except String NonceManager :=
  match svc.nonce with
  | some mgr => .ok mgr
  | none => w.initialPending.map fun pending => NonceManager.new.adoptPending pending

/-- Nonces are pending from an earlier transaction (`resync_if_dirty`). -/
def isDirty (mgr : NonceManager) : Bool := !decide (mgr.state.inFlight = ∅) || !decide (mgr.state.stale = ∅)

/-- The manager before a nonce is taken: a resync that fails is skipped. -/
def cleanNonces (mgr : NonceManager) (pendingAhead : Bool) : NonceManager × List TxEvent :=
  if pendingAhead || isDirty mgr then
    match mgr.resync w.resyncPending with
    | (.ok (), mgr) => (mgr, [.resynced])
    | (.error _, mgr) => (mgr, [])
  else (mgr, [])

/-- `process_candidate` once all gates are passed. -/
def submitPlanned (plan : SubmitPlan) (pendingAhead : Bool) : Run Processed :=
  match svc.ensureNonceManager w with
  | .error text => some (svc.ended (.submitFailed ("nonce init failed: " ++ text)))
  | .ok mgr =>
      let (mgr, cleaned) := cleanNonces w mgr pendingAhead
      mgr.nextNonce.bind fun
        | (.error text, mgr) =>
            some { (svc.withNonce mgr).ended (.submitFailed text) with events := cleaned }
        | (.ok nonce, mgr) =>
            let after (events : List TxEvent) (p : Processed) : Processed :=
              { p with events := cleaned ++ .reserved nonce :: events ++ p.events }
            match w.privateConfig with
            | .error text =>
                some (after [] ((svc.withNonce (mgr.release nonce)).ended
                  (.submitFailed ("private submit requires chain_id: " ++ text))))
            | .ok () =>
                (submitWithRecovery w.submit plan.gasLimit mgr nonce plan.fees).bind fun s =>
                  match s.result with
                  | .error e => some (after s.events (svc.afterSubmitError w c s.mgr s.nonce e))
                  | .ok () => (svc.afterSubmit w c s.mgr s.nonce plan).map (after s.events)

def processLive (plan : SubmitPlan) (chainHead : ℕ) : Run Processed :=
  match svc.liveGates w c plan chainHead with
  | (svc, .error outcome) => some (svc.ended outcome)
  | (svc, .ok pendingAhead) => svc.submitPlanned w c plan pendingAhead

def aaveInactive (dry : DryRunResult) : Option Address :=
  match dry.decodedRevert.map Prod.fst with
  | some .aaveReserveInactive => some c.profitToken
  | _ => none

def processCandidate : Run Processed :=
  match svc.admitCandidate w c with
  | .error outcome => some (svc.ended outcome)
  | .ok chainHead =>
      let dry := w.dryRun (simulationBlock w c chainHead)
      if dryRunFails dry then
        some { (svc.afterFailedDryRun w c dry).ended (.dryRunFailed (dryRunFailureReason c dry)) with
          aaveInactive := aaveInactive c dry }
      else
        match svc.planSubmit w c dry with
        | (svc, .error outcome) => some (svc.ended outcome)
        | (svc, .ok plan) =>
            if w.config.dryRun then
              let lastSubmit := Function.update svc.lastSubmit c.routeEdges (some w.clock.now)
              some ({ svc with lastSubmit }.ended (.dryRunPassed plan.gasUsed))
            else svc.processLive w c plan chainHead

/-- `shutdown_resync`: nothing is left pending when the node answers. -/
def shutdownResync (pending : Except String Nonce) : ExecutionService × List TxEvent :=
  match svc.nonce with
  | none => (svc, [])
  | some mgr =>
      if isDirty mgr then
        match mgr.resync pending with
        | (.ok (), mgr) => (svc.withNonce mgr, [.resynced])
        | (.error _, mgr) => (svc.withNonce mgr, [])
      else (svc, [])

end ExecutionService

end PolygonArb

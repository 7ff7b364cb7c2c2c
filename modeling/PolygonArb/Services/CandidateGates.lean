import PolygonArb.Pipeline.GraphGate
import PolygonArb.Pipeline.Multicall
import PolygonArb.Services.ExecutionService
import PolygonArb.Services.SubmitFees
import PolygonArb.Services.TransferProfit

/-!
# The gates of a candidate

The first half of `ExecutionService::process_candidate` of `services/execution/service.rs`, with the gate on
the operator's mempool (`mempool.rs`): the admission, the dry run and what a failed one teaches, the fees and
the reassessment, and the live gates.  What follows is in `ProcessCandidate`.

All answers of the node, the clock and the shutdown flag are read from a `CandidateWorld`.  The reads of the
clock in one synchronous part are one instant.  Left out: log lines, the UI hook, and the calldata, which
nothing here looks into.
-/

namespace PolygonArb

open Word

/-- What `process_candidate` reads of a candidate. -/
structure CandidateExecution where
  routeEdges : List Edge
  targetAddress : Address
  value : U256
  profitToken : Address
  expectedProfitMaticWei : U256
  priorityBidBasisMaticWei : U256
  simulatedGas : BitVec 32
  routeHash : RouteHash
  grossProfit : U256
  amountIn : U256
  tokenDecimals : BitVec 8
  tokenToMaticRate : U256
  slippageBps : BitVec 64
  flashLoanSource : FlashLoanSource
  minProfitMaticWei : U256
  minProfitRoiBps : BitVec 64
  safetyMultiplierBps : BitVec 64
  stateGeneration : ℕ
  stateBlock : ℕ
  stateHash : Option (BitVec 256)
  adaptiveFlashCapBound : Bool
  adaptiveFlashLoanUsdLimit : ℕ

/-- The variants of `DecodedRevert` that are told apart; the others carry their text. -/
inductive DecodedRevert
  | insufficientProfit (finalBalance : U256)
  | externalCallFailed (index : ℕ) (target : Address) (reason : String)
  | transferFailed (token : Address)
  | aaveReserveInactive
  | other

structure DryRunResult where
  semanticSuccess : Bool
  success : Bool
  gasUsed : Option ℕ
  realizedProfit : Option U256
  error : Option String
  /-- The revert and how it reads. -/
  decodedRevert : Option (DecodedRevert × String)

structure ReceiptData (Log : Type) where
  success : Bool
  gasUsed : ℕ
  effectiveGasPrice : Option ℕ
  logs : List Log

inductive ReceiptPollOutcome (Log : Type)
  | received (receipt : ReceiptData Log)
  | timedOut
  | shutdown
  | rpcFailure (reason : String)

inductive ExecutionOutcome
  | dryRunPassed (gasUsed : ℕ)
  | dryRunFailed (reason : String)
  | skippedCircuitBreaker
  | skippedInsufficientBalance
  | skippedQuarantined
  | skippedCooldown
  | skippedNoWallet
  | skippedNoPrivateRpc
  | skippedUnprofitablePreDryRun
  | skippedUnprofitableAfterDryRun
  | skippedShutdown
  | confirmed (gasUsed : ℕ) (profitWei : U256)
  | reverted (gasUsed : ℕ)
  | receiptTimeout
  | submitFailed (reason : String)
  deriving DecidableEq

/-- What a run does with nonces and transactions. -/
inductive TxEvent
  | reserved (nonce : Nonce)
  /-- `submit_transaction` is called for the arbitrage or the sweep. -/
  | sent (nonce : Nonce) (fees : SubmitFees) (gasLimit : ℕ)
  /-- It is called for the cancellation of a transaction that is out. -/
  | cancelSent (nonce : Nonce) (fees : SubmitFees) (gasLimit : ℕ)
  /-- It has returned a hash. -/
  | accepted (nonce : Nonce)
  | confirmed (nonce : Nonce)
  /-- The manager has adopted the node's pending nonce. -/
  | resynced
  deriving DecidableEq

/-! ## The world -/

/-- What the node says to a submission: to every attempt, and to the request for the pending nonce that
follows a failed one. -/
structure SubmitAnswers where
  send : ℕ → Except (SubmitError × String) Unit
  pending : ℕ → Except (SubmitError × String) Nonce
  /-- How fees beyond a `u128` read. -/
  overflow : SubmitFees → SubmitError × String

/-- What the recovery after a missing receipt finds. -/
structure RecoveryAnswers (Log : Type) where
  receipt : Option (ReceiptData Log)
  /-- Whether the node knows the transaction. -/
  lookup : Except String Bool
  pending : Except String Nonce
  cancel : Except String Unit

structure ExecutionConfig where
  dryRun : Bool
  maxGlobalConsecutiveFailures : ℕ
  /-- Zero when it is not configured. -/
  minOperatorMaticWei : U256
  profitPriorityFeeAlphaBps : BitVec 64
  profitRecipient : Option Address

/-- The instants at which the parts of a run read the clock. -/
structure CandidateClock where
  now : Instant
  gates : Instant
  dryRun : Instant
  live : Instant
  settle : Instant

structure CandidateWorld (Log : Type) where
  config : ExecutionConfig
  flashFees : FlashFees
  reader : LogReader Log
  parseAddress : List Char → Option Address
  isPolygonHubToken : Address → Bool
  operator : Address
  expectedStateBlock : ℕ
  expectedStateHash : Option (BitVec 256)
  cacheGeneration : ℕ
  clock : CandidateClock
  today : ℕ
  /-- The shutdown flag at the start, before the live gates, and after the wait for the receipt. -/
  shutdownAtStart : Bool
  shutdownBeforeSubmit : Bool
  shutdownAfterWait : Bool
  chainHeadHint : Option ℕ
  blockNumber : Except String ℕ
  dryRun : ℕ → DryRunResult
  submitSnapshot : Option FeeSnapshot
  reassessSnapshot : Option FeeSnapshot
  /-- Whether the fee snapshot is fresh, and its age in words. -/
  feesReady : Bool
  snapshotAge : String
  hasSigner : Bool
  submitProvider : Bool
  /-- The latest and the pending nonce of the operator. -/
  operatorNonces : Except String (Nonce × Nonce)
  balance : Except String U256
  headBeforeSubmit : Except String ℕ
  initialPending : Except String Nonce
  resyncPending : Except String Nonce
  /-- `build_private_config`. -/
  privateConfig : Except String Unit
  submit : SubmitAnswers
  receipt : ReceiptPollOutcome Log
  recovery : RecoveryAnswers Log
  settleGasPrice : Option U256
  sweepSnapshot : Option FeeSnapshot
  sweepSubmit : SubmitAnswers
  sweepReceipt : ReceiptPollOutcome Log

/-! ## Admission -/

namespace ExecutionService

variable {Log : Type} (w : CandidateWorld Log) (svc : ExecutionService) (c : CandidateExecution)

/-- The minimum profit with the learned risk of the route. -/
def learnedFloor : U256 :=
  saturatingMul c.minProfitMaticWei
    (BitVec.ofNat 256 (svc.routeStats.routeRiskMultiplierBps c.routeEdges)) / 10000#256

/-- `route_cooldown`. -/
def submitCooldown : ℕ := if w.config.dryRun then fromSecs 120 else routeCooldown

def onCooldown : Bool :=
  (svc.lastSubmit c.routeEdges).any fun last => w.clock.now - last < submitCooldown w

def chainHead : Except String ℕ :=
  match w.chainHeadHint with
  | some head => .ok head
  | none => w.blockNumber

/-- The gates before the dry run, and the head of the chain. -/
def admitCandidate : Except ExecutionOutcome ℕ :=
  if w.shutdownAtStart then .error .skippedShutdown
  else if svc.risk.globalQuarantineUntil.any fun expiry => w.clock.now < expiry then
    .error .skippedCircuitBreaker
  else if w.cacheGeneration < c.stateGeneration then
    .error (.submitFailed "candidate state generation mismatch")
  else if c.stateBlock ≠ w.expectedStateBlock ∨ c.stateHash ≠ w.expectedStateHash then
    .error (.submitFailed "candidate state provenance mismatch")
  else if c.expectedProfitMaticWei < svc.learnedFloor c then .error .skippedUnprofitablePreDryRun
  else
    match chainHead w with
    | .error text => .error (.submitFailed ("cannot establish simulation block: " ++ text))
    | .ok head =>
        if Expiry.isLive svc.risk.quarantine c.routeEdges w.clock.now then .error .skippedQuarantined
        else if Expiry.isLive svc.risk.routeHashQuarantine c.routeHash w.clock.gates then
          .error .skippedQuarantined
        else if Expiry.isLive svc.risk.directTokenQuarantine c.profitToken w.clock.gates then
          .error .skippedQuarantined
        else if svc.onCooldown w c then .error .skippedCooldown
        else .ok head

/-- The state block, unless it is unknown or ahead of the node. -/
def simulationBlock (chainHead : ℕ) : ℕ :=
  let provenanceBlock := max c.stateBlock w.expectedStateBlock
  if 0 < provenanceBlock then min provenanceBlock chainHead else chainHead

/-! ## A dry run that fails -/

def quarantineRoute (edges : List Edge) (now clock : Instant) (kind : RouteFailureKind) : ExecutionService :=
  { svc with
    routeStats := svc.routeStats.recordRouteFailure edges kind
    risk := svc.risk.quarantineRoute edges now clock }

def quarantineRouteSoft (edges : List Edge) (now clock : Instant) : ExecutionService :=
  { svc with risk := svc.risk.quarantineRouteSoft edges now clock }

/-- The profit the executor has returned, if there is one. -/
def realizedProfit (dry : DryRunResult) : Option U256 := dry.realizedProfit.filter fun p => p ≠ 0

def dryRunFails (dry : DryRunResult) : Bool :=
  !dry.success || !dry.semanticSuccess || (realizedProfit dry).isNone

/-- The first of the pieces that a separator cuts a text into, and what follows the separator. -/
def cutAt (separator : List Char) : List Char → List Char × Option (List Char)
  | [] => ([], none)
  | ch :: text =>
      if separator <+: ch :: text then ([], some ((ch :: text).drop separator.length))
      else ((ch :: (cutAt separator text).1), (cutAt separator text).2)

/-- The address behind the first `token=`. -/
def parseNestedTransferFailedToken (reason : String) : Option Address :=
  match (cutAt "token=".toList reason.toList).2 with
  | none => none
  | some rest =>
      w.parseAddress
        ((cutAt "token=".toList rest).1.takeWhile fun ch => ch ≠ ',' ∧ ch ≠ ' ' ∧ ch ≠ '\n' ∧ ch ≠ '\t')

/-- A transfer that fails after the first hop: the hop before it has delivered less than expected. -/
def isMidHopTransferUnderfund : Option DecodedRevert → Bool
  | some (.externalCallFailed index _ reason) =>
      decide (1 ≤ index) && (mentions reason "transferfailed" || mentions reason "transfer_failed"
        || mentions reason "transfer amount exceeds balance" || mentions reason "insufficient balance"
        || mentions reason "exceeds balance")
  | _ => false

/-- `transferAll` with nothing to transfer. -/
def transferAllFundingMiss : Option DecodedRevert → Bool
  | some (.externalCallFailed _ target reason) =>
      decide (target = c.targetAddress) && (messageContains reason "empty nested revert"
        || messageContains reason "transferAll zero balance")
  | _ => false

def simFidelityMiss (decoded : Option DecodedRevert) : Bool :=
  transferAllFundingMiss c decoded || isMidHopTransferUnderfund decoded ||
    match decoded with
    | some (.insufficientProfit finalBalance) => decide (finalBalance = 0)
    | _ => false

def transferFailedTokenToQuarantine (decoded : Option DecodedRevert) : Option Address :=
  if isMidHopTransferUnderfund decoded then none
  else
    let token :=
      match decoded with
      | some (.transferFailed token) => some token
      | some (.externalCallFailed index _ reason) =>
          if messageContains reason "TransferFailed" || messageContains reason "TRANSFER_FAILED" then
            (parseNestedTransferFailedToken w reason).or (if index = 0 then some c.profitToken else none)
          else none
      | _ => none
    token.filter fun token => !w.isPolygonHubToken token

def flashSizeFailureReason (reason : String) : Bool :=
  mentions reason "bal#528" || mentions reason "insufficient balancer flash"
    || mentions reason "flash-loan balance" || mentions reason "flash loan amount"
    || mentions reason "borrow amount exceeds" || mentions reason "amount exceeds available"

/-- `DryRunResult::failure_reason`. -/
def failureReason (dry : DryRunResult) : String :=
  match dry.error, dry.decodedRevert with
  | some error, _ => error
  | none, some (_, text) => text
  | none, none =>
      if dry.realizedProfit = some 0 then "eth_call succeeded but on-chain realized profit is zero"
      else if dry.semanticSuccess = false then "dry-run did not produce a decodable realized profit"
      else if dry.realizedProfit = none then
        "dry-run succeeded but returned no non-zero realized profit"
      else "dry-run failed without RPC error detail"

/-- The reason as it is reported: the two fidelity misses are rephrased. -/
def dryRunFailureReason (dry : DryRunResult) : String :=
  match dry.decodedRevert.map Prod.fst with
  | some (.externalCallFailed index target reason) =>
      if transferAllFundingMiss c (some (.externalCallFailed index target reason)) then
        "transferAll zero balance at packed call " ++ toString index
          ++ " (prior hop left no intermediate on executor; often Curve/DODO→V2 after under-delivery or index mismatch)"
      else if isMidHopTransferUnderfund (some (.externalCallFailed index target reason)) then
        "mid-hop transfer underfund at packed call " ++ toString index
          ++ " (prior hop delivered less than chain_in; " ++ reason ++ ")"
      else failureReason dry
  | _ => failureReason dry

def quarantineToken (token : Address) (clock : Instant) : ExecutionService :=
  { svc with risk := svc.risk.quarantineDirectTokenZeroRealized token clock }

/-- The start token of a direct batch that realizes nothing is put out of use. -/
def quarantineZeroRealized (dry : DryRunResult) : ExecutionService :=
  if c.flashLoanSource = .direct ∧ dry.realizedProfit = some 0 ∧
      w.isPolygonHubToken c.profitToken = false then
    svc.quarantineToken c.profitToken w.clock.dryRun
  else svc

/-- A failed call or transfer puts the calldata, the route for longer, or the token out of use. -/
def quarantineFailedCall (decoded : Option DecodedRevert) : ExecutionService :=
  let token (svc : ExecutionService) : ExecutionService :=
    match transferFailedTokenToQuarantine w c decoded with
    | some token => svc.quarantineToken token w.clock.dryRun
    | none => svc
  match decoded with
  | some (.externalCallFailed _ _ _) =>
      if transferAllFundingMiss c decoded || isMidHopTransferUnderfund decoded then token svc
      else
        token { svc with
          risk := (svc.risk.quarantineRouteHash c.routeHash w.clock.now).quarantineInsert c.routeEdges
            (w.clock.now + structuralDryRunQuarantine) w.clock.dryRun }
  | some (.transferFailed _) => token svc
  | _ => svc

def demoteCap (reason : String) : ExecutionService :=
  if c.adaptiveFlashCapBound && flashSizeFailureReason reason then
    { svc with
      routeStats := (svc.routeStats.demoteAdaptiveFlashLoanCap c.routeEdges c.adaptiveFlashLoanUsdLimit).2 }
  else svc

def coolFailedRoute (decoded : Option DecodedRevert) : ExecutionService :=
  if simFidelityMiss c decoded then svc.quarantineRouteSoft c.routeEdges w.clock.now w.clock.dryRun
  else svc.quarantineRoute c.routeEdges w.clock.now w.clock.dryRun .dryRun

def afterFailedDryRun (dry : DryRunResult) : ExecutionService :=
  let decoded := dry.decodedRevert.map Prod.fst
  let svc := svc.quarantineZeroRealized w c dry
  let svc := svc.coolFailedRoute w c decoded
  let svc := svc.quarantineFailedCall w c decoded
  svc.demoteCap c (dryRunFailureReason c dry)

/-! ## A dry run that passes -/

/-- `u32::try_from(gas).unwrap_or(u32::MAX)`. -/
def gasUnitsOf (gas : ℕ) : GasUnits := if fits : gas < 2 ^ 32 then ⟨gas, fits⟩ else Fin.last _

/-- `record_sim_observed`; `observed` is a `u64`. -/
def recordSimObserved (gas : GasLearning) (simulated observed : ℕ) : GasLearning :=
  if simulated = 0 ∨ observed = 0 then gas
  else
    let rawRatioBps := min (min (observed * 10000) (2 ^ 64 - 1) / simulated) (2 ^ 32 - 1)
    if 18000 < rawRatioBps then gas
    else
      let ratioBps := max 8000 (min rawRatioBps 15000)
      let blended := (max gas.simScaleBps 10000 * 3 + ratioBps) / 4
      { gas with simScaleBps := max 10000 (min blended 15000) }

/-- What a dry run or a receipt teaches about the gas of a route. -/
def teachGas (gas : ℕ) : ExecutionService :=
  let learned := recordSimObserved svc.gas c.simulatedGas.toNat gas
  { svc with
    gas := { learned with routeGas := recordRouteGas learned.routeGas c.routeEdges (gasUnitsOf gas) } }

def observedRouteGas : Option ℕ := (svc.gas.routeGas.map c.routeEdges).map Fin.val

def simScaleBps : ℕ := max svc.gas.simScaleBps 10000

def tokenProfitToMaticWei (profit rate : U256) (decimals : BitVec 8) : Option U256 :=
  if rate < minTokenToMaticRate then none
  else (checkedMul profit rate).map (· / tenPowU256 decimals.toNat)

/-- The profit the tip is bid from. -/
def tipProfit (dry : DryRunResult) : U256 :=
  let realized := ((realizedProfit dry).bind fun p =>
    tokenProfitToMaticWei p c.tokenToMaticRate c.tokenDecimals).filter fun p => p ≠ 0
  let basis := if c.priorityBidBasisMaticWei = 0 then none else some c.priorityBidBasisMaticWei
  (realized.or basis).getD c.expectedProfitMaticWei

/-- The gas the tip is spread over: what is used, not what is allowed. -/
def tipGasUnits (priorObserved : Option ℕ) (dry : DryRunResult) : ℕ :=
  max (((dry.gasUsed.filter fun g => 0 < g).or (priorObserved.filter fun g => 0 < g)).getD
    (max c.simulatedGas.toNat 1)) 1

/-- `reassess_assessment` for a realized profit: it is what is left after the repayment, so that no fee
and no slippage is taken off again. -/
def reassessInput (profitGas : ℕ) (gasPrice learnedFloor realized : U256) : AssessProfitInput where
  grossProfit := realized
  amountIn := c.amountIn
  gasUnits := BitVec.ofNat 32 (min profitGas (2 ^ 32 - 1))
  gasPriceWei := gasPrice
  chargedPriorityFeePerGas := minPriorityFeePerGas
  tokenToMaticRate := c.tokenToMaticRate
  tokenDecimals := c.tokenDecimals
  minProfitMaticWei := learnedFloor
  minProfitRoiBps := c.minProfitRoiBps
  slippageBps := 0
  flashLoanSource := .direct
  safetyMultiplierBps := c.safetyMultiplierBps
  profitPriorityAlphaBps := 0

def reassess (profitGas : ℕ) (gasPrice learnedFloor : U256) (dry : DryRunResult) : Bool :=
  match realizedProfit dry with
  | some realized =>
      (assessProfit w.flashFees (reassessInput c profitGas gasPrice learnedFloor realized)).shouldExecute
  | none => false

/-- What a candidate that may be sent is sent with. -/
structure SubmitPlan where
  gasUsed : ℕ
  gasLimit : ℕ
  fees : SubmitFees

/-- The limit of a dry run without a gas estimate has a wider buffer. -/
def liveGasLimit (dry : DryRunResult) (gasUsed : ℕ) : Except String ℕ :=
  if dry.gasUsed.isNone then
    pickLiveGasLimitWithBuffer c.simulatedGas.toNat gasUsed gasFallbackBufferBps
  else pickLiveGasLimit c.simulatedGas.toNat gasUsed

/-- Only gas that the node has measured is taught. -/
def teachDryRun (dry : DryRunResult) (gasUsed : ℕ) : ExecutionService :=
  if dry.gasUsed.isNone then svc else svc.teachGas c gasUsed

/-- Fees, gas limit and reassessment after a dry run that passes. -/
def planSubmit (dry : DryRunResult) : ExecutionService × Except ExecutionOutcome SubmitPlan :=
  let floor := svc.learnedFloor c
  let priorObserved := svc.observedRouteGas c
  let gasUsed := submitGasBasis priorObserved svc.simScaleBps c.simulatedGas.toNat dry.gasUsed
  let failed (svc : ExecutionService) (reason : String) :
      ExecutionService × Except ExecutionOutcome SubmitPlan :=
    (svc.quarantineRoute c.routeEdges w.clock.now w.clock.dryRun .dryRun, .error (.dryRunFailed reason))
  if gasUsed = 0 then failed svc "dry-run passed but gas estimate is zero"
  else
    let svc := svc.teachDryRun c dry gasUsed
    match liveGasLimit c dry gasUsed with
    | .error reason => failed svc reason
    | .ok gasLimit =>
        match w.submitSnapshot with
        | none => (svc, .error (.submitFailed "gas oracle has no snapshot for fee resolution"))
        | some snap =>
            let fees := resolveSubmitFeesWithProfit snap (tipProfit c dry) w.config.profitPriorityFeeAlphaBps
              (tipGasUnits c priorObserved dry)
            match w.reassessSnapshot with
            | none => (svc, .error (.submitFailed "gas oracle has no snapshot for fee reassess"))
            | some feeSnap =>
                let gasPrice := expectedSubmitGasPrice feeSnap.baseFee fees
                let profitGas := profitReassessGas priorObserved c.simulatedGas.toNat dry.gasUsed
                  dry.gasUsed.isNone svc.simScaleBps
                if reassess w c profitGas gasPrice floor dry then
                  ({ svc with routeStats := svc.routeStats.recordRouteDryRunPass c.routeEdges },
                    .ok ⟨gasUsed, gasLimit, fees⟩)
                else (svc, .error .skippedUnprofitableAfterDryRun)

/-! ## The live gates -/

/-- `MEMPOOL_STALL_TIMEOUT`. -/
def mempoolStallTimeout : ℕ := fromSecs 20

/-- `MEMPOOL_NONCE_CACHE_TTL`. -/
def mempoolNonceCacheTtl : ℕ := 400 * 10 ^ 6

structure MempoolGateDecision where
  allowSubmit : Bool
  pendingAhead : Bool

def decideMempoolGate (latest pending : Nonce) (lastGlobalSubmit : Option Instant) (now : Instant) :
    MempoolGateDecision :=
  if pending = latest then ⟨true, false⟩
  else if lastGlobalSubmit.any fun t => now - t ≤ mempoolStallTimeout then ⟨false, false⟩
  else ⟨true, true⟩

/-- The operator's nonces, from the cache while it is young. -/
def operatorNonces : ExecutionService × Except String (Nonce × Nonce) :=
  match svc.mempoolNonceCache.filter fun cached => w.clock.live - cached.1 < mempoolNonceCacheTtl with
  | some cached => (svc, .ok cached.2)
  | none =>
      match w.operatorNonces with
      | .error text => (svc, .error text)
      | .ok nonces => ({ svc with mempoolNonceCache := some (w.clock.live, nonces) }, .ok nonces)

def operatorMempoolClear : ExecutionService × Except String MempoolGateDecision :=
  let (svc, nonces) := svc.operatorNonces w
  (svc, nonces.map fun (latest, pending) =>
    decideMempoolGate latest pending svc.lastGlobalSubmit w.clock.live)

/-- The whole gas limit at the ceiling, the value, and the reserve. -/
def requiredOperatorBalance (plan : SubmitPlan) : Option U256 := do
  let gasBudget ← checkedMul (BitVec.ofNat 256 plan.gasLimit) plan.fees.maxFeePerGas
  let withValue ← checkedAdd gasBudget c.value
  checkedAdd withValue w.config.minOperatorMaticWei

/-- The gates that only look: the fees are fresh, there is a signer and a relay. -/
def liveReady : Except ExecutionOutcome Unit :=
  if w.feesReady = false then
    .error (.submitFailed ("gas fee snapshot not fresh for live submit (age_ms=" ++ w.snapshotAge ++ ")"))
  else if w.hasSigner = false then .error .skippedNoWallet
  else if w.submitProvider = false then .error .skippedNoPrivateRpc
  else .ok ()

/-- The balance covers the transaction, and the head has moved by one block at most. -/
def balanceAndHead (plan : SubmitPlan) (chainHead : ℕ) : Except ExecutionOutcome Unit :=
  match requiredOperatorBalance w c plan with
  | none => .error (.submitFailed "operator balance requirement overflow")
  | some required =>
      match w.balance with
      | .error text => .error (.submitFailed ("operator balance check failed: " ++ text))
      | .ok balance =>
          if balance < required then .error .skippedInsufficientBalance
          else
            match w.headBeforeSubmit with
            | .error text => .error (.submitFailed text)
            | .ok head =>
                if head ≤ min (chainHead + 1) (2 ^ 64 - 1) then .ok ()
                else
                  .error (.submitFailed ("candidate stale: dry-run head " ++ toString chainHead ++ " (sim block "
                    ++ toString (simulationBlock w c chainHead) ++ "), now " ++ toString head))

/-- All gates before the nonce; they say whether the pending nonce was ahead. -/
def liveGates (plan : SubmitPlan) (chainHead : ℕ) : ExecutionService × Except ExecutionOutcome Bool :=
  match liveReady w with
  | .error outcome => (svc, .error outcome)
  | .ok () =>
      match svc.operatorMempoolClear w with
      | (svc, .error text) => (svc, .error (.submitFailed text))
      | (svc, .ok decision) =>
          if decision.allowSubmit = false then (svc, .error .skippedCooldown)
          else if w.shutdownBeforeSubmit then (svc, .error .skippedShutdown)
          else if w.config.maxGlobalConsecutiveFailures ≤ svc.consecutiveFails then
            ({ svc with
                risk := svc.risk.quarantineGlobal (fromSecs 60) w.clock.now
                consecutiveFails := 0 }, .error .skippedCircuitBreaker)
          else
            match balanceAndHead w c plan chainHead with
            | .error outcome => (svc, .error outcome)
            | .ok () => (svc, .ok decision.pendingAhead)

end ExecutionService

end PolygonArb

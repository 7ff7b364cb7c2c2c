import Mathlib.Data.Prod.Lex
import PolygonArb.Lib.BoundedHeap
import PolygonArb.Services.AssessClaim
import PolygonArb.Services.ServiceRuns

/-!
# A dispatch pass

`dispatch_profitable_candidates` of `orchestrator/hf_execute.rs`: the routes a tick has found profitable are
filtered, put in a queue by profit, and handed to the execution service one after the other.

What a candidate is built from (`dispatch_one_candidate` up to `process_candidate`) is left to the pass's
answers: a candidate for the same edges, or none.

`dispatch_pass`: the routes are tried in the order of their profit, each at most once, and none that was out
of use when the pass began; in a live pass nothing is tried after a transaction was taken, unless its receipt
could not be asked for.  Of more routes than `hf_max_dispatch` the queue keeps the least profitable ones
(`dispatchQueue_kept`); `run_hf_tick` cuts what it hands over to that many.
-/

namespace PolygonArb

open Word

/-- What dispatch reads of an evaluated route. -/
structure HfEvalResult where
  cycle : FoundCycle
  netProfitAfterGasMaticWei : U256
  routeFingerprint : BitVec 64

/-! ## The queue -/

/-- Less profitable first, and of equal ones the higher fingerprint. -/
def dispatchPriorityCmp (a b : HfEvalResult) : Ordering :=
  (compare a.netProfitAfterGasMaticWei.toNat b.netProfitAfterGasMaticWei.toNat).then
    (compare b.routeFingerprint.toNat a.routeFingerprint.toNat)

/-- `PriorityDispatchQueue::push`. -/
def pushDispatch (capacity : ℕ) (items : List HfEvalResult) (item : HfEvalResult) : List HfEvalResult :=
  if capacity = 0 then items
  else ((items ++ [item]).mergeSort fun a b => (dispatchPriorityCmp a b).isLE).take capacity

/-- The queue after all pushes; `pop` takes its last item. -/
def dispatchQueue (capacity : ℕ) (profitable : List HfEvalResult) : List HfEvalResult :=
  profitable.foldl (pushDispatch capacity) []

/-- The order of the queue. -/
def dispatchKey (r : HfEvalResult) : ℕ ×ₗ ℕᵒᵈ :=
  toLex (r.netProfitAfterGasMaticWei.toNat, OrderDual.toDual r.routeFingerprint.toNat)

lemma dispatchPriorityCmp_isLE (a b : HfEvalResult) :
    (dispatchPriorityCmp a b).isLE = decide (dispatchKey a ≤ dispatchKey b) := by
  rw [dispatchPriorityCmp, Bool.eq_iff_iff, decide_eq_true_eq, dispatchKey, dispatchKey, Prod.Lex.toLex_le_toLex]
  rcases lt_trichotomy a.netProfitAfterGasMaticWei.toNat b.netProfitAfterGasMaticWei.toNat with hlt | heq | hgt
  · simp [compare_lt_iff_lt.mpr hlt, hlt]
  · simp [heq, OrderDual.toDual_le_toDual, Nat.isLE_compare]
  · simp [compare_gt_iff_gt.mpr hgt, hgt.not_gt, hgt.ne']

lemma netProfit_le_of_dispatchKey {a b : HfEvalResult} (h : dispatchKey a ≤ dispatchKey b) :
    a.netProfitAfterGasMaticWei.toNat ≤ b.netProfitAfterGasMaticWei.toNat := by
  rw [dispatchKey, dispatchKey, Prod.Lex.toLex_le_toLex] at h
  rcases h with hlt | ⟨heq, -⟩
  · exact hlt.le
  · exact heq.le

/-- The queue keeps the `capacity` least profitable routes. -/
lemma dispatchQueue_kept (capacity : ℕ) (profitable : List HfEvalResult) (hcapacity : capacity ≠ 0) :
    BoundedHeap.Kept dispatchKey capacity profitable (dispatchQueue capacity profitable) := by
  have hpush : pushDispatch capacity = BoundedHeap.sortedPush dispatchKey capacity := by
    funext items item
    simp only [pushDispatch, if_neg hcapacity, dispatchPriorityCmp_isLE, BoundedHeap.sortedPush]
  rw [dispatchQueue, hpush]
  exact BoundedHeap.kept_foldl (fun _ _ _ h => h.sortedPush) profitable

/-! ## The pass -/

/-- What comes of one route of the queue: what is read before it, the candidate that is built for it, and what
the call finds. -/
structure DispatchTurn (Log : Type) where
  shutdown : Bool
  generation : ℕ
  prepared : Option CandidateExecution
  /-- A route for which nothing can be built is out for a while. -/
  cools : Bool
  clock : Instant
  world : CandidateWorld Log

/-- A route that was tried; the call is missing where no candidate was handed over. -/
structure Visit where
  result : HfEvalResult
  call : Option Processed

/-- The outcomes after which the pass ends. -/
def endsDispatch (dryRun : Bool) : ExecutionOutcome → Bool
  | .skippedCircuitBreaker => true
  | .skippedShutdown => true
  | .skippedInsufficientBalance => true
  | .confirmed _ _ => !dryRun
  | .reverted _ => !dryRun
  | .receiptTimeout => !dryRun
  | _ => false

section Pass

variable {Log : Type}

/-- `dispatch_one_candidate`. -/
def dispatchOneCandidate (svc : ExecutionService) (r : HfEvalResult) (turn : DispatchTurn Log) :
    Run (ExecutionService × Option Processed) :=
  match turn.prepared with
  | none =>
      let risk := if turn.cools then svc.risk.quarantineBatchQueryFailure r.cycle.edges turn.clock else svc.risk
      some ({ svc with risk }, none)
  | some c =>
      if Expiry.isLive svc.risk.routeHashQuarantine c.routeHash turn.clock then some (svc, none)
      else (svc.processCandidate turn.world c).map fun p => (p.svc, some p)

variable (dryRun : Bool) (generation : ℕ) (turns : HfEvalResult → DispatchTurn Log)

/-- The loop over the queue, in the order it pops. -/
def dispatchLoop : ExecutionService → List HfEvalResult → Run (ExecutionService × List Visit)
  | svc, [] => some (svc, [])
  | svc, r :: rest =>
      if (turns r).shutdown then some (svc, [])
      else if (turns r).generation ≠ generation then some (svc, [])
      else
        (dispatchOneCandidate svc r (turns r)).bind fun (svc, call) =>
          if call.any fun p => endsDispatch dryRun p.outcome then some (svc, [⟨r, call⟩])
          else (dispatchLoop svc rest).map fun (svc, visits) => (svc, ⟨r, call⟩ :: visits)

/-- The first of the routes with the same edges. -/
def firstPerRoute : List (List Edge) → List HfEvalResult → List HfEvalResult
  | _, [] => []
  | seen, r :: rest =>
      if r.cycle.edges ∈ seen then firstPerRoute seen rest
      else r :: firstPerRoute (r.cycle.edges :: seen) rest

end Pass

/-- `route_cooldown`. -/
def dispatchCooldown (dryRun : Bool) : ℕ := if dryRun then fromSecs 120 else routeCooldown

/-- What a pass finds before its first candidate. -/
structure PassAnswers (Log : Type) where
  dryRun : Bool
  hfMaxDispatch : ℕ
  shutdown : Bool
  executor : Bool
  simulation : Bool
  now : Instant
  gasPrice : Bool
  maticUsd : Bool
  /-- The generation of the states after the refresh, unless it fails. -/
  refreshed : Option ℕ
  turns : HfEvalResult → DispatchTurn Log
  resyncPending : Except String Nonce

section Dispatch

variable {Log : Type} (answers : PassAnswers Log)

/-- A route that may be tried now. -/
def usable (svc : ExecutionService) (r : HfEvalResult) : Bool :=
  !cycleEdgesQuarantined svc.risk.quarantine r.cycle.edges answers.now &&
    !(svc.lastSubmit r.cycle.edges).any fun last => answers.now - last < dispatchCooldown answers.dryRun

/-- The routes of a pass, each once. -/
def dispatchable (svc : ExecutionService) (profitable : List HfEvalResult) : List HfEvalResult :=
  firstPerRoute [] (profitable.filter (usable answers svc))

/-- `dispatch_with_provider`. -/
def dispatchWithProvider (svc : ExecutionService) (profitable : List HfEvalResult) :
    Run (ExecutionService × List Visit) :=
  if svc.risk.globalQuarantineUntil.any fun expiry => answers.now < expiry then some (svc, [])
  else if answers.gasPrice = false ∨ answers.maticUsd = false then some (svc, [])
  else
    match answers.refreshed with
    | none => some (svc, [])
    | some generation =>
        dispatchLoop answers.dryRun generation answers.turns svc
          (dispatchQueue answers.hfMaxDispatch (dispatchable answers svc profitable)).reverse

/-- `dispatch_profitable_candidates`; a live pass ends with a resync. -/
def dispatchProfitableCandidates (svc : ExecutionService) (profitable : List HfEvalResult) :
    Run (ExecutionService × List Visit) :=
  if profitable.isEmpty || answers.shutdown then some (svc, [])
  else if answers.executor = false ∨ answers.simulation = false then some (svc, [])
  else
    (dispatchWithProvider answers svc profitable).map fun (svc, visits) =>
      if answers.dryRun then (svc, visits) else ((svc.shutdownResync answers.resyncPending).1, visits)

end Dispatch

/-! ## The routes of a pass -/

lemma firstPerRoute_sublist (seen : List (List Edge)) (rs : List HfEvalResult) :
    (firstPerRoute seen rs).Sublist rs := by
  induction rs generalizing seen with
  | nil => exact List.Sublist.slnil
  | cons r rest ih =>
      rw [firstPerRoute]
      split_ifs
      · exact (ih seen).cons r
      · exact (ih _).cons_cons r

lemma notMem_of_firstPerRoute {seen : List (List Edge)} {rs : List HfEvalResult} {r : HfEvalResult}
    (hr : r ∈ firstPerRoute seen rs) : r.cycle.edges ∉ seen := by
  induction rs generalizing seen with
  | nil => simp [firstPerRoute] at hr
  | cons first rest ih =>
      rw [firstPerRoute] at hr
      split_ifs at hr with hseen
      · exact ih hr
      · rcases List.mem_cons.mp hr with rfl | hrest
        · exact hseen
        · exact List.not_mem_of_not_mem_cons (ih hrest)

lemma nodup_firstPerRoute (seen : List (List Edge)) (rs : List HfEvalResult) :
    ((firstPerRoute seen rs).map fun r => r.cycle.edges).Nodup := by
  induction rs generalizing seen with
  | nil => simp [firstPerRoute]
  | cons r rest ih =>
      rw [firstPerRoute]
      split_ifs
      · exact ih seen
      · rw [List.map_cons, List.nodup_cons]
        refine ⟨?_, ih _⟩
        intro hmem
        obtain ⟨r', hr', hedges⟩ := List.mem_map.mp hmem
        have hnew := notMem_of_firstPerRoute hr'
        rw [hedges] at hnew
        exact hnew List.mem_cons_self

/-! ## An accepted transaction ends a live pass -/

/-- The node has returned the hash of a transaction. -/
def Processed.Taken (p : Processed) : Prop := ∃ n, .accepted n ∈ p.events

section Taken

variable {Log : Type} {w : CandidateWorld Log} {svc : ExecutionService} {c : CandidateExecution}
  {mgr : NonceManager} {n : Nonce} {p : Processed} {answers : SubmitAnswers} {gasLimit left : ℕ}
  {fees : SubmitFees} {s : Submission}

/-- An error is not returned once a hash is. -/
lemma not_accepted_of_error {e : SubmitError × String}
    (h : submitAttempts answers gasLimit left mgr n fees = some s) (herror : s.result = .error e) (m : Nonce) :
    .accepted m ∉ s.events := by
  refine submitAttempts_rule (P := fun _ _ _ _ s => ∀ e, s.result = .error e → .accepted m ∉ s.events)
    ?_ ?_ ?_ ?_ ?_ h e herror
  · exact fun _ _ _ => List.not_mem_nil
  · exact fun _ herror => by contradiction
  · exact fun _ _ _ => by simp
  · intro attempts left mgr n fees e result hretry e' herror
    rcases retryAfter_cases hretry with ⟨_, rest, heq, hevents, hrest⟩ | ⟨_, _, _, _, heq, -⟩
    · cases heq
      rw [hevents]
      rcases hrest with (rfl | rfl) | ⟨rfl, hok⟩
      · simp
      · simp
      · rw [hok] at herror
        cases herror
    · cases heq
  · intro attempts left mgr n fees e mgr' n' fees' events s hretry ih e' herror
    rcases retryAfter_cases hretry with ⟨_, _, heq, -⟩ | ⟨_, _, _, rest, heq, hrest⟩
    · cases heq
    · cases heq
      rw [Submission.after, List.mem_append]
      rintro (hbefore | hlater)
      · rcases hrest with ⟨rfl, -⟩ | ⟨rfl, -⟩ <;> simp at hbefore
      · exact ih e' herror hlater

lemma ends_finalizeReceipt (receipt : ReceiptData Log) :
    endsDispatch false (svc.finalizeReceipt w c gasLimit receipt).2 = true := by
  rw [ExecutionService.finalizeReceipt]
  split_ifs
  · rfl
  · rfl

lemma ends_finalize {receipt : ReceiptData Log}
    (h : svc.finalizeReceiptAndMaybeSweep w c mgr n gasLimit receipt = some p) :
    endsDispatch false p.outcome = true := by
  have hends : endsDispatch false (svc.finalizeReceipt w c gasLimit receipt).2 = true := ends_finalizeReceipt receipt
  simp only [ExecutionService.finalizeReceiptAndMaybeSweep] at h
  split at h
  · split_ifs at h
    · rw [Option.some.injEq] at h
      subst h
      exact hends
    · obtain ⟨_, -, rfl⟩ := Option.map_eq_some_iff.mp h
      exact hends
  · rw [Option.some.injEq] at h
    subst h
    exact hends

/-- After the node has taken the transaction the outcome ends a live pass, or the receipt cannot be had. -/
lemma ends_afterSubmit {plan : ExecutionService.SubmitPlan} (h : svc.afterSubmit w c mgr n plan = some p) :
    endsDispatch false p.outcome = true ∨ ∃ reason, w.receipt = .rpcFailure reason := by
  simp only [ExecutionService.afterSubmit] at h
  split at h
  · exact .inl (ends_finalize h)
  · rw [Option.some.injEq] at h
    subst h
    exact .inl rfl
  · next reason hreceipt => exact .inr ⟨reason, hreceipt⟩
  · left
    split_ifs at h
    · rw [Option.some.injEq] at h
      subst h
      rfl
    · simp only [ExecutionService.afterReceiptTimeout] at h
      split at h
      · exact ends_finalize h
      · rw [Option.some.injEq] at h
        subst h
        rfl
      · rw [Option.some.injEq] at h
        subst h
        rfl

lemma ends_of_taken (hclock : w.clock.Ordered) (hrun : svc.processCandidate w c = some p) (htaken : p.Taken) :
    endsDispatch false p.outcome = true ∨ ∃ reason, w.receipt = .rpcFailure reason := by
  obtain ⟨m, hm⟩ := htaken
  rcases processCandidate_cases hclock hrun with
    ⟨hevents, -⟩ | ⟨head, plan, ready, pendingAhead, -, hsubmit⟩
  · simp [hevents] at hm
  rcases submitPlanned_cases hsubmit with
    ⟨hquiet, -⟩ | ⟨before, mgr, nonce, s, p', hbefore, hs, rfl, ⟨e, hresult, rfl⟩ | hp'⟩
  · cases hquiet _ hm
  · have hclean : .accepted m ∉ before := fun hmem => hbefore _ hmem
    have hnone := not_accepted_of_error hs hresult m
    simp [ExecutionService.afterSubmitError, ExecutionService.ended, hclean, hnone] at hm
  · have hends := ends_afterSubmit hp'
    exact hends

end Taken

/-! ## The loop -/

section Loop

variable {Log : Type} {dryRun : Bool} {generation : ℕ} {turns : HfEvalResult → DispatchTurn Log}
  {svc svc' : ExecutionService} {queue : List HfEvalResult} {visits : List Visit}

/-- What a run of the loop has done: the front of the queue was tried, the flags were as at the start, and no
call but the last has ended the pass. -/
structure Tried (dryRun : Bool) (generation : ℕ) (turns : HfEvalResult → DispatchTurn Log)
    (queue : List HfEvalResult) (visits : List Visit) : Prop where
  front : visits.map Visit.result <+: queue
  running : ∀ v ∈ visits, (turns v.result).shutdown = false ∧ (turns v.result).generation = generation
  called : ∀ v ∈ visits, ∀ p, v.call = some p → ∃ (svc : ExecutionService) (c : CandidateExecution),
    (turns v.result).prepared = some c ∧ svc.processCandidate (turns v.result).world c = some p
  goesOn : ∀ v ∈ visits.dropLast, ∀ p, v.call = some p → endsDispatch dryRun p.outcome = false

lemma tried_nil (queue : List HfEvalResult) : Tried dryRun generation turns queue [] :=
  ⟨List.nil_prefix, by simp, by simp, by simp⟩

/-- One route more in front. -/
lemma Tried.cons {r : HfEvalResult} {rest : List HfEvalResult} {call : Option Processed}
    (h : Tried dryRun generation turns rest visits)
    (hrunning : (turns r).shutdown = false ∧ (turns r).generation = generation)
    (hcalled : ∀ p, call = some p → ∃ (svc : ExecutionService) (c : CandidateExecution),
      (turns r).prepared = some c ∧ svc.processCandidate (turns r).world c = some p)
    (hgoesOn : visits ≠ [] → ∀ p, call = some p → endsDispatch dryRun p.outcome = false) :
    Tried dryRun generation turns (r :: rest) (⟨r, call⟩ :: visits) := by
  refine ⟨?_, ?_, ?_, ?_⟩
  · rw [List.map_cons, List.cons_prefix_cons]
    exact ⟨rfl, h.front⟩
  · exact List.forall_mem_cons.mpr ⟨hrunning, h.running⟩
  · exact List.forall_mem_cons.mpr ⟨hcalled, h.called⟩
  · cases visits with
    | nil => simp
    | cons v later =>
        rw [List.dropLast_cons_cons]
        exact List.forall_mem_cons.mpr ⟨hgoesOn (List.cons_ne_nil v later), h.goesOn⟩

lemma called_of_dispatchOne {r : HfEvalResult} {call : Option Processed}
    (h : dispatchOneCandidate svc r (turns r) = some (svc', call)) (p : Processed) (hp : call = some p) :
    ∃ (svc : ExecutionService) (c : CandidateExecution),
      (turns r).prepared = some c ∧ svc.processCandidate (turns r).world c = some p := by
  rw [dispatchOneCandidate] at h
  split at h
  · rw [Option.some.injEq, Prod.mk.injEq] at h
    simp [← h.2] at hp
  · next c hprepared =>
    split_ifs at h
    · rw [Option.some.injEq, Prod.mk.injEq] at h
      simp [← h.2] at hp
    · obtain ⟨p', hp', heq⟩ := Option.map_eq_some_iff.mp h
      rw [Prod.mk.injEq] at heq
      rw [hp, Option.some.injEq] at heq
      rw [← heq.2]
      exact ⟨svc, c, hprepared, hp'⟩

lemma tried_dispatchLoop (h : dispatchLoop dryRun generation turns svc queue = some (svc', visits)) :
    Tried dryRun generation turns queue visits := by
  have hstop : ∀ {svc₁ svc₂ : ExecutionService} {queue : List HfEvalResult} {visits : List Visit},
      some (svc₁, ([] : List Visit)) = some (svc₂, visits) → Tried dryRun generation turns queue visits := by
    intro svc₁ svc₂ queue visits heq
    rw [Option.some.injEq, Prod.mk.injEq] at heq
    rw [← heq.2]
    exact tried_nil queue
  induction queue generalizing svc svc' visits with
  | nil => exact hstop h
  | cons r rest ih =>
      rw [dispatchLoop] at h
      split_ifs at h with hshutdown hgeneration
      · exact hstop h
      · exact hstop h
      · obtain ⟨⟨svc₁, call⟩, hone, h⟩ := Option.bind_eq_some_iff.mp h
        have hrunning : (turns r).shutdown = false ∧ (turns r).generation = generation :=
          ⟨by simpa using hshutdown, not_not.mp hgeneration⟩
        have hcalled := called_of_dispatchOne hone
        dsimp only at h
        split_ifs at h with hends
        · rw [Option.some.injEq, Prod.mk.injEq] at h
          rw [← h.2]
          exact (tried_nil rest).cons hrunning hcalled (by simp)
        · obtain ⟨⟨svc₂, later⟩, hlater, heq⟩ := Option.map_eq_some_iff.mp h
          rw [Prod.mk.injEq] at heq
          rw [← heq.2]
          refine (ih hlater).cons hrunning hcalled ?_
          rintro - p rfl
          simpa using hends

end Loop

/-! ## The whole pass -/

/-- What holds of the routes a pass has tried. -/
structure Dispatched {Log : Type} (answers : PassAnswers Log) (svc : ExecutionService)
    (profitable : List HfEvalResult) (visits : List Visit) : Prop where
  /-- The more profitable first. -/
  order : visits.Pairwise fun v v' =>
    v'.result.netProfitAfterGasMaticWei.toNat ≤ v.result.netProfitAfterGasMaticWei.toNat
  routes : (visits.map fun v => v.result.cycle.edges).Nodup
  usable : ∀ v ∈ visits, v.result ∈ profitable ∧ usable answers svc v.result = true
  running : ∀ v ∈ visits, (answers.turns v.result).shutdown = false ∧
    answers.refreshed = some (answers.turns v.result).generation
  goesOn : ∀ v ∈ visits.dropLast, ∀ p, v.call = some p → endsDispatch answers.dryRun p.outcome = false
  taken : answers.dryRun = false → ∀ v ∈ visits.dropLast, ∀ p, v.call = some p → p.Taken →
    ∃ reason, (answers.turns v.result).world.receipt = .rpcFailure reason
  /-- A route that was left is not more profitable than one that was tried. -/
  left : profitable.length ≤ answers.hfMaxDispatch → ∀ r ∈ dispatchable answers svc profitable,
    r ∈ visits.map Visit.result ∨ ∀ v ∈ visits,
      r.netProfitAfterGasMaticWei.toNat ≤ v.result.netProfitAfterGasMaticWei.toNat

section Whole

variable {Log : Type} {answers : PassAnswers Log} {svc svc' : ExecutionService}
  {profitable : List HfEvalResult} {visits : List Visit}

lemma dispatched_nil (h : some (svc, []) = some (svc', visits)) : Dispatched answers svc profitable visits := by
  rw [Option.some.injEq, Prod.mk.injEq] at h
  rw [← h.2]
  exact ⟨List.Pairwise.nil, by simp, by simp, by simp, by simp, by simp, by simp⟩

/-- What the queue holds came from the routes of the pass; with room for all of them it holds them all. -/
lemma dispatchQueue_sublist (capacity : ℕ) (routes : List HfEvalResult) :
    ∃ rest, (dispatchQueue capacity routes ++ rest).Perm routes ∧
      (dispatchQueue capacity routes).Pairwise (fun a b => dispatchKey a ≤ dispatchKey b) ∧
      (routes.length ≤ capacity → rest = []) := by
  by_cases hcapacity : capacity = 0
  · have hpush : pushDispatch capacity = fun items _ => items := by
      funext items item
      rw [pushDispatch, if_pos hcapacity]
    have hnone : dispatchQueue capacity routes = [] := by
      rw [dispatchQueue, hpush, List.foldl_fixed]
    rw [hnone]
    refine ⟨routes, .refl _, List.Pairwise.nil, ?_⟩
    intro hle
    exact List.eq_nil_of_length_eq_zero (by omega)
  · obtain ⟨hsorted, -, rest, hperm, -, hfull⟩ := dispatchQueue_kept capacity routes hcapacity
    refine ⟨rest, hperm, hsorted, ?_⟩
    intro hle
    by_contra hne
    have hlength := hperm.length_eq
    rw [List.length_append, hfull hne] at hlength
    have hpos := List.length_pos_of_ne_nil hne
    omega

lemma dispatched_of_tried {generation : ℕ} (hclock : ∀ r, (answers.turns r).world.clock.Ordered)
    (hrefreshed : answers.refreshed = some generation)
    (h : Tried answers.dryRun generation answers.turns
      (dispatchQueue answers.hfMaxDispatch (dispatchable answers svc profitable)).reverse visits) :
    Dispatched answers svc profitable visits := by
  obtain ⟨rest, hperm, hsorted, hall⟩ :=
    dispatchQueue_sublist answers.hfMaxDispatch (dispatchable answers svc profitable)
  set routes := dispatchable answers svc profitable with hroutes
  set queue := dispatchQueue answers.hfMaxDispatch routes with hqueue
  have hsub : routes.Sublist (profitable.filter (usable answers svc)) := firstPerRoute_sublist [] _
  have hmemRoutes : ∀ r ∈ queue, r ∈ routes := fun r hr =>
    hperm.mem_iff.mp (List.mem_append_left _ hr)
  have hmem : ∀ v ∈ visits, v.result ∈ queue := by
    intro v hv
    exact List.mem_reverse.mp (h.front.subset (List.mem_map_of_mem hv))
  have hqueueEdges : (queue.map fun r => r.cycle.edges).Nodup := by
    have hrouteEdges : (routes.map fun r => r.cycle.edges).Nodup := nodup_firstPerRoute [] _
    have hboth := (hperm.map fun r => r.cycle.edges).nodup_iff.mpr hrouteEdges
    rw [List.map_append] at hboth
    exact hboth.of_append_left
  have hdescending : queue.reverse.Pairwise fun a b =>
      b.netProfitAfterGasMaticWei.toNat ≤ a.netProfitAfterGasMaticWei.toNat := by
    rw [List.pairwise_reverse]
    exact hsorted.imp netProfit_le_of_dispatchKey
  refine ⟨?_, ?_, ?_, ?_, h.goesOn, ?_, ?_⟩
  · exact List.pairwise_map.mp (hdescending.sublist h.front.sublist)
  · have hreverse : (queue.reverse.map fun r => r.cycle.edges).Nodup := by
      rw [List.map_reverse]
      exact List.nodup_reverse.mpr hqueueEdges
    have hfront : ((visits.map Visit.result).map fun r => r.cycle.edges).Nodup :=
      hreverse.sublist (h.front.sublist.map _)
    rwa [List.map_map] at hfront
  · intro v hv
    exact List.mem_filter.mp (hsub.subset (hmemRoutes _ (hmem v hv)))
  · intro v hv
    obtain ⟨hshutdown, hgeneration⟩ := h.running v hv
    exact ⟨hshutdown, by rw [hrefreshed, hgeneration]⟩
  · intro hlive v hv p hp htaken
    obtain ⟨svc₁, c, -, hrun⟩ := h.called v (List.dropLast_subset visits hv) p hp
    have hgoesOn := h.goesOn v hv p hp
    rw [hlive] at hgoesOn
    rcases ends_of_taken (hclock v.result) hrun htaken with hends | hfailed
    · simp [hends] at hgoesOn
    · exact hfailed
  · intro hroom r hr
    have hlength : routes.length ≤ answers.hfMaxDispatch :=
      (hsub.length_le.trans (List.length_filter_le _ _)).trans hroom
    have hinQueue : r ∈ queue.reverse := by
      rw [hall hlength, List.append_nil] at hperm
      exact List.mem_reverse.mpr (hperm.mem_iff.mpr hr)
    obtain ⟨later, hlater⟩ := h.front
    rw [← hlater] at hinQueue hdescending
    rcases List.mem_append.mp hinQueue with htried | hleft
    · exact .inl htried
    · refine .inr ?_
      intro v hv
      exact (List.pairwise_append.mp hdescending).2.2 _ (List.mem_map_of_mem hv) r hleft

lemma dispatched_of_provider (hclock : ∀ r, (answers.turns r).world.clock.Ordered)
    (hrun : dispatchWithProvider answers svc profitable = some (svc', visits)) :
    Dispatched answers svc profitable visits := by
  rw [dispatchWithProvider] at hrun
  split_ifs at hrun
  · exact dispatched_nil hrun
  · exact dispatched_nil hrun
  · split at hrun
    · exact dispatched_nil hrun
    · next generation hrefreshed => exact dispatched_of_tried hclock hrefreshed (tried_dispatchLoop hrun)

/-- A pass tries its routes by profit, each once, and in a live pass nothing after a transaction was taken. -/
theorem dispatch_pass (hclock : ∀ r, (answers.turns r).world.clock.Ordered)
    (hrun : dispatchProfitableCandidates answers svc profitable = some (svc', visits)) :
    Dispatched answers svc profitable visits := by
  rw [dispatchProfitableCandidates] at hrun
  split_ifs at hrun
  · exact dispatched_nil hrun
  · exact dispatched_nil hrun
  · obtain ⟨⟨svc₁, visits₁⟩, hdispatch, heq⟩ := Option.map_eq_some_iff.mp hrun
    rw [← (Prod.mk.inj heq).2]
    exact dispatched_of_provider hclock hdispatch
  · obtain ⟨⟨svc₁, visits₁⟩, hdispatch, heq⟩ := Option.map_eq_some_iff.mp hrun
    rw [← (Prod.mk.inj heq).2]
    exact dispatched_of_provider hclock hdispatch

/-! Three routes, two of them the same one; the receipt of the first does not come in time. -/

def evaluatedRoute (edges : List Edge) (profit : U256) : HfEvalResult :=
  ⟨⟨0, edges, edges.length, 0, 0, 0, 0⟩, profit, 0⟩

def firstEdge : Edge := ⟨0, 0, 1, 0, 1, .uniswapV2, 30, true⟩

open ServiceRun in
def latePass : PassAnswers Unit where
  dryRun := false
  hfMaxDispatch := 4
  shutdown := false
  executor := true
  simulation := true
  now := 0
  gasPrice := true
  maticUsd := true
  refreshed := some 0
  turns := fun r => ⟨false, 0, some { oneRoute with routeEdges := r.cycle.edges }, false, 0, lateReceipt 0 5⟩
  resyncPending := .ok 6

def lateRoutes : List HfEvalResult :=
  [evaluatedRoute [firstEdge] 3, evaluatedRoute [] 5, evaluatedRoute [] 4]

/-- The queue is in order as it is filled. -/
lemma dispatchQueue_late : dispatchQueue 4 (dispatchable latePass ServiceRun.idleRun.svc lateRoutes) =
    [evaluatedRoute [firstEdge] 3, evaluatedRoute [] 5] := by
  have hroutes : dispatchable latePass ServiceRun.idleRun.svc lateRoutes =
      [evaluatedRoute [firstEdge] 3, evaluatedRoute [] 5] := rfl
  have hfirst : pushDispatch 4 [] (evaluatedRoute [firstEdge] 3) = [evaluatedRoute [firstEdge] 3] := by
    simp [pushDispatch]
  have hsecond : pushDispatch 4 [evaluatedRoute [firstEdge] 3] (evaluatedRoute [] 5) =
      [evaluatedRoute [firstEdge] 3, evaluatedRoute [] 5] := by
    rw [pushDispatch, if_neg (by decide), List.singleton_append, List.mergeSort_of_pairwise]
    · rfl
    · rw [List.pairwise_pair]
      rfl
  rw [hroutes, dispatchQueue, List.foldl_cons, List.foldl_cons, List.foldl_nil, hfirst, hsecond]

open ServiceRun in
theorem dispatch_pass_late : ∃ svc' visits,
    dispatchProfitableCandidates latePass idleRun.svc lateRoutes = some (svc', visits) ∧
    visits.map (fun v => (v.result.netProfitAfterGasMaticWei, v.call.map Processed.outcome)) =
      [(5, some .receiptTimeout)] ∧
    Dispatched latePass idleRun.svc lateRoutes visits := by
  have hloop : (dispatchLoop false 0 latePass.turns idleRun.svc
      [evaluatedRoute [firstEdge] 3, evaluatedRoute [] 5].reverse).map
      (fun x => x.2.map fun v => (v.result.netProfitAfterGasMaticWei, v.call.map Processed.outcome)) =
      some [(5, some .receiptTimeout)] := by decide +kernel
  obtain ⟨⟨svc₁, visits⟩, hvisits, hfacts⟩ := Option.map_eq_some_iff.mp hloop
  rw [← dispatchQueue_late] at hvisits
  have hpass : dispatchProfitableCandidates latePass idleRun.svc lateRoutes =
      some ((svc₁.shutdownResync (.ok 6)).1, visits) := by
    have hprovider : dispatchWithProvider latePass idleRun.svc lateRoutes = some (svc₁, visits) := hvisits
    show (dispatchWithProvider latePass idleRun.svc lateRoutes).map _ = _
    rw [hprovider]
    rfl
  have hclock : ∀ r, (latePass.turns r).world.clock.Ordered := fun _ => ordered_lateReceipt 0 5
  exact ⟨_, visits, hpass, hfacts, dispatch_pass hclock hpass⟩

end Whole

end PolygonArb

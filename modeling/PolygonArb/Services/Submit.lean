import Mathlib.Logic.Function.Basic
import Mathlib.Tactic.Common
import PolygonArb.Services.Nonce

/-!
# Submission with recovery

`submit_with_recovery` of `services/execution/submit.rs`, as a small-step machine.  A run reserves a
nonce, sends, and on a nonce error releases its nonce, asks the node for the pending nonce, resyncs
the manager and reserves again.  Every label of `SubmitWorld.step` is one lock acquisition or one
answer of the node, so a run of the machine is an interleaving of any number of submissions over one
`NonceManager`, with the node answering as it likes.

`resync` clears the reservations of *every* run.  Another run that still holds a nonce at or above
the pending nonce then loses it to whoever reserves next (`resync_duplicates_nonce`).
`holds_unique` says that this, and a caller that gives back a nonce its failed run had already
released, are the only ways two runs come to hold one nonce.
-/

namespace PolygonArb

open Word Transition

structure SubmitFees where
  maxFeePerGas : U256
  maxPriorityFeePerGas : U256
  deriving DecidableEq

/-- Fee bump on a resubmission, in basis points (`FEE_BUMP_BPS`). -/
def feeBumpBps : ℕ := 1500

def maxSubmitAttempts : ℕ := 3

def bumpFees (fees : SubmitFees) (bumpBps : ℕ) : SubmitFees :=
  let num : U256 := BitVec.ofNat 256 (10000 + bumpBps)
  { maxFeePerGas := fees.maxFeePerGas * num / 10000#256
    maxPriorityFeePerGas := fees.maxPriorityFeePerGas * num / 10000#256 }

/-- What changes between the transactions of one run: target, calldata, value and gas limit stay. -/
structure TransactionRequest where
  nonce : Nonce
  maxFeePerGas : BitVec 128
  maxPriorityFeePerGas : BitVec 128
  deriving DecidableEq

def u256ToU128 (v : U256) : Option (BitVec 128) :=
  if v.toNat < 2 ^ 128 then some (v.truncate 128) else none

def buildTransactionRequest (nonce : Nonce) (fees : SubmitFees) : Option TransactionRequest := do
  let maxFee ← u256ToU128 fees.maxFeePerGas
  let priorityFee ← u256ToU128 fees.maxPriorityFeePerGas
  pure ⟨nonce, maxFee, priorityFee⟩

/-- What `classify_submit_error` makes of an error text. -/
inductive SubmitAction
  | resyncAndRetry
  | bumpFeesAndRetry
  | alreadyKnown
  | insufficientFunds
  | fail
  deriving DecidableEq

/-- A failed send: its classification, and whether a transaction hash can be read out of it. -/
structure SubmitError where
  action : SubmitAction
  hashFound : Bool
  deriving DecidableEq

/-- Where a submission stands.  `attempts` counts the sends begun. -/
inductive SubmitPhase
  | idle
  /-- `submit_transaction` is awaited. -/
  | sending (nonce : Nonce) (fees : SubmitFees) (attempts : ℕ)
  /-- A nonce error came back; `release` is next. -/
  | releasing (nonce : Nonce) (fees : SubmitFees) (attempts : ℕ)
  /-- The pending nonce is awaited. -/
  | awaitingPending (nonce : Nonce) (fees : SubmitFees) (attempts : ℕ)
  /-- The node has answered; the manager's lock is next. -/
  | resyncing (nonce : Nonce) (fees : SubmitFees) (attempts : ℕ) (pending : Nonce)
  /-- `next_nonce` is next. -/
  | reserving (nonce : Nonce) (fees : SubmitFees) (attempts : ℕ)
  /-- Returned a hash. -/
  | sent (nonce : Nonce)
  /-- Returned an error with this nonce in the caller's variable. -/
  | failed (nonce : Nonce)
  /-- Sent, no receipt in time: the caller has marked the nonce stale. -/
  | gaveUp (nonce : Nonce)
  | done
  deriving DecidableEq

namespace SubmitPhase

/-- The top of the loop: build the transaction and send it. -/
def beginAttempt (nonce : Nonce) (fees : SubmitFees) (attempts : ℕ) : SubmitPhase :=
  match buildTransactionRequest nonce fees with
  | none => .failed nonce
  | some _ => .sending nonce fees (attempts + 1)

/-- The error arm of the loop. -/
def afterError (nonce : Nonce) (fees : SubmitFees) (attempts : ℕ) (e : SubmitError) :
    SubmitPhase :=
  if maxSubmitAttempts ≤ attempts then .failed nonce
  else
    match e.action with
    | .resyncAndRetry => .releasing nonce fees attempts
    | .bumpFeesAndRetry => beginAttempt nonce (bumpFees fees feeBumpBps) attempts
    | .alreadyKnown => if e.hashFound then .sent nonce else .failed nonce
    | .insufficientFunds => .failed nonce
    | .fail => .failed nonce

end SubmitPhase

/-- One step of one submission, or of the chain. -/
inductive SubmitEvent
  /-- The caller reserves a nonce and calls `submit_with_recovery`. -/
  | begin (run : ℕ) (fees : SubmitFees)
  | sendOk (run : ℕ)
  /-- The send fails, though the node may have taken the transaction. -/
  | sendErr (run : ℕ) (taken : Bool) (e : SubmitError)
  | release (run : ℕ)
  | pendingOk (run : ℕ) (pending : Nonce)
  | pendingErr (run : ℕ)
  | resync (run : ℕ)
  | reserve (run : ℕ)
  /-- The caller sees the receipt. -/
  | confirm (run : ℕ)
  /-- The caller's wait for the receipt ends without one. -/
  | giveUp (run : ℕ)
  /-- The caller of a failed run gives its nonce back, or marks it stale. -/
  | abandon (run : ℕ) (stale : Bool)
  /-- The chain includes the next transaction. -/
  | mine

/-- The manager, the submissions, and the node: `mined` is the account's nonce on chain, `accepted`
what the node has taken into its pool. -/
structure SubmitWorld where
  mgr : NonceManager
  run : ℕ → SubmitPhase
  mined : Nonce
  accepted : Finset Nonce

namespace SubmitWorld

/-- Nothing submitted yet, and a manager initialised from the node. -/
def fresh (pending mined : Nonce) : SubmitWorld :=
  ⟨NonceManager.new.adoptPending pending, fun _ => .idle, mined, ∅⟩

def setRun (w : SubmitWorld) (r : ℕ) (ph : SubmitPhase) : SubmitWorld :=
  { w with run := Function.update w.run r ph }

/-- A pending nonce the node can report: it has a transaction for every nonce below it. -/
def pendingConsistent (w : SubmitWorld) (pending : Nonce) : Bool :=
  (List.range pending.val).all fun i =>
    decide (i < w.mined.val) || decide (Fin.ofNat (2 ^ 64) i ∈ w.accepted)

def step (w : SubmitWorld) : SubmitEvent → Option SubmitWorld
  | .begin r fees =>
      match w.run r, w.mgr.nextNonce with
      | .idle, some (.ok n, mgr) => some ({ w with mgr := mgr }.setRun r (.beginAttempt n fees 0))
      | _, _ => none
  | .sendOk r =>
      match w.run r with
      | .sending n _ _ => some ({ w with accepted := insert n w.accepted }.setRun r (.sent n))
      | _ => none
  | .sendErr r taken e =>
      match w.run r with
      | .sending n fees attempts =>
          let accepted := if taken then insert n w.accepted else w.accepted
          some ({ w with accepted := accepted }.setRun r (.afterError n fees attempts e))
      | _ => none
  | .release r =>
      match w.run r with
      | .releasing n fees attempts =>
          some ({ w with mgr := w.mgr.release n }.setRun r (.awaitingPending n fees attempts))
      | _ => none
  | .pendingOk r pending =>
      match w.run r with
      | .awaitingPending n fees attempts =>
          if w.pendingConsistent pending then
            some (w.setRun r (.resyncing n fees attempts pending))
          else none
      | _ => none
  | .pendingErr r =>
      match w.run r with
      | .awaitingPending n _ _ => some (w.setRun r (.failed n))
      | _ => none
  | .resync r =>
      match w.run r with
      | .resyncing n fees attempts pending =>
          some ({ w with mgr := w.mgr.adoptPending pending }.setRun r (.reserving n fees attempts))
      | _ => none
  | .reserve r =>
      match w.run r, w.mgr.nextNonce with
      | .reserving _ fees attempts, some (.ok n, mgr) =>
          some ({ w with mgr := mgr }.setRun r (.beginAttempt n fees attempts))
      | .reserving n _ _, some (.error _, mgr) =>
          some ({ w with mgr := mgr }.setRun r (.failed n))
      | _, _ => none
  | .confirm r =>
      match w.run r with
      | .sent n =>
          if n < w.mined then some ({ w with mgr := w.mgr.confirm n }.setRun r .done) else none
      | _ => none
  | .giveUp r =>
      match w.run r with
      | .sent n => some ({ w with mgr := w.mgr.markStale n }.setRun r (.gaveUp n))
      | _ => none
  | .abandon r stale =>
      match w.run r with
      | .failed n =>
          let mgr := if stale then w.mgr.markStale n else w.mgr.release n
          some ({ w with mgr := mgr }.setRun r .done)
      | _ => none
  | .mine =>
      if w.mined ∈ w.accepted ∧ w.mined.val + 1 < 2 ^ 64 then
        some { w with mined := w.mined + 1 }
      else none

end SubmitWorld

/-! ## Holding a nonce -/

/-- The submission is still trying to send with nonce `n`, or has sent it and it is unconfirmed. -/
def SubmitPhase.Holds (mined : Nonce) (n : Nonce) : SubmitPhase → Prop
  | .sending m _ _ => m = n
  | .releasing m _ _ => m = n
  | .sent m => m = n
  | .gaveUp m => m = n ∧ mined ≤ n
  | _ => False

namespace SubmitWorld

def Holds (w : SubmitWorld) (r : ℕ) (n : Nonce) : Prop := (w.run r).Holds w.mined n

/-- No other run holds a nonce the step takes away: a resync finds every nonce that another run
holds below the pending nonce it adopts, and the nonce of a failed run is not held by another run
when its caller settles it.  Reserving finds a nonce above the counter. -/
def Undisturbed (w : SubmitWorld) : SubmitEvent → Prop
  | .begin _ _ | .reserve _ =>
      ∃ m, w.mgr.state.localNonce ≤ m ∧ m ∉ w.mgr.state.inFlight ∧ m ∉ w.mgr.state.stale
  | .resync r =>
      ∀ n fees attempts pending, w.run r = .resyncing n fees attempts pending →
        ∀ r' ≠ r, ∀ m, w.Holds r' m → m < pending
  | .abandon r _ => ∀ n, w.run r = .failed n → ∀ r' ≠ r, ¬ w.Holds r' n
  | _ => True

end SubmitWorld

/-! ## The invariant

`floor` is the pending nonce of the last resync.  Nothing below it is handed out any more, so a
nonce that some run still holds is safe when it is below `floor`, in flight, or stale. -/

/-- Why the nonce a submission holds cannot be handed out. -/
def SubmitPhase.Covered (s : NonceState) (floor mined : Nonce) : SubmitPhase → Prop
  | .sending n _ _ => n ∈ s.inFlight ∨ n < floor
  | .releasing n _ _ => n ∈ s.inFlight ∨ n < floor
  | .sent n => n ∈ s.inFlight ∨ n < floor
  | .gaveUp n => mined ≤ n → n ∈ s.stale ∨ n < floor
  | _ => True

namespace SubmitPhase

variable {ph : SubmitPhase} {s : NonceState} {floor mined n : Nonce}

lemma Covered.of_holds (h : ph.Covered s floor mined) (hn : ph.Holds mined n) :
    n ∈ s.inFlight ∨ n ∈ s.stale ∨ n < floor := by
  cases ph <;> simp only [Covered, Holds] at h hn
  case sending m _ _ => subst hn; exact h.imp_right .inr
  case releasing m _ _ => subst hn; exact h.imp_right .inr
  case sent m => subst hn; exact h.imp_right .inr
  case gaveUp m =>
    rcases hn with ⟨rfl, hm⟩
    exact .inr (h hm)

/-- Everything a submission holds is below the new floor. -/
lemma covered_of_lt (h : ∀ n, ph.Holds mined n → n < floor) : ph.Covered s floor mined := by
  cases ph with
  | sending n _ _ => exact .inr (h n rfl)
  | releasing n _ _ => exact .inr (h n rfl)
  | sent n => exact .inr (h n rfl)
  | gaveUp n => exact fun hm => .inr (h n ⟨rfl, hm⟩)
  | _ => trivial

/-- Cover survives when what is in flight or stale stays so for the nonces the submission holds. -/
lemma Covered.mono (h : ph.Covered s floor mined) {s' : NonceState}
    (hflight : ∀ n, ph.Holds mined n → n ∈ s.inFlight → n ∈ s'.inFlight)
    (hstale : ∀ n, ph.Holds mined n → n ∈ s.stale → n ∈ s'.stale ∨ n < floor) :
    ph.Covered s' floor mined := by
  cases ph with
  | sending n _ _ => exact h.imp_left (hflight n rfl)
  | releasing n _ _ => exact h.imp_left (hflight n rfl)
  | sent n => exact h.imp_left (hflight n rfl)
  | gaveUp n =>
      intro hm
      rcases h hm with hs | hlt
      · exact hstale n ⟨rfl, hm⟩ hs
      · exact .inr hlt
  | _ => trivial

lemma Covered.mined_le (h : ph.Covered s floor mined) {mined' : Nonce} (hle : mined ≤ mined') :
    ph.Covered s floor mined' := by
  cases ph with
  | gaveUp n => exact fun hm => h (hle.trans hm)
  | sending n _ _ => exact h
  | releasing n _ _ => exact h
  | sent n => exact h
  | _ => trivial

lemma Holds.of_mined_le {mined' : Nonce} (hle : mined ≤ mined') (h : ph.Holds mined' n) :
    ph.Holds mined n := by
  cases ph with
  | gaveUp m => exact ⟨h.1, hle.trans h.2⟩
  | sending _ _ _ => exact h
  | releasing _ _ _ => exact h
  | sent _ => exact h
  | _ => exact h

lemma beginAttempt_cases (n : Nonce) (fees : SubmitFees) (attempts : ℕ) :
    beginAttempt n fees attempts = .failed n ∨
      beginAttempt n fees attempts = .sending n fees (attempts + 1) := by
  unfold beginAttempt
  cases buildTransactionRequest n fees with
  | none => exact .inl rfl
  | some _ => exact .inr rfl

lemma afterError_cases (n : Nonce) (fees : SubmitFees) (attempts : ℕ) (e : SubmitError) :
    afterError n fees attempts e = .failed n ∨
      afterError n fees attempts e = .releasing n fees attempts ∨
      (∃ fees', afterError n fees attempts e = .sending n fees' (attempts + 1)) ∨
      afterError n fees attempts e = .sent n := by
  unfold afterError
  by_cases hmax : maxSubmitAttempts ≤ attempts
  · exact .inl (if_pos hmax)
  rw [if_neg hmax]
  cases e.action with
  | resyncAndRetry => exact .inr (.inl rfl)
  | bumpFeesAndRetry =>
      rcases beginAttempt_cases n (bumpFees fees feeBumpBps) attempts with h | h
      · exact .inl h
      · exact .inr (.inr (.inl ⟨_, h⟩))
  | alreadyKnown =>
      cases e.hashFound with
      | true => exact .inr (.inr (.inr rfl))
      | false => exact .inl rfl
  | insufficientFunds => exact .inl rfl
  | fail => exact .inl rfl

/-- Building and sending holds the nonce it was given, or nothing. -/
lemma holds_beginAttempt {fees : SubmitFees} {attempts : ℕ} {m : Nonce}
    (h : (beginAttempt n fees attempts).Holds mined m) : n = m := by
  rcases beginAttempt_cases n fees attempts with heq | heq <;> rw [heq] at h
  · exact h.elim
  · exact h

lemma covered_beginAttempt {fees : SubmitFees} {attempts : ℕ} (h : n ∈ s.inFlight ∨ n < floor) :
    (beginAttempt n fees attempts).Covered s floor mined := by
  rcases beginAttempt_cases n fees attempts with heq | heq <;> rw [heq]
  · trivial
  · exact h

lemma holds_afterError {fees : SubmitFees} {attempts : ℕ} {e : SubmitError} {m : Nonce}
    (h : (afterError n fees attempts e).Holds mined m) : n = m := by
  rcases afterError_cases n fees attempts e with heq | heq | ⟨fees', heq⟩ | heq <;> rw [heq] at h
  · exact h.elim
  · exact h
  · exact h
  · exact h

lemma covered_afterError {fees : SubmitFees} {attempts : ℕ} {e : SubmitError}
    (h : n ∈ s.inFlight ∨ n < floor) : (afterError n fees attempts e).Covered s floor mined := by
  rcases afterError_cases n fees attempts e with heq | heq | ⟨fees', heq⟩ | heq <;> rw [heq]
  · trivial
  · exact h
  · exact h
  · exact h

end SubmitPhase

namespace SubmitWorld

/-- The state of the manager and the runs since the last resync, at `floor`. -/
structure Guarded (w : SubmitWorld) (floor : Nonce) : Prop where
  minTracked : w.mgr.state.MinTracked
  floor_le_local : floor ≤ w.mgr.state.localNonce
  local_le : w.mgr.state.localNonce ≤ max floor w.mined
  floor_le_inFlight : ∀ n ∈ w.mgr.state.inFlight, floor ≤ n
  covered : ∀ r, (w.run r).Covered w.mgr.state floor w.mined
  unique : ∀ r r' n, w.Holds r n → w.Holds r' n → r = r'

variable {w w' : SubmitWorld} {floor : Nonce} {r : ℕ}

lemma guarded_fresh (pending mined : Nonce) : (fresh pending mined).Guarded pending where
  minTracked := (leastOf_eq_none_iff.mpr rfl).symm
  floor_le_local := le_rfl
  local_le := le_max_left _ _
  floor_le_inFlight := by
    intro n hn
    exact absurd hn (Finset.notMem_empty n)
  covered := fun _ => trivial
  unique := by
    intro r r' n h
    exact h.elim

lemma holds_of_run {ph : SubmitPhase} {n : Nonce} (hr : w.run r = ph) (hn : ph.Holds w.mined n) : w.Holds r n := by
  rw [Holds, hr]
  exact hn

lemma Guarded.covered_of_run (h : w.Guarded floor) {ph : SubmitPhase} (hr : w.run r = ph) :
    ph.Covered w.mgr.state floor w.mined :=
  hr ▸ h.covered r

lemma Guarded.alone (h : w.Guarded floor) {n : Nonce} (hr : w.Holds r n) : ∀ r' ≠ r, ¬ w.Holds r' n :=
  fun r' hne hr' => hne (h.unique r' r n hr' hr)

/-- One run moves on and the manager changes: what has to be checked. -/
lemma guarded_setRun {floor' : Nonce} (h : w.Guarded floor) {mgr : NonceManager} {ph : SubmitPhase}
    {accepted : Finset Nonce} (hmin : mgr.state.MinTracked)
    (hfloor : floor' ≤ mgr.state.localNonce) (hlocal : mgr.state.localNonce ≤ max floor' w.mined)
    (hflight : ∀ n ∈ mgr.state.inFlight, floor' ≤ n)
    (hothers : ∀ r' ≠ r, (w.run r').Covered mgr.state floor' w.mined)
    (hself : ph.Covered mgr.state floor' w.mined)
    (hnew : ∀ n, ph.Holds w.mined n → ∀ r' ≠ r, ¬ w.Holds r' n) :
    ({ w with mgr := mgr, accepted := accepted }.setRun r ph).Guarded floor' where
  minTracked := hmin
  floor_le_local := hfloor
  local_le := hlocal
  floor_le_inFlight := hflight
  covered := by
    intro r'
    by_cases hr : r' = r
    · subst hr
      simpa [setRun] using hself
    · simpa [setRun, Function.update_of_ne hr] using hothers r' hr
  unique := by
    intro a b n ha hb
    simp only [Holds, setRun] at ha hb
    by_cases har : a = r
    · by_cases hbr : b = r
      · rw [har, hbr]
      · subst har
        rw [Function.update_self] at ha
        rw [Function.update_of_ne hbr] at hb
        exact absurd hb (hnew n ha b hbr)
    · rw [Function.update_of_ne har] at ha
      by_cases hbr : b = r
      · subst hbr
        rw [Function.update_self] at hb
        exact absurd ha (hnew n hb a har)
      · rw [Function.update_of_ne hbr] at hb
        exact h.unique a b n ha hb

/-- A run that moves on without touching the manager. -/
lemma Guarded.move (h : w.Guarded floor) {ph : SubmitPhase} {accepted : Finset Nonce}
    (hself : ph.Covered w.mgr.state floor w.mined)
    (hheld : ∀ n, ph.Holds w.mined n → w.Holds r n) :
    ({ w with accepted := accepted }.setRun r ph).Guarded floor := by
  refine guarded_setRun h h.minTracked h.floor_le_local h.local_le h.floor_le_inFlight
    (fun r' _ => h.covered r') hself ?_
  intro n hn
  exact h.alone (hheld n hn)

/-- A nonce that leaves the manager's in-flight set is one that no other run holds. -/
lemma Guarded.removeInFlight_others (h : w.Guarded floor) {n : Nonce}
    (hn : ∀ r' ≠ r, ¬ w.Holds r' n) :
    ∀ r' ≠ r, (w.run r').Covered (w.mgr.state.removeInFlight n) floor w.mined := by
  intro r' hr'
  refine (h.covered r').mono ?_ ?_
  · intro m hm hmem
    rw [NonceState.inFlight_removeInFlight, Finset.mem_erase]
    refine ⟨?_, hmem⟩
    rintro rfl
    exact hn r' hr' hm
  · intro m _ hmem
    rw [NonceState.stale_removeInFlight]
    exact .inl hmem

lemma Guarded.floor_le_removeInFlight (h : w.Guarded floor) (n : Nonce) :
    ∀ m ∈ (w.mgr.state.removeInFlight n).inFlight, floor ≤ m := by
  intro m hm
  rw [NonceState.inFlight_removeInFlight] at hm
  exact h.floor_le_inFlight m (Finset.mem_of_mem_erase hm)

/-- `release` of a nonce no other run holds, by a run that then holds nothing. -/
lemma Guarded.release (h : w.Guarded floor) {n : Nonce} {ph : SubmitPhase}
    (hn : ∀ r' ≠ r, ¬ w.Holds r' n) (hself : ph.Covered (w.mgr.release n).state floor w.mined)
    (hph : ∀ m, ¬ ph.Holds w.mined m) :
    ({ w with mgr := w.mgr.release n }.setRun r ph).Guarded floor := by
  refine guarded_setRun h (h.minTracked.removeInFlight n) ?_ ?_ (h.floor_le_removeInFlight n)
    (h.removeInFlight_others hn) hself ?_
  · simpa [NonceManager.release] using h.floor_le_local
  · simpa [NonceManager.release] using h.local_le
  · intro m hm
    exact absurd hm (hph m)

/-- `mark_stale` of a nonce no other run holds. -/
lemma Guarded.markStale (h : w.Guarded floor) {n : Nonce} {ph : SubmitPhase}
    (hn : ∀ r' ≠ r, ¬ w.Holds r' n) (hself : ph.Covered (w.mgr.markStale n).state floor w.mined)
    (hph : ∀ m, ph.Holds w.mined m → m = n) :
    ({ w with mgr := w.mgr.markStale n }.setRun r ph).Guarded floor := by
  refine guarded_setRun h (h.minTracked.removeInFlight n) ?_ ?_ (h.floor_le_removeInFlight n)
    ?_ hself ?_
  · simpa [NonceManager.markStale] using h.floor_le_local
  · simpa [NonceManager.markStale] using h.local_le
  · intro r' hr'
    refine (h.removeInFlight_others hn r' hr').mono (fun _ _ hm => hm) ?_
    intro m _ hm
    exact .inl (Finset.mem_insert_of_mem hm)
  · intro m hm
    rw [hph m hm]
    exact hn

/-- `confirm` of a mined nonce, by the run that sent it.  What it prunes from the stale nonces is
below the old floor or mined. -/
lemma Guarded.confirm (h : w.Guarded floor) {n : Nonce} (hheld : w.Holds r n)
    (hmined : n < w.mined) :
    ({ w with mgr := w.mgr.confirm n }.setRun r .done).Guarded floor := by
  have hlt : n.val < w.mined.val := hmined
  have hsucc_le : n + 1 ≤ w.mined := by
    rw [Fin.le_def, Nonce.val_add_one (by omega)]
    exact hlt
  have hlocal : (w.mgr.confirm n).state.localNonce ≤ max floor w.mined := by
    simp only [NonceManager.confirm, NonceState.pruneStale, NonceState.localNonce_removeInFlight]
    exact max_le h.local_le (hsucc_le.trans (le_max_right _ _))
  refine guarded_setRun h (h.minTracked.removeInFlight n) ?_ hlocal (h.floor_le_removeInFlight n)
    ?_ trivial (fun m hm => hm.elim)
  · simp only [NonceManager.confirm, NonceState.pruneStale, NonceState.localNonce_removeInFlight]
    exact h.floor_le_local.trans (le_max_left _ _)
  · intro r' hr'
    have hcov := h.removeInFlight_others (h.alone hheld) r' hr'
    cases hph : w.run r' with
    | gaveUp m =>
        rw [hph] at hcov
        intro hm
        rcases hcov hm with hs | hlt
        · by_cases hkeep : (w.mgr.confirm n).state.localNonce ≤ m
          · exact .inl (Finset.mem_filter.mpr ⟨hs, hkeep⟩)
          · right
            have hlt : m < max floor w.mined := (not_le.mp hkeep).trans_le hlocal
            rcases lt_max_iff.mp hlt with h' | h'
            · exact h'
            · exact absurd h' (not_lt.mpr hm)
        · exact .inr hlt
    | sending m _ _ => rw [hph] at hcov; exact hcov
    | releasing m _ _ => rw [hph] at hcov; exact hcov
    | sent m => rw [hph] at hcov; exact hcov
    | _ => trivial

/-- `next_nonce` hands out a nonce that no run holds. -/
lemma Guarded.nextNonce (h : w.Guarded floor) {n : Nonce} {mgr : NonceManager}
    (hfree : ∃ m, w.mgr.state.localNonce ≤ m ∧ m ∉ w.mgr.state.inFlight ∧ m ∉ w.mgr.state.stale)
    (hnext : w.mgr.nextNonce = some (.ok n, mgr)) (fees : SubmitFees) (attempts : ℕ) :
    ({ w with mgr := mgr }.setRun r (.beginAttempt n fees attempts)).Guarded floor := by
  rcases NonceManager.nextNonce_ok hnext with ⟨hn, rfl⟩
  rcases hfree with ⟨m, hm, hnotFlight, hnotStale⟩
  have hge : floor ≤ n := NonceState.nextAvailable_ge h.minTracked h.floor_le_local
    h.floor_le_inFlight hm hnotFlight hnotStale hn
  rcases NonceState.nextAvailable_free hn with ⟨hnf, hns⟩
  refine guarded_setRun h (h.minTracked.insertInFlight n) ?_ ?_ ?_ ?_ ?_ ?_
  · simpa using h.floor_le_local
  · simpa using h.local_le
  · intro k hk
    rw [NonceState.inFlight_insertInFlight, Finset.mem_insert] at hk
    rcases hk with rfl | hk
    · exact hge
    · exact h.floor_le_inFlight k hk
  · intro r' _
    refine (h.covered r').mono ?_ ?_
    · intro k _ hk
      rw [NonceState.inFlight_insertInFlight]
      exact Finset.mem_insert_of_mem hk
    · intro k _ hk
      rw [NonceState.stale_insertInFlight]
      exact .inl hk
  · refine SubmitPhase.covered_beginAttempt (.inl ?_)
    rw [NonceState.inFlight_insertInFlight]
    exact Finset.mem_insert_self n _
  · intro k hk r' _ hr'
    obtain rfl := SubmitPhase.holds_beginAttempt hk
    rcases (h.covered r').of_holds hr' with hf | hs | hlt
    · exact hnf hf
    · exact hns hs
    · exact absurd hlt (not_lt.mpr hge)

/-- A resync that finds the other runs below the pending nonce raises the floor to it. -/
lemma Guarded.resync (h : w.Guarded floor) {n pending : Nonce} {fees : SubmitFees} {attempts : ℕ}
    (hothers : ∀ r' ≠ r, ∀ m, w.Holds r' m → m < pending) :
    ({ w with mgr := w.mgr.adoptPending pending }.setRun r
      (.reserving n fees attempts)).Guarded pending := by
  refine guarded_setRun h (leastOf_eq_none_iff.mpr rfl).symm le_rfl (le_max_left _ _) ?_ ?_ trivial
    (fun m hm => hm.elim)
  · intro k hk
    exact absurd hk (Finset.notMem_empty k)
  · intro r' hr'
    exact SubmitPhase.covered_of_lt (hothers r' hr')

/-- The chain moves on: fewer nonces are held. -/
lemma Guarded.mine (h : w.Guarded floor) {mined : Nonce} (hle : w.mined ≤ mined) :
    Guarded { w with mined := mined } floor where
  minTracked := h.minTracked
  floor_le_local := h.floor_le_local
  local_le := h.local_le.trans (max_le_max le_rfl hle)
  floor_le_inFlight := h.floor_le_inFlight
  covered := fun r => (h.covered r).mined_le hle
  unique := fun r r' n hr hr' => h.unique r r' n (hr.of_mined_le hle) (hr'.of_mined_le hle)

/-- One undisturbed step keeps the guard, above a floor that only a resync moves. -/
lemma guarded_step {e : SubmitEvent} (h : w.Guarded floor) (hok : w.Undisturbed e)
    (hstep : w.step e = some w') : ∃ floor', w'.Guarded floor' := by
  cases e with
  | begin r fees =>
      simp only [step] at hstep
      split at hstep
      next n mgr hidle hnext =>
        obtain rfl := Option.some.inj hstep
        exact ⟨floor, h.nextNonce hok hnext fees 0⟩
      next => contradiction
  | sendOk r =>
      simp only [step] at hstep
      split at hstep
      next n fees attempts hr =>
        obtain rfl := Option.some.inj hstep
        have hcov := h.covered_of_run hr
        exact ⟨floor, h.move hcov fun _ hm => holds_of_run hr hm⟩
      next => contradiction
  | sendErr r taken err =>
      simp only [step] at hstep
      split at hstep
      next n fees attempts hr =>
        obtain rfl := Option.some.inj hstep
        have hcov := h.covered_of_run hr
        refine ⟨floor, h.move (SubmitPhase.covered_afterError hcov) ?_⟩
        exact fun _ hm => holds_of_run hr (SubmitPhase.holds_afterError hm)
      next => contradiction
  | release r =>
      simp only [step] at hstep
      split at hstep
      next n fees attempts hr =>
        obtain rfl := Option.some.inj hstep
        have hn := h.alone (holds_of_run hr rfl)
        exact ⟨floor, h.release hn trivial fun _ hm => hm⟩
      next => contradiction
  | pendingOk r pending =>
      simp only [step] at hstep
      split at hstep
      next n fees attempts hr =>
        split_ifs at hstep
        obtain rfl := Option.some.inj hstep
        exact ⟨floor, h.move trivial fun _ hm => hm.elim⟩
      next => contradiction
  | pendingErr r =>
      simp only [step] at hstep
      split at hstep
      next n fees attempts hr =>
        obtain rfl := Option.some.inj hstep
        exact ⟨floor, h.move trivial fun _ hm => hm.elim⟩
      next => contradiction
  | resync r =>
      simp only [step] at hstep
      split at hstep
      next n fees attempts pending hr =>
        obtain rfl := Option.some.inj hstep
        exact ⟨pending, h.resync (hok n fees attempts pending hr)⟩
      next => contradiction
  | reserve r =>
      simp only [step] at hstep
      split at hstep
      next n fees attempts m mgr hr hnext =>
        obtain rfl := Option.some.inj hstep
        exact ⟨floor, h.nextNonce hok hnext fees attempts⟩
      next n fees attempts err mgr hr hnext =>
        obtain rfl := Option.some.inj hstep
        obtain rfl := NonceManager.nextNonce_error hnext
        exact ⟨floor, h.move trivial fun _ hm => hm.elim⟩
      next => contradiction
  | confirm r =>
      simp only [step] at hstep
      split at hstep
      next n hr =>
        split_ifs at hstep with hmined
        obtain rfl := Option.some.inj hstep
        exact ⟨floor, h.confirm (holds_of_run hr rfl) hmined⟩
      next => contradiction
  | giveUp r =>
      simp only [step] at hstep
      split at hstep
      next n hr =>
        obtain rfl := Option.some.inj hstep
        have hn := h.alone (holds_of_run hr rfl)
        exact ⟨floor, h.markStale hn (fun _ => .inl (Finset.mem_insert_self n _))
          fun m hm => hm.1.symm⟩
      next => contradiction
  | abandon r stale =>
      simp only [step] at hstep
      split at hstep
      next n hr =>
        obtain rfl := Option.some.inj hstep
        cases stale with
        | true => exact ⟨floor, h.markStale (hok n hr) trivial fun m hm => hm.elim⟩
        | false => exact ⟨floor, h.release (hok n hr) trivial fun _ hm => hm⟩
      next => contradiction
  | mine =>
      simp only [step] at hstep
      split_ifs at hstep with hmine
      obtain rfl := Option.some.inj hstep
      refine ⟨floor, h.mine ?_⟩
      rw [Fin.le_def, Nonce.val_add_one hmine.2]
      omega

/-- In every interleaving whose steps are undisturbed, no two submissions hold one nonce. -/
theorem holds_unique {pending mined : Nonce}
    (hrun : Reachable step Undisturbed (· = fresh pending mined) w) {r r' : ℕ} {n : Nonce}
    (hr : w.Holds r n) (hr' : w.Holds r' n) : r = r' := by
  have hguard : ∃ floor, w.Guarded floor := by
    refine hrun.inv (fun w => ∃ floor, w.Guarded floor) ?_ ?_
    · rintro s rfl
      exact ⟨pending, guarded_fresh pending mined⟩
    · rintro s e s' ⟨floor, hs⟩ hok hstep
      exact guarded_step hs hok hstep
  rcases hguard with ⟨floor, h⟩
  exact h.unique r r' n hr hr'

/-- Fees of an ordinary submission. -/
def gwei30 : SubmitFees := ⟨60000000000#256, 30000000000#256⟩

/-- The first submission has sent 5 when the second resyncs at the pending nonce 6. -/
theorem holds_unique_afterResync :
    ∃ w, play step (fresh 5 5) [.begin 0 gwei30, .sendOk 0, .begin 1 gwei30,
        .sendErr 1 false ⟨.resyncAndRetry, false⟩, .release 1, .pendingOk 1 6, .resync 1] =
        some w ∧ w.Holds 0 5 ∧ ¬ w.Holds 1 5 := by
  refine ⟨_, rfl, rfl, ?_⟩
  intro h1
  have hstart : Reachable step Undisturbed (· = fresh 5 5) (fresh 5 5) := .init rfl
  have hbegin0 := hstart.step (show Undisturbed _ (.begin 0 gwei30) from ⟨5, by decide⟩) rfl
  have hsent0 := hbegin0.step (show Undisturbed _ (.sendOk 0) from trivial) rfl
  have hbegin1 := hsent0.step (show Undisturbed _ (.begin 1 gwei30) from ⟨6, by decide⟩) rfl
  have herr1 := hbegin1.step
    (show Undisturbed _ (.sendErr 1 false ⟨.resyncAndRetry, false⟩) from trivial) rfl
  have hrelease1 := herr1.step (show Undisturbed _ (.release 1) from trivial) rfl
  have hpending1 := hrelease1.step (show Undisturbed _ (.pendingOk 1 6) from trivial) rfl
  have hresync1 := hpending1.step (show Undisturbed _ (.resync 1) by
    intro n fees attempts pending hr r' hne m hm
    cases hr
    by_cases h0 : r' = 0
    · subst h0
      cases hm
      decide
    · simp only [Holds, setRun, Function.update_of_ne h0, Function.update_of_ne hne] at hm
      exact hm.elim) rfl
  have h01 : 0 = 1 := holds_unique hresync1 (r := 0) (n := 5) rfl h1
  contradiction

/-- Two submissions reserve 5 and 6.  The second gets a nonce error before the first has reached the
node, resyncs at the pending nonce 5, and is handed the first one's nonce. -/
theorem resync_duplicates_nonce :
    ∃ w, play step (fresh 5 5) [.begin 0 gwei30, .begin 1 gwei30,
        .sendErr 1 false ⟨.resyncAndRetry, false⟩, .release 1, .pendingOk 1 5, .resync 1,
        .reserve 1] = some w ∧
      w.Holds 0 5 ∧ w.Holds 1 5 :=
  ⟨_, rfl, rfl, rfl⟩

end SubmitWorld

end PolygonArb

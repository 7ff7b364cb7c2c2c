import PolygonArb.Services.ServiceFrame

/-!
# Nonces of one submission

What `submit_with_recovery` and its callers do to the nonce manager when submissions run one after the
other.  The events of a run say which nonces have a transaction out whose fate is not known (`outstanding`):
one is out from the hash on until a confirmation passes it or the node's pending nonce is adopted, which
the manager trusts: a transaction accepted before that no longer counts.

A manager at rest is `Settled`: nothing in flight, and every nonce with a transaction out is stale.  Between
taking a nonce and settling it the manager is `Held`.  `Disciplined` events use no nonce that has a
transaction out, and cancel only where one is; sending, recovery and the sweep all keep this.
-/

namespace PolygonArb

namespace TxEvent

/-- The nonce is handed out or a transaction is sent with it. -/
def Uses (n : Nonce) : TxEvent → Prop
  | reserved m => m = n
  | sent m _ _ => m = n
  | _ => False

/-- A cancellation is sent with the nonce. -/
def Cancels (n : Nonce) : TxEvent → Prop
  | cancelSent m _ _ => m = n
  | _ => False

/-- What is out after the event. -/
def settle (out : Finset Nonce) : TxEvent → Finset Nonce
  | accepted n => insert n out
  | confirmed n => out.filter fun m => n < m
  | resynced => ∅
  | _ => out

def outstanding (out : Finset Nonce) (events : List TxEvent) : Finset Nonce := events.foldl settle out

@[simp] lemma outstanding_nil (out : Finset Nonce) : outstanding out [] = out := rfl

@[simp] lemma outstanding_cons (out : Finset Nonce) (e : TxEvent) (events : List TxEvent) :
    outstanding out (e :: events) = outstanding (e.settle out) events := rfl

@[simp] lemma outstanding_append (out : Finset Nonce) (xs ys : List TxEvent) :
    outstanding out (xs ++ ys) = outstanding (outstanding out xs) ys := List.foldl_append

@[simp] lemma settle_reserved (out : Finset Nonce) (n : Nonce) : settle out (reserved n) = out := rfl

@[simp] lemma settle_sent (out : Finset Nonce) (n : Nonce) (fees : SubmitFees) (gas : ℕ) :
    settle out (sent n fees gas) = out := rfl

@[simp] lemma settle_cancelSent (out : Finset Nonce) (n : Nonce) (fees : SubmitFees) (gas : ℕ) :
    settle out (cancelSent n fees gas) = out := rfl

@[simp] lemma settle_accepted (out : Finset Nonce) (n : Nonce) :
    settle out (accepted n) = insert n out := rfl

@[simp] lemma settle_confirmed (out : Finset Nonce) (n : Nonce) :
    settle out (confirmed n) = out.filter fun m => n < m := rfl

@[simp] lemma settle_resynced (out : Finset Nonce) : settle out resynced = ∅ := rfl

/-- The event uses no nonce that has a transaction out, and cancels only where one is. -/
def Proper (out : Finset Nonce) (e : TxEvent) : Prop :=
  ∀ n, (e.Uses n → n ∉ out) ∧ (e.Cancels n → n ∈ out)

/-- Every event is proper where it happens. -/
def Disciplined : Finset Nonce → List TxEvent → Prop
  | _, [] => True
  | out, e :: events => e.Proper out ∧ Disciplined (e.settle out) events

lemma proper_reserved {out : Finset Nonce} {n : Nonce} (hn : n ∉ out) : Proper out (reserved n) := by
  rintro m
  exact ⟨fun h => h ▸ hn, False.elim⟩

lemma proper_sent {out : Finset Nonce} {n : Nonce} (hn : n ∉ out) (fees : SubmitFees) (gas : ℕ) :
    Proper out (sent n fees gas) := by
  rintro m
  exact ⟨fun h => h ▸ hn, False.elim⟩

lemma proper_cancelSent {out : Finset Nonce} {n : Nonce} (hn : n ∈ out) (fees : SubmitFees) (gas : ℕ) :
    Proper out (cancelSent n fees gas) := by
  rintro m
  exact ⟨False.elim, fun h => h ▸ hn⟩

@[simp] lemma proper_accepted {out : Finset Nonce} {n : Nonce} : Proper out (accepted n) :=
  fun _ => ⟨False.elim, False.elim⟩

@[simp] lemma proper_confirmed {out : Finset Nonce} {n : Nonce} : Proper out (confirmed n) :=
  fun _ => ⟨False.elim, False.elim⟩

@[simp] lemma proper_resynced {out : Finset Nonce} : Proper out resynced :=
  fun _ => ⟨False.elim, False.elim⟩

@[simp] lemma disciplined_append {out : Finset Nonce} {xs ys : List TxEvent} :
    Disciplined out (xs ++ ys) ↔ Disciplined out xs ∧ Disciplined (outstanding out xs) ys := by
  induction xs generalizing out with
  | nil => simp [Disciplined]
  | cons e xs ih => simp [Disciplined, ih, and_assoc]

end TxEvent

open TxEvent

namespace NonceManager

variable {mgr mgr' : NonceManager} {n m : Nonce} {out : Finset Nonce}

/-- Every other nonce with a transaction out is stale. -/
structure Held (mgr : NonceManager) (n : Nonce) (out : Finset Nonce) : Prop where
  minTracked : mgr.state.MinTracked
  inFlight : mgr.state.inFlight ⊆ {n}
  local_le : mgr.state.localNonce ≤ n
  tracked : ∀ m ∈ out, m ≠ n → m ∈ mgr.state.stale ∧ mgr.state.localNonce ≤ m
  room : Fin.last _ ∉ mgr.state.stale

/-- Nothing is in flight, and every nonce with a transaction out is stale. -/
structure Settled (mgr : NonceManager) (out : Finset Nonce) : Prop where
  minTracked : mgr.state.MinTracked
  inFlight : mgr.state.inFlight = ∅
  tracked : ∀ m ∈ out, m ∈ mgr.state.stale ∧ mgr.state.localNonce ≤ m

lemma minTracked_of_empty {s : NonceState} (h : s.minInFlight = none) (hempty : s.inFlight = ∅) :
    s.MinTracked := by
  rw [NonceState.MinTracked, h, hempty]
  exact (leastOf_eq_none_iff.mpr rfl).symm

lemma settled_adoptPending (pending : Nonce) : (mgr.adoptPending pending).Settled ∅ where
  minTracked := minTracked_of_empty rfl rfl
  inFlight := rfl
  tracked := by simp

lemma room_adoptPending (pending : Nonce) : Fin.last _ ∉ (mgr.adoptPending pending).state.stale :=
  Finset.notMem_empty _

/-- A nonce taken from a manager at rest has no transaction out. -/
lemma Settled.reserve (h : mgr.Settled out) (hroom : Fin.last _ ∉ mgr.state.stale)
    (hnext : mgr.nextNonce = some (.ok n, mgr')) : mgr'.Held n out ∧ n ∉ out := by
  obtain ⟨havailable, rfl⟩ := nextNonce_ok hnext
  have hge : mgr.state.localNonce ≤ n := by
    have htop : mgr.state.localNonce ≤ Fin.last _ := Fin.le_last _
    refine NonceState.nextAvailable_ge h.minTracked le_rfl ?_ htop ?_ hroom havailable
    · simp [h.inFlight]
    · simp [h.inFlight]
  have hfree := NonceState.nextAvailable_free havailable
  refine ⟨⟨h.minTracked.insertInFlight n, ?_, ?_, ?_, ?_⟩, ?_⟩
  · simp [h.inFlight]
  · simpa using hge
  · intro m hm _
    simpa using h.tracked m hm
  · simpa using hroom
  · intro hout
    exact hfree.2 (h.tracked n hout).1

namespace Held

lemma inFlight_erase (h : mgr.Held n out) : mgr.state.inFlight.erase n = ∅ := by
  rw [Finset.erase_eq_empty_iff]
  exact Finset.subset_singleton_iff.mp h.inFlight

lemma accept (h : mgr.Held n out) : mgr.Held n (insert n out) where
  minTracked := h.minTracked
  inFlight := h.inFlight
  local_le := h.local_le
  room := h.room
  tracked := by
    intro m hm hne
    exact h.tracked m (Finset.mem_of_mem_insert_of_ne hm hne) hne

/-- A nonce without a transaction may be given back. -/
lemma release (h : mgr.Held n out) (hn : n ∉ out) : (mgr.release n).Settled out where
  minTracked := h.minTracked.removeInFlight n
  inFlight := by simpa [NonceManager.release] using h.inFlight_erase
  tracked := by
    intro m hm
    have hne : m ≠ n := fun heq => hn (heq ▸ hm)
    simpa [NonceManager.release] using h.tracked m hm hne

lemma markStale (h : mgr.Held n out) : (mgr.markStale n).Settled out where
  minTracked := h.minTracked.removeInFlight n
  inFlight := by simpa [NonceManager.markStale] using h.inFlight_erase
  tracked := by
    intro m hm
    by_cases hne : m = n
    · subst hne
      simpa [NonceManager.markStale] using h.local_le
    · have htracked := h.tracked m hm hne
      simp [NonceManager.markStale, htracked]

/-- A confirmed nonce settles those below it too. -/
lemma confirm (h : mgr.Held n out) : (mgr.confirm n).Settled (out.filter fun m => n < m) where
  minTracked := h.minTracked.removeInFlight n
  inFlight := by simpa [NonceManager.confirm, NonceState.pruneStale] using h.inFlight_erase
  tracked := by
    intro m hm
    rw [Finset.mem_filter] at hm
    obtain ⟨hmem, hlt⟩ := hm
    have htracked := h.tracked m hmem hlt.ne'
    have hnext : n + 1 ≤ m := by
      rw [Fin.lt_def] at hlt
      rw [Fin.le_def, Nonce.val_add_one (by omega)]
      omega
    simp [NonceManager.confirm, NonceState.pruneStale, htracked, hnext]

lemma room_confirm (h : mgr.Held n out) : Fin.last _ ∉ (mgr.confirm n).state.stale := by
  intro hmem
  have hstale := (Finset.mem_filter.mp hmem).1
  rw [NonceState.stale_removeInFlight] at hstale
  exact h.room hstale

end Held

end NonceManager

/-! ## A submission -/

section Submit

variable {answers : SubmitAnswers} {gasLimit left : ℕ} {mgr mgr' : NonceManager} {n : Nonce}
  {fees : SubmitFees} {s : Submission} {out : Finset Nonce} {e : SubmitError × String}

/-- A submission leaves its caller with a nonce it holds; a transaction is out with it unless it fails. -/
structure Submission.Sound (s : Submission) (out : Finset Nonce) : Prop where
  disciplined : Disciplined out s.events
  held : s.mgr.Held s.nonce (outstanding out s.events)
  failed : ∀ e, s.result = .error e → s.nonce ∉ outstanding out s.events
  succeeded : s.result = .ok () → s.nonce ∈ outstanding out s.events

lemma Submission.Sound.after {before : List TxEvent} (hbefore : Disciplined out before)
    (h : s.Sound (outstanding out before)) : (s.after before).Sound out where
  disciplined := by
    rw [Submission.after]
    simpa using ⟨hbefore, h.disciplined⟩
  held := by simpa [Submission.after] using h.held
  failed := by simpa [Submission.after] using h.failed
  succeeded := by simpa [Submission.after] using h.succeeded

lemma disciplined_sent (hn : n ∉ out) (fees : SubmitFees) (gasLimit : ℕ) :
    Disciplined out [.sent n fees gasLimit] :=
  ⟨proper_sent hn fees gasLimit, trivial⟩

/-- An attempt that ends the loop with an error. -/
lemma sound_failed (h : mgr.Held n out) (hn : n ∉ out) (e : SubmitError × String) (fees : SubmitFees)
    (gasLimit : ℕ) : Submission.Sound ⟨mgr, n, .error e, [.sent n fees gasLimit]⟩ out where
  disciplined := disciplined_sent hn fees gasLimit
  held := h
  failed := fun _ _ => hn
  succeeded := fun hok => by contradiction

lemma sound_accepted (h : mgr.Held n out) (hn : n ∉ out) (fees : SubmitFees) (gasLimit : ℕ) :
    Submission.Sound ⟨mgr, n, .ok (), [.sent n fees gasLimit, .accepted n]⟩ out where
  disciplined := ⟨proper_sent hn fees gasLimit, proper_accepted, trivial⟩
  held := h.accept
  failed := fun _ herror => by contradiction
  succeeded := fun _ => Finset.mem_insert_self n out

/-- A nonce error whose resync fails: the nonce has been given back already. -/
lemma held_release (h : mgr.Held n out) : (mgr.release n).Held n out where
  minTracked := h.minTracked.removeInFlight n
  inFlight := by
    rw [NonceManager.release, NonceState.inFlight_removeInFlight, h.inFlight_erase]
    exact Finset.empty_subset _
  local_le := by simpa [NonceManager.release] using h.local_le
  tracked := by simpa [NonceManager.release] using h.tracked
  room := by
    rw [NonceManager.release, NonceState.stale_removeInFlight]
    exact h.room

/-- Where the loop goes on, a nonce without a transaction is held. -/
def Retry.Sound (out : Finset Nonce) : Retry → Prop
  | .stop result => result.Sound out
  | .again mgr n _ events =>
      Disciplined out events ∧ mgr.Held n (outstanding out events) ∧ n ∉ outstanding out events

/-- A manager that has adopted a nonce is initialised. -/
lemma nextNonce_adoptPending_ne_error {pending : Nonce} {text : String} :
    (mgr.adoptPending pending).nextNonce ≠ some (.error text, mgr') := by
  intro hnext
  have hinit : (mgr.adoptPending pending).initialized = true := rfl
  rw [NonceManager.nextNonce, if_pos hinit, Option.map_eq_some_iff] at hnext
  obtain ⟨m, -, hm⟩ := hnext
  simp at hm

lemma retryAfter_sound {attempts : ℕ} {r : Retry} (h : mgr.Held n out) (hn : n ∉ out)
    (hrun : retryAfter answers gasLimit attempts mgr n fees e = some r) : r.Sound out := by
  rw [retryAfter] at hrun
  cases haction : e.1.action with
  | resyncAndRetry =>
      simp only [haction] at hrun
      cases hpending : answers.pending attempts with
      | error e' =>
          simp only [hpending, Option.some.injEq] at hrun
          subst hrun
          exact sound_failed (held_release h) hn e' fees gasLimit
      | ok pending =>
          simp only [hpending, Option.map_eq_some_iff] at hrun
          obtain ⟨⟨answer, mgr'⟩, hnext, rfl⟩ := hrun
          cases answer with
          | error text => exact absurd hnext nextNonce_adoptPending_ne_error
          | ok next =>
              -- everything is taken over from the node
              obtain ⟨hheld, hfresh⟩ := (NonceManager.settled_adoptPending pending).reserve
                (NonceManager.room_adoptPending pending) hnext
              refine ⟨?_, ?_, ?_⟩
              · exact ⟨proper_sent hn fees gasLimit, proper_resynced, proper_reserved (by simp), trivial⟩
              · simpa using hheld
              · simp
  | bumpFeesAndRetry =>
      simp only [haction, Option.some.injEq] at hrun
      subst hrun
      exact ⟨disciplined_sent hn fees gasLimit, h, hn⟩
  | alreadyKnown =>
      simp only [haction] at hrun
      split_ifs at hrun <;> rw [Option.some.injEq] at hrun <;> subst hrun
      · exact sound_accepted h hn fees gasLimit
      · exact sound_failed h hn _ fees gasLimit
  | insufficientFunds =>
      simp only [haction, Option.some.injEq] at hrun
      subst hrun
      exact sound_failed h hn e fees gasLimit
  | fail =>
      simp only [haction, Option.some.injEq] at hrun
      subst hrun
      exact sound_failed h hn e fees gasLimit

lemma submitAttempts_sound (h : mgr.Held n out) (hn : n ∉ out)
    (hrun : submitAttempts answers gasLimit left mgr n fees = some s) : s.Sound out := by
  refine submitAttempts_rule (P := fun _ mgr n _ s => ∀ out, mgr.Held n out → n ∉ out → s.Sound out)
    ?_ ?_ ?_ ?_ ?_ hrun out h hn
  · exact fun _ _ h hn => ⟨trivial, h, fun _ _ => hn, fun hok => by contradiction⟩
  · exact fun _ h hn => sound_accepted h hn _ _
  · exact fun e _ h hn => sound_failed h hn e _ _
  · exact fun hretry _ h hn => retryAfter_sound h hn hretry
  · intro attempts left mgr n fees e mgr' n' fees' events s hretry ih out h hn
    obtain ⟨hevents, hheld, hfresh⟩ := retryAfter_sound h hn hretry
    exact Submission.Sound.after hevents (ih _ hheld hfresh)

variable (answers gasLimit)

variable {answers gasLimit}

/-- Either way of settling a failed submission leaves the manager at rest. -/
lemma settled_releaseFailed (h : s.Sound out) (hfailed : s.result = .error e) (action : SubmitAction) :
    (releaseFailedSubmitNonce s.mgr s.nonce action).Settled (outstanding out s.events) := by
  rw [releaseFailedSubmitNonce]
  split_ifs
  · exact h.held.markStale
  · exact h.held.release (h.failed e hfailed)

end Submit

/-! ## Recovery and sweep -/

section Settle

variable {Log : Type} {w : CandidateWorld Log} {svc : ExecutionService} {c : CandidateExecution}
  {mgr mgr' : NonceManager} {n : Nonce} {out : Finset Nonce} {events : List TxEvent} {p : Processed}

/-- A transaction that is not found mined leaves its nonce stale, cancelled or not, or given up with all
others. -/
lemma recover_settled {answers : RecoveryAnswers Log} {recovered : NonceRecoveryOutcome Log}
    {fees : SubmitFees} {gasLimit : ℕ} (h : mgr.Held n out) (hn : n ∈ out)
    (hrun : recoverAfterReceiptTimeout answers mgr n fees gasLimit = (recovered, mgr', events)) :
    (∃ receipt, recovered = .mined receipt ∧ mgr' = mgr ∧ events = []) ∨
      (∀ receipt, recovered ≠ .mined receipt) ∧ Disciplined out events ∧
        mgr'.Settled (outstanding out events) := by
  have hcancel := proper_cancelSent hn (cancelFees fees) (min gasLimit 21000)
  rw [recoverAfterReceiptTimeout] at hrun
  cases hreceipt : answers.receipt with
  | some receipt =>
      simp only [hreceipt, Prod.mk.injEq] at hrun
      obtain ⟨rfl, rfl, rfl⟩ := hrun
      exact .inl ⟨receipt, rfl, rfl, rfl⟩
  | none =>
      simp only [hreceipt] at hrun
      right
      split at hrun
      · rw [Prod.mk.injEq, Prod.mk.injEq] at hrun
        obtain ⟨rfl, rfl, rfl⟩ := hrun
        exact ⟨by simp, trivial, h.markStale⟩
      · split at hrun <;> rw [Prod.mk.injEq, Prod.mk.injEq] at hrun <;> obtain ⟨rfl, rfl, rfl⟩ := hrun
        · exact ⟨by simp, trivial, h.markStale⟩
        · exact ⟨by simp, ⟨proper_resynced, trivial⟩, NonceManager.settled_adoptPending _⟩
      · split at hrun <;> rw [Prod.mk.injEq, Prod.mk.injEq] at hrun <;> obtain ⟨rfl, rfl, rfl⟩ := hrun
        · refine ⟨by simp, ⟨hcancel, proper_accepted, trivial⟩, ?_⟩
          -- the transaction that is cancelled is out already
          simpa [Finset.insert_eq_of_mem hn] using h.markStale
        · exact ⟨by simp, ⟨hcancel, trivial⟩, h.markStale⟩

/-- The wait for the sweep's receipt ends with the shutdown. -/
def sweepSeesShutdown (w : CandidateWorld Log) : Bool :=
  match w.sweepReceipt with
  | .shutdown => true
  | _ => false

/-- The sweep leaves no nonce in flight; it forgets one with a transaction out only when it is shut down. -/
lemma sweep_settled (h : mgr.Settled out) (hroom : Fin.last _ ∉ mgr.state.stale)
    (hrun : ExecutionService.sweepProfitToRecipient w c mgr = some (mgr', events)) :
    Disciplined out events ∧ mgr'.state.inFlight = ∅ ∧
      (sweepSeesShutdown w = false → mgr'.Settled (outstanding out events)) := by
  have hnothing : some (mgr, []) = some (mgr', events) →
      Disciplined out events ∧ mgr'.state.inFlight = ∅ ∧
        (sweepSeesShutdown w = false → mgr'.Settled (outstanding out events)) := by
    intro heq
    rw [Option.some.injEq, Prod.mk.injEq] at heq
    obtain ⟨rfl, rfl⟩ := heq
    exact ⟨trivial, h.inFlight, fun _ => h⟩
  rw [ExecutionService.sweepProfitToRecipient] at hrun
  split at hrun
  · exact hnothing hrun
  · exact hnothing hrun
  · next snap _ _ =>
    rw [Option.bind_eq_some_iff] at hrun
    obtain ⟨⟨answer, held⟩, hnext, hrun⟩ := hrun
    cases answer with
    | error text =>
        rw [NonceManager.nextNonce_error hnext] at hrun
        exact hnothing hrun
    | ok nonce =>
        obtain ⟨hheld, hfresh⟩ := h.reserve hroom hnext
        obtain ⟨s, hs, hsettle⟩ := Option.map_eq_some_iff.mp hrun
        have hsound := submitAttempts_sound hheld hfresh hs
        have hreserved : Disciplined out (.reserved nonce :: s.events) := by
          refine ⟨?_, hsound.disciplined⟩
          exact proper_reserved hfresh
        cases hresult : s.result with
        | error e =>
            simp only [hresult, Prod.mk.injEq] at hsettle
            obtain ⟨rfl, rfl⟩ := hsettle
            have hreleased := hsound.held.release (hsound.failed e hresult)
            exact ⟨hreserved, hreleased.inFlight, fun _ => hreleased⟩
        | ok _ =>
            simp only [hresult, ExecutionService.settleSweep, Prod.mk.injEq] at hsettle
            obtain ⟨rfl, rfl⟩ := hsettle
            rw [sweepSeesShutdown]
            cases w.sweepReceipt with
            | received receipt =>
                refine ⟨?_, hsound.held.confirm.inFlight, fun _ => ?_⟩
                · rw [disciplined_append]
                  exact ⟨hreserved, proper_confirmed, trivial⟩
                · simpa using hsound.held.confirm
            | timedOut =>
                simpa using ⟨hreserved, hsound.held.markStale.inFlight, hsound.held.markStale⟩
            | shutdown =>
                refine ⟨by simpa using hreserved, ?_, by simp⟩
                simpa [NonceManager.release] using hsound.held.inFlight_erase
            | rpcFailure reason =>
                simpa using ⟨hreserved, hsound.held.markStale.inFlight, hsound.held.markStale⟩

/-! ## The whole call -/

/-- The manager of the service, if there is one, is at rest; without one no transaction is out. -/
def ExecutionService.NoncesSettled (svc : ExecutionService) (out : Finset Nonce) : Prop :=
  match svc.nonce with
  | none => out = ∅
  | some mgr => mgr.Settled out

def ExecutionService.NoncesIdle (svc : ExecutionService) : Prop :=
  ∀ mgr, svc.nonce = some mgr → mgr.state.inFlight = ∅

lemma ExecutionService.NoncesSettled.idle (h : svc.NoncesSettled out) : svc.NoncesIdle := by
  intro mgr hmgr
  rw [NoncesSettled, hmgr] at h
  exact h.inFlight

/-- A call uses no nonce that has a transaction out, and leaves the nonces settled, unless its sweep was shut
down. -/
structure Processed.Sound (p : Processed) (out : Finset Nonce) (stopped : Bool) : Prop where
  disciplined : Disciplined out p.events
  idle : p.svc.NoncesIdle
  settled : stopped = false → p.svc.NoncesSettled (outstanding out p.events)

lemma sound_of_settled {stopped : Bool} (hnonce : p.svc.nonce = some mgr) (hevents : Disciplined out p.events)
    (h : mgr.Settled (outstanding out p.events)) : p.Sound out stopped := by
  have hsettled : p.svc.NoncesSettled (outstanding out p.events) := by
    rw [ExecutionService.NoncesSettled, hnonce]
    exact h
  exact ⟨hevents, hsettled.idle, fun _ => hsettled⟩

lemma finalize_sound {gasLimit : ℕ} {receipt : ReceiptData Log} (h : mgr.Held n out)
    (hrun : svc.finalizeReceiptAndMaybeSweep w c mgr n gasLimit receipt = some p) :
    p.Sound out (sweepSeesShutdown w) := by
  have hconfirmed : Disciplined out [.confirmed n] := ⟨proper_confirmed, trivial⟩
  have hplain : ∀ (svc : ExecutionService) (outcome : ExecutionOutcome),
      some (⟨svc.withNonce (mgr.confirm n), outcome, [.confirmed n], none⟩ : Processed) = some p →
        p.Sound out (sweepSeesShutdown w) := by
    intro svc outcome heq
    rw [Option.some.injEq] at heq
    subst heq
    exact sound_of_settled rfl hconfirmed h.confirm
  simp only [ExecutionService.finalizeReceiptAndMaybeSweep] at hrun
  split at hrun
  · split_ifs at hrun
    · exact hplain _ _ hrun
    · obtain ⟨⟨mgr', events⟩, hsweep, rfl⟩ := Option.map_eq_some_iff.mp hrun
      obtain ⟨hevents, hidle, hsettled⟩ := sweep_settled h.confirm h.room_confirm hsweep
      refine ⟨⟨proper_confirmed, hevents⟩, ?_, hsettled⟩
      rintro mgr'' heq
      rw [← Option.some.inj heq]
      exact hidle
  · exact hplain _ _ hrun

lemma afterReceiptTimeout_sound {plan : ExecutionService.SubmitPlan} (h : mgr.Held n out) (hn : n ∈ out)
    (hrun : svc.afterReceiptTimeout w c mgr n plan = some p) : p.Sound out (sweepSeesShutdown w) := by
  simp only [ExecutionService.afterReceiptTimeout] at hrun
  cases hrecover : recoverAfterReceiptTimeout w.recovery mgr n plan.fees plan.gasLimit with
  | mk recovered rest =>
    obtain ⟨mgr', events⟩ := rest
    rw [hrecover] at hrun
    rcases recover_settled h hn hrecover with ⟨receipt, rfl, rfl, rfl⟩ | ⟨hunmined, hevents, hsettled⟩
    · exact finalize_sound h hrun
    · cases recovered with
      | mined receipt => exact absurd rfl (hunmined receipt)
      | cancelled =>
          simp only [Option.some.injEq] at hrun
          subst hrun
          exact sound_of_settled rfl hevents hsettled
      | stillPending =>
          simp only [Option.some.injEq] at hrun
          subst hrun
          exact sound_of_settled rfl hevents hsettled
      | dropped =>
          simp only [Option.some.injEq] at hrun
          subst hrun
          exact sound_of_settled rfl hevents hsettled

lemma afterSubmit_sound {plan : ExecutionService.SubmitPlan} (h : mgr.Held n out) (hn : n ∈ out)
    (hrun : svc.afterSubmit w c mgr n plan = some p) : p.Sound out (sweepSeesShutdown w) := by
  simp only [ExecutionService.afterSubmit] at hrun
  split at hrun
  · exact finalize_sound h hrun
  · rw [Option.some.injEq] at hrun
    subst hrun
    exact sound_of_settled rfl trivial h.markStale
  · rw [Option.some.injEq] at hrun
    subst hrun
    exact sound_of_settled rfl trivial h.markStale
  · split_ifs at hrun
    · rw [Option.some.injEq] at hrun
      subst hrun
      exact sound_of_settled rfl trivial h.markStale
    · exact afterReceiptTimeout_sound h hn hrun

/-- A call that has done nothing yet with nonces. -/
lemma sound_of_nonce {stopped : Bool} (h : svc.NoncesSettled out) (hnonce : p.svc.nonce = svc.nonce)
    (hevents : p.events = []) : p.Sound out stopped := by
  have hsettled : p.svc.NoncesSettled out := by
    rw [ExecutionService.NoncesSettled, hnonce]
    exact h
  refine ⟨by rw [hevents]; trivial, hsettled.idle, fun _ => ?_⟩
  rw [hevents]
  exact hsettled

/-- `u64::MAX` is left. -/
def ExecutionService.NonceRoom (svc : ExecutionService) : Prop :=
  ∀ mgr, svc.nonce = some mgr → Fin.last _ ∉ mgr.state.stale

lemma ensureNonceManager_settled (h : svc.NoncesSettled out) (hroom : svc.NonceRoom)
    (hmgr : svc.ensureNonceManager w = .ok mgr) :
    mgr.Settled out ∧ Fin.last _ ∉ mgr.state.stale := by
  rw [ExecutionService.ensureNonceManager] at hmgr
  rw [ExecutionService.NoncesSettled] at h
  cases hnonce : svc.nonce with
  | some mgr' =>
      simp only [hnonce, Except.ok.injEq] at h hmgr
      subst hmgr
      exact ⟨h, hroom mgr' hnonce⟩
  | none =>
      simp only [hnonce] at h hmgr
      subst h
      cases hpending : w.initialPending with
      | error text =>
          rw [hpending] at hmgr
          contradiction
      | ok pending =>
          rw [hpending] at hmgr
          rw [← Except.ok.inj hmgr]
          exact ⟨NonceManager.settled_adoptPending pending, NonceManager.room_adoptPending pending⟩

lemma cleanNonces_settled {pendingAhead : Bool} (h : mgr.Settled out) (hroom : Fin.last _ ∉ mgr.state.stale)
    (hclean : ExecutionService.cleanNonces w mgr pendingAhead = (mgr', events)) :
    Disciplined out events ∧ mgr'.Settled (outstanding out events) ∧ Fin.last _ ∉ mgr'.state.stale := by
  rw [ExecutionService.cleanNonces] at hclean
  cases hpending : w.resyncPending with
  | error text =>
      have hsame : (mgr, []) = (mgr', events) := by
        rw [← hclean, hpending]
        split_ifs <;> rfl
      rw [Prod.mk.injEq] at hsame
      obtain ⟨rfl, rfl⟩ := hsame
      exact ⟨trivial, h, hroom⟩
  | ok pending =>
      rw [hpending] at hclean
      split_ifs at hclean
      · simp only [NonceManager.resync, Prod.mk.injEq] at hclean
        obtain ⟨rfl, rfl⟩ := hclean
        refine ⟨⟨proper_resynced, trivial⟩, NonceManager.settled_adoptPending pending,
          NonceManager.room_adoptPending pending⟩
      · rw [Prod.mk.injEq] at hclean
        obtain ⟨rfl, rfl⟩ := hclean
        exact ⟨trivial, h, hroom⟩

/-- More events before those of a call. -/
lemma Processed.Sound.after {stopped : Bool} {before : List TxEvent} (hbefore : Disciplined out before)
    (h : p.Sound (outstanding out before) stopped) :
    Processed.Sound { p with events := before ++ p.events } out stopped where
  disciplined := by simpa using ⟨hbefore, h.disciplined⟩
  idle := h.idle
  settled := by simpa using h.settled

lemma submitPlanned_sound {plan : ExecutionService.SubmitPlan} {pendingAhead : Bool}
    (h : svc.NoncesSettled out) (hroom : svc.NonceRoom)
    (hrun : svc.submitPlanned w c plan pendingAhead = some p) : p.Sound out (sweepSeesShutdown w) := by
  rw [ExecutionService.submitPlanned] at hrun
  cases hensure : svc.ensureNonceManager w with
  | error text =>
      simp only [hensure, Option.some.injEq] at hrun
      subst hrun
      exact sound_of_nonce h rfl rfl
  | ok mgr =>
    obtain ⟨hmgr, hmgrRoom⟩ := ensureNonceManager_settled h hroom hensure
    cases hclean : ExecutionService.cleanNonces w mgr pendingAhead with
    | mk mgr₁ cleaned =>
      obtain ⟨hcleaned, hsettled, hroom₁⟩ := cleanNonces_settled hmgr hmgrRoom hclean
      simp only [hensure, hclean, Option.bind_eq_some_iff] at hrun
      obtain ⟨⟨answer, mgr₂⟩, hnext, hrun⟩ := hrun
      cases answer with
      | error text =>
          rw [NonceManager.nextNonce_error hnext, Option.some.injEq] at hrun
          subst hrun
          exact sound_of_settled rfl hcleaned hsettled
      | ok nonce =>
          obtain ⟨hheld, hfresh⟩ := hsettled.reserve hroom₁ hnext
          -- what has happened before the answer of the relay
          have hbefore : ∀ events : List TxEvent, Disciplined (outstanding out cleaned) events →
              Disciplined out (cleaned ++ .reserved nonce :: events) := by
            intro events hevents
            rw [disciplined_append]
            exact ⟨hcleaned, proper_reserved hfresh, hevents⟩
          cases hconfig : w.privateConfig with
          | error text =>
              simp only [hconfig, Option.some.injEq] at hrun
              subst hrun
              refine sound_of_settled rfl ?_ ?_
              · simpa [ExecutionService.ended] using hbefore [] trivial
              · simpa [ExecutionService.ended] using hheld.release hfresh
          | ok _ =>
              simp only [hconfig, Option.bind_eq_some_iff] at hrun
              obtain ⟨s, hs, hrun⟩ := hrun
              have hsound := submitAttempts_sound hheld hfresh hs
              have hsent := hbefore s.events hsound.disciplined
              cases hresult : s.result with
              | error e =>
                  simp only [hresult, Option.some.injEq] at hrun
                  subst hrun
                  have hnonce : (svc.afterSubmitError w c s.mgr s.nonce e).svc.nonce =
                      some (releaseFailedSubmitNonce s.mgr s.nonce e.1.action) := by
                    simp only [ExecutionService.afterSubmitError, ExecutionService.ended]
                    split_ifs <;> rfl
                  refine Processed.Sound.after hsent (sound_of_settled hnonce trivial ?_)
                  have hevents : (svc.afterSubmitError w c s.mgr s.nonce e).events = [] := rfl
                  simpa [hevents] using settled_releaseFailed hsound hresult e.1.action
              | ok _ =>
                  simp only [hresult] at hrun
                  obtain ⟨p', hp', rfl⟩ := Option.map_eq_some_iff.mp hrun
                  refine Processed.Sound.after hsent ?_
                  simpa using afterSubmit_sound hsound.held (hsound.succeeded hresult) hp'

/-- Every call keeps the nonces settled. -/
lemma processCandidate_sound (hclock : w.clock.Ordered) (h : svc.NoncesSettled out) (hroom : svc.NonceRoom)
    (hrun : svc.processCandidate w c = some p) : p.Sound out (sweepSeesShutdown w) := by
  rcases processCandidate_cases hclock hrun with
    ⟨hevents, hnonce, -⟩ | ⟨head, plan, ready, pendingAhead, hcleared, hsubmit⟩
  · exact sound_of_nonce h hnonce hevents
  · have hnonce : ready.nonce = svc.nonce := hcleared.notes.nonce
    have hsettled : ready.NoncesSettled out := by
      rw [ExecutionService.NoncesSettled, hnonce]
      exact h
    have hready : ready.NonceRoom := by
      rw [ExecutionService.NonceRoom, hnonce]
      exact hroom
    exact submitPlanned_sound hsettled hready hsubmit

end Settle

end PolygonArb

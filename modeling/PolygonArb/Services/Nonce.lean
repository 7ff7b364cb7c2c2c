import Mathlib.Algebra.NeZero
import Mathlib.Data.Finset.Max
import Mathlib.Data.ZMod.Defs
import Mathlib.Tactic.Common
import PolygonArb.Core.Types
import PolygonArb.Lib.Transition

/-!
# The nonce manager

`services/execution/nonce.rs`.  A `NonceState` keeps a counter, the nonces handed out and not yet
settled (`inFlight`), the least of them (`minInFlight`), and the nonces that must not be reused
because their transaction may still be out (`stale`).  `nextAvailable` probes upwards from the
counter, or from the least nonce in flight when that is lower, for a nonce in neither set.

The probe looks at these two sets only.  It never hands out a nonce in flight or stale
(`nextAvailable_free`), but a nonce that has been confirmed is in neither set: when the probe starts
below the counter, because a lower nonce is still in flight, it can come back to one
(`nextNonce_returns_confirmed`).  `nextNonce_fresh` is what holds when it starts at the counter.
-/

namespace PolygonArb

open Transition

/-- A transaction nonce (`u64`).  Addition wraps, as in the release profile. -/
abbrev Nonce := Fin (2 ^ 64)

instance Nonce.neZero : NeZero (2 ^ 64) := inferInstance

/-- `in_flight.iter().copied().min()`. -/
def leastOf (s : Finset Nonce) : Option Nonce :=
  if h : s.Nonempty then some (s.min' h) else none

structure NonceState where
  localNonce : Nonce
  inFlight : Finset Nonce
  minInFlight : Option Nonce
  stale : Finset Nonce
  deriving DecidableEq

/-- The first nonce from `n` upwards that is not taken.  The loop of the source has no bound; after
`2 ^ 64` probes it has seen every `u64`, so running out of fuel is never returning. -/
def firstFree (taken : Nonce → Bool) : ℕ → Nonce → Option Nonce
  | 0, _ => none
  | fuel + 1, n => if taken n then firstFree taken fuel (n + 1) else some n

namespace NonceState

def init : NonceState := ⟨0, ∅, none, ∅⟩

def isTaken (s : NonceState) (n : Nonce) : Bool :=
  decide (n ∈ s.inFlight) || decide (n ∈ s.stale)

/-- Where the probe of `nextAvailable` starts. -/
def probeStart (s : NonceState) : Nonce :=
  match s.minInFlight with
  | none => s.localNonce
  | some m => min s.localNonce m

def nextAvailable (s : NonceState) : Run Nonce :=
  firstFree s.isTaken (2 ^ 64) s.probeStart

def insertInFlight (s : NonceState) (n : Nonce) : NonceState :=
  if n ∈ s.inFlight then s
  else
    { s with
      inFlight := insert n s.inFlight
      minInFlight := some (s.minInFlight.elim n fun m => min m n) }

def removeInFlight (s : NonceState) (n : Nonce) : NonceState :=
  if n ∈ s.inFlight then
    { s with
      inFlight := s.inFlight.erase n
      minInFlight :=
        if s.minInFlight = some n then leastOf (s.inFlight.erase n) else s.minInFlight }
  else s

def clearInFlight (s : NonceState) : NonceState :=
  { s with inFlight := ∅, minInFlight := none }

def pruneStale (s : NonceState) : NonceState :=
  { s with stale := s.stale.filter fun n => s.localNonce ≤ n }

end NonceState

/-- The manager without its account address and its lock: every operation below is one critical
section of the source. -/
structure NonceManager where
  initialized : Bool
  state : NonceState
  deriving DecidableEq

namespace NonceManager

def new : NonceManager := ⟨false, .init⟩

/-- `initialize` once the node has answered with its pending nonce. -/
def adoptPending (mgr : NonceManager) (pending : Nonce) : NonceManager :=
  { mgr with
    initialized := true
    state := { mgr.state.clearInFlight with localNonce := pending, stale := ∅ } }

/-- `resync`, which is `initialize`: a failed request changes nothing. -/
def resync (mgr : NonceManager) (answer : Except String Nonce) :
    Except String Unit × NonceManager :=
  match answer with
  | .error e => (.error e, mgr)
  | .ok pending => (.ok (), mgr.adoptPending pending)

def nextNonce (mgr : NonceManager) : Run (Except String Nonce × NonceManager) :=
  if mgr.initialized then
    mgr.state.nextAvailable.map fun n =>
      (.ok n, { mgr with state := mgr.state.insertInFlight n })
  else some (.error "nonce manager not initialized", mgr)

def confirm (mgr : NonceManager) (confirmed : Nonce) : NonceManager :=
  let state := mgr.state.removeInFlight confirmed
  { mgr with
    state := { state with localNonce := max state.localNonce (confirmed + 1) }.pruneStale }

def release (mgr : NonceManager) (nonce : Nonce) : NonceManager :=
  { mgr with state := mgr.state.removeInFlight nonce }

def markStale (mgr : NonceManager) (nonce : Nonce) : NonceManager :=
  let state := mgr.state.removeInFlight nonce
  { mgr with state := { state with stale := insert nonce state.stale } }

/-- Takes a stale nonce back in flight.  A nonce that is neither stale nor in flight is refused. -/
def replaceNonce (mgr : NonceManager) (nonce : Nonce) : Option Nonce × NonceManager :=
  let state := { mgr.state with stale := mgr.state.stale.erase nonce }
  if nonce ∈ mgr.state.stale ∨ nonce ∈ mgr.state.inFlight then
    (some nonce, { mgr with state := state.insertInFlight nonce })
  else (none, { mgr with state := state })

end NonceManager

/-! ## What one operation does to the state -/

lemma leastOf_eq_some_iff {s : Finset Nonce} {m : Nonce} :
    leastOf s = some m ↔ m ∈ s ∧ ∀ n ∈ s, m ≤ n := by
  by_cases h : s.Nonempty
  · rw [leastOf, dif_pos h, Option.some.injEq, Finset.min'_eq_iff]
  · rw [Finset.not_nonempty_iff_eq_empty] at h
    simp [leastOf, h]

lemma leastOf_eq_none_iff {s : Finset Nonce} : leastOf s = none ↔ s = ∅ := by
  by_cases h : s.Nonempty
  · simp [leastOf, h, h.ne_empty]
  · rw [Finset.not_nonempty_iff_eq_empty] at h
    simp [leastOf, h]

lemma firstFree_free {taken : Nonce → Bool} :
    ∀ {fuel : ℕ} {n m : Nonce}, firstFree taken fuel n = some m → taken m = false
  | 0, _, _, h => by simp [firstFree] at h
  | fuel + 1, n, m, h => by
      by_cases hn : taken n = true
      · rw [firstFree, if_pos hn] at h
        exact firstFree_free h
      · rw [firstFree, if_neg hn, Option.some.injEq] at h
        rw [← h]
        simpa using hn

lemma Nonce.val_add_one {n : Nonce} (h : n.val + 1 < 2 ^ 64) : (n + 1).val = n.val + 1 := by
  rw [Fin.val_add]
  exact Nat.mod_eq_of_lt h

/-- The probe does not wrap while there is a free nonce above its start. -/
lemma firstFree_ge {taken : Nonce → Bool} {b : Nonce} (hb : taken b = false) :
    ∀ {fuel : ℕ} {n m : Nonce}, n ≤ b → firstFree taken fuel n = some m → n ≤ m
  | 0, _, _, _, h => by simp [firstFree] at h
  | fuel + 1, n, m, hnb, h => by
      by_cases hn : taken n = true
      · rw [firstFree, if_pos hn] at h
        have hne : n ≠ b := by
          rintro rfl
          rw [hn] at hb
          contradiction
        have hlt : n.val < b.val := lt_of_le_of_ne hnb (Fin.val_ne_of_ne hne)
        have hsucc : (n + 1).val = n.val + 1 := Nonce.val_add_one (by omega)
        have hle : n + 1 ≤ m := firstFree_ge hb (by rw [Fin.le_def]; omega) h
        rw [Fin.le_def] at hle ⊢
        omega
      · rw [firstFree, if_neg hn, Option.some.injEq] at h
        exact h.le

namespace NonceState

variable {s : NonceState} {n m : Nonce}

/-- `minInFlight` is the least nonce in flight. -/
def MinTracked (s : NonceState) : Prop := s.minInFlight = leastOf s.inFlight

lemma isTaken_eq_false : s.isTaken n = false ↔ n ∉ s.inFlight ∧ n ∉ s.stale := by
  simp [isTaken]

/-- The probe never stops at a nonce in flight or stale, wherever it starts. -/
lemma nextAvailable_free (h : s.nextAvailable = some n) : n ∉ s.inFlight ∧ n ∉ s.stale :=
  isTaken_eq_false.mp (firstFree_free h)

lemma probeStart_ge (hmin : s.MinTracked) {b : Nonce} (hlocal : b ≤ s.localNonce)
    (hflight : ∀ m ∈ s.inFlight, b ≤ m) : b ≤ s.probeStart := by
  unfold probeStart
  cases hm : s.minInFlight with
  | none => exact hlocal
  | some m =>
      have hmem := (leastOf_eq_some_iff.mp (hmin.symm.trans hm)).1
      exact le_min hlocal (hflight m hmem)

lemma probeStart_le : s.probeStart ≤ s.localNonce := by
  unfold probeStart
  cases s.minInFlight with
  | none => exact le_rfl
  | some m => exact min_le_left _ _

/-- When the counter and every nonce in flight are at least `b`, so is the nonce handed out, unless
every nonce above the counter is taken and the probe wraps. -/
lemma nextAvailable_ge (hmin : s.MinTracked) {b : Nonce} (hlocal : b ≤ s.localNonce)
    (hflight : ∀ m ∈ s.inFlight, b ≤ m) {free : Nonce} (hfree : s.localNonce ≤ free)
    (hnotFlight : free ∉ s.inFlight) (hnotStale : free ∉ s.stale)
    (h : s.nextAvailable = some n) : b ≤ n := by
  have htaken : s.isTaken free = false := isTaken_eq_false.mpr ⟨hnotFlight, hnotStale⟩
  exact (probeStart_ge hmin hlocal hflight).trans
    (firstFree_ge htaken (probeStart_le.trans hfree) h)

@[simp] lemma inFlight_insertInFlight : (s.insertInFlight n).inFlight = insert n s.inFlight := by
  by_cases h : n ∈ s.inFlight
  · rw [insertInFlight, if_pos h, Finset.insert_eq_self.mpr h]
  · rw [insertInFlight, if_neg h]

@[simp] lemma localNonce_insertInFlight : (s.insertInFlight n).localNonce = s.localNonce := by
  unfold insertInFlight
  split_ifs <;> rfl

@[simp] lemma stale_insertInFlight : (s.insertInFlight n).stale = s.stale := by
  unfold insertInFlight
  split_ifs <;> rfl

@[simp] lemma inFlight_removeInFlight : (s.removeInFlight n).inFlight = s.inFlight.erase n := by
  by_cases h : n ∈ s.inFlight
  · rw [removeInFlight, if_pos h]
  · rw [removeInFlight, if_neg h, Finset.erase_eq_of_notMem h]

@[simp] lemma localNonce_removeInFlight : (s.removeInFlight n).localNonce = s.localNonce := by
  unfold removeInFlight
  split_ifs <;> rfl

@[simp] lemma stale_removeInFlight : (s.removeInFlight n).stale = s.stale := by
  unfold removeInFlight
  split_ifs <;> rfl

lemma MinTracked.insertInFlight (hmin : s.MinTracked) (n : Nonce) :
    (s.insertInFlight n).MinTracked := by
  by_cases h : n ∈ s.inFlight
  · rw [NonceState.insertInFlight, if_pos h]
    exact hmin
  · rw [NonceState.insertInFlight, if_neg h]
    unfold MinTracked at hmin ⊢
    symm
    rw [leastOf_eq_some_iff]
    cases hm : s.minInFlight with
    | none =>
        have hempty := leastOf_eq_none_iff.mp (hmin.symm.trans hm)
        simp [hempty]
    | some m =>
        rcases leastOf_eq_some_iff.mp (hmin.symm.trans hm) with ⟨hmem, hle⟩
        refine ⟨?_, ?_⟩
        · rcases min_choice m n with hc | hc <;> simp [hc, hmem]
        · intro k hk
          rcases Finset.mem_insert.mp hk with rfl | hk
          · exact min_le_right _ _
          · exact (min_le_left _ _).trans (hle k hk)

lemma MinTracked.removeInFlight (hmin : s.MinTracked) (n : Nonce) :
    (s.removeInFlight n).MinTracked := by
  by_cases h : n ∈ s.inFlight
  · rw [NonceState.removeInFlight, if_pos h]
    unfold MinTracked at hmin ⊢
    show (if s.minInFlight = some n then leastOf (s.inFlight.erase n) else s.minInFlight) =
      leastOf (s.inFlight.erase n)
    split_ifs with hn
    · rfl
    · cases hm : s.minInFlight with
      | none =>
          have hempty := leastOf_eq_none_iff.mp (hmin.symm.trans hm)
          rw [hempty] at h
          simp at h
      | some m =>
          rcases leastOf_eq_some_iff.mp (hmin.symm.trans hm) with ⟨hmem, hle⟩
          have hne : m ≠ n := by
            rintro rfl
            exact hn hm
          symm
          rw [leastOf_eq_some_iff]
          exact ⟨Finset.mem_erase.mpr ⟨hne, hmem⟩, fun k hk => hle k (Finset.mem_of_mem_erase hk)⟩
  · rw [NonceState.removeInFlight, if_neg h]
    exact hmin

end NonceState

lemma NonceManager.nextNonce_ok {mgr mgr' : NonceManager} {n : Nonce}
    (h : mgr.nextNonce = some (.ok n, mgr')) :
    mgr.state.nextAvailable = some n ∧
      mgr' = { mgr with state := mgr.state.insertInFlight n } := by
  unfold nextNonce at h
  split_ifs at h
  · rcases Option.map_eq_some_iff.mp h with ⟨m, hm, heq⟩
    simp only [Prod.mk.injEq, Except.ok.injEq] at heq
    rcases heq with ⟨rfl, rfl⟩
    exact ⟨hm, rfl⟩
  · simp at h

lemma NonceManager.nextNonce_error {mgr mgr' : NonceManager} {e : String}
    (h : mgr.nextNonce = some (.error e, mgr')) : mgr' = mgr := by
  unfold nextNonce at h
  split_ifs at h
  · rcases Option.map_eq_some_iff.mp h with ⟨m, hm, heq⟩
    simp at heq
  · simp only [Option.some.injEq, Prod.mk.injEq] at h
    exact h.2.symm

/-! ## Runs of the manager -/

/-- The calls that settle or reserve a nonce. -/
inductive NonceCall
  | nextNonce
  | confirm (nonce : Nonce)
  | release (nonce : Nonce)
  | markStale (nonce : Nonce)
  | replaceNonce (nonce : Nonce)
  deriving DecidableEq

/-- A manager with what its callers have told it: the nonces they confirmed, and the nonces they
marked stale and have not taken back since. -/
structure NonceLog where
  mgr : NonceManager
  confirmed : Finset Nonce
  marked : Finset Nonce
  deriving DecidableEq

namespace NonceLog

/-- An initialised manager before its first call. -/
def fresh (pending : Nonce) : NonceLog := ⟨NonceManager.new.adoptPending pending, ∅, ∅⟩

def step (log : NonceLog) : NonceCall → Option NonceLog
  | .nextNonce => log.mgr.nextNonce.map fun r => { log with mgr := r.2 }
  | .confirm n => some { log with mgr := log.mgr.confirm n, confirmed := insert n log.confirmed }
  | .release n => some { log with mgr := log.mgr.release n }
  | .markStale n => some { log with mgr := log.mgr.markStale n, marked := insert n log.marked }
  | .replaceNonce n =>
      let r := log.mgr.replaceNonce n
      some { log with
        mgr := r.2
        marked := if r.1.isSome then log.marked.erase n else log.marked }

/-- A nonce is asked for only while no nonce in flight is below the counter, and a nonce above the
counter is left; `u64::MAX` is never confirmed. -/
def InOrder (log : NonceLog) : NonceCall → Prop
  | .nextNonce =>
      (∀ m ∈ log.mgr.state.inFlight, log.mgr.state.localNonce ≤ m) ∧
        ∃ m, log.mgr.state.localNonce ≤ m ∧ m ∉ log.mgr.state.inFlight ∧ m ∉ log.mgr.state.stale
  | .confirm n => n.val + 1 < 2 ^ 64
  | _ => True

/-- Every nonce the callers have settled is below the counter or still tracked as stale. -/
structure Accounted (log : NonceLog) : Prop where
  minTracked : log.mgr.state.MinTracked
  confirmed_lt : ∀ n ∈ log.confirmed, n < log.mgr.state.localNonce
  marked_tracked : ∀ n ∈ log.marked, n ∈ log.mgr.state.stale ∨ n < log.mgr.state.localNonce

variable {log log' : NonceLog}

lemma accounted_fresh (pending : Nonce) : (fresh pending).Accounted where
  minTracked := (leastOf_eq_none_iff.mpr rfl).symm
  confirmed_lt := by simp [fresh]
  marked_tracked := by simp [fresh]

lemma Accounted.confirm (h : log.Accounted) {n : Nonce} (hn : n.val + 1 < 2 ^ 64) :
    Accounted ⟨log.mgr.confirm n, insert n log.confirmed, log.marked⟩ where
  minTracked := h.minTracked.removeInFlight n
  confirmed_lt := by
    intro c hc
    simp only [NonceManager.confirm, NonceState.pruneStale, NonceState.localNonce_removeInFlight,
      lt_max_iff]
    rcases Finset.mem_insert.mp hc with rfl | hc
    · right
      rw [Fin.lt_def, Nonce.val_add_one hn]
      omega
    · left
      exact h.confirmed_lt c hc
  marked_tracked := by
    intro m hm
    simp only [NonceManager.confirm, NonceState.pruneStale, NonceState.localNonce_removeInFlight,
      NonceState.stale_removeInFlight, Finset.mem_filter]
    rcases h.marked_tracked m hm with hstale | hlt
    · by_cases hkeep : max log.mgr.state.localNonce (n + 1) ≤ m
      · exact .inl ⟨hstale, hkeep⟩
      · exact .inr (not_le.mp hkeep)
    · exact .inr (hlt.trans_le (le_max_left _ _))

lemma Accounted.markStale (h : log.Accounted) (n : Nonce) :
    Accounted ⟨log.mgr.markStale n, log.confirmed, insert n log.marked⟩ where
  minTracked := h.minTracked.removeInFlight n
  confirmed_lt := by simpa [NonceManager.markStale] using h.confirmed_lt
  marked_tracked := by
    intro m hm
    simp only [NonceManager.markStale, NonceState.stale_removeInFlight,
      NonceState.localNonce_removeInFlight, Finset.mem_insert] at hm ⊢
    rcases hm with rfl | hm
    · exact .inl (.inl rfl)
    · exact (h.marked_tracked m hm).imp_left .inr

lemma Accounted.replaceNonce (h : log.Accounted) (n : Nonce) {log' : NonceLog}
    (hstep : log.step (.replaceNonce n) = some log') : log'.Accounted := by
  simp only [step, Option.some.injEq] at hstep
  subst hstep
  by_cases hn : n ∈ log.mgr.state.stale ∨ n ∈ log.mgr.state.inFlight
  · simp only [NonceManager.replaceNonce, if_pos hn, Option.isSome_some, if_true]
    have hmin : { log.mgr.state with stale := log.mgr.state.stale.erase n }.MinTracked :=
      h.minTracked
    refine ⟨hmin.insertInFlight n, ?_, ?_⟩
    · simpa using h.confirmed_lt
    · intro m hm
      simp only [NonceState.stale_insertInFlight, NonceState.localNonce_insertInFlight]
      rcases Finset.mem_erase.mp hm with ⟨hne, hm⟩
      exact (h.marked_tracked m hm).imp_left fun hs => Finset.mem_erase.mpr ⟨hne, hs⟩
  · have hns : n ∉ log.mgr.state.stale := fun hs => hn (.inl hs)
    simp only [NonceManager.replaceNonce, if_neg hn, Finset.erase_eq_of_notMem hns,
      Option.isSome_none, Bool.false_eq_true, if_false]
    exact ⟨h.minTracked, h.confirmed_lt, h.marked_tracked⟩

lemma step_nextNonce (hstep : log.step .nextNonce = some log') :
    log' = log ∨ ∃ n, log.mgr.state.nextAvailable = some n ∧
      log' = { log with mgr := { log.mgr with state := log.mgr.state.insertInFlight n } } := by
  simp only [step, NonceManager.nextNonce, Option.map_eq_some_iff] at hstep
  rcases hstep with ⟨r, hr, rfl⟩
  split_ifs at hr with hi
  · rcases Option.map_eq_some_iff.mp hr with ⟨n, hn, rfl⟩
    exact .inr ⟨n, hn, rfl⟩
  · rw [Option.some.injEq] at hr
    subst hr
    exact .inl rfl

/-- One allowed call keeps the account. -/
lemma accounted_step {call : NonceCall} (h : log.Accounted) (hok : log.InOrder call)
    (hstep : log.step call = some log') : log'.Accounted := by
  cases call with
  | nextNonce =>
      rcases step_nextNonce hstep with rfl | ⟨n, -, rfl⟩
      · exact h
      · exact ⟨h.minTracked.insertInFlight n, by simpa using h.confirmed_lt,
          by simpa using h.marked_tracked⟩
  | confirm n =>
      simp only [step, Option.some.injEq] at hstep
      subst hstep
      exact h.confirm hok
  | release n =>
      simp only [step, Option.some.injEq] at hstep
      subst hstep
      exact ⟨h.minTracked.removeInFlight n, by simpa [NonceManager.release] using h.confirmed_lt,
        by simpa [NonceManager.release] using h.marked_tracked⟩
  | markStale n =>
      simp only [step, Option.some.injEq] at hstep
      subst hstep
      exact h.markStale n
  | replaceNonce n => exact h.replaceNonce n hstep

/-- In every run whose calls come in order, the nonce handed out is neither in flight nor stale
nor confirmed. -/
theorem nextNonce_fresh {pending : Nonce}
    (hrun : Reachable step InOrder (· = fresh pending) log) (hok : log.InOrder .nextNonce)
    {n : Nonce} {mgr' : NonceManager} (hnext : log.mgr.nextNonce = some (.ok n, mgr')) :
    n ∉ log.mgr.state.inFlight ∧ n ∉ log.mgr.state.stale ∧ n ∉ log.marked ∧
      n ∉ log.confirmed := by
  have hacc : log.Accounted := by
    refine hrun.inv Accounted ?_ ?_
    · rintro s rfl
      exact accounted_fresh pending
    · intro s a s' hs hallowed hstep
      exact accounted_step hs hallowed hstep
  have hn : log.mgr.state.nextAvailable = some n := (NonceManager.nextNonce_ok hnext).1
  rcases hok with ⟨hflight, free, hfree, hnotFlight, hnotStale⟩
  -- the probe starts at the counter, so it stays above everything that has been settled
  have hge : log.mgr.state.localNonce ≤ n :=
    NonceState.nextAvailable_ge hacc.minTracked le_rfl hflight hfree hnotFlight hnotStale hn
  rcases NonceState.nextAvailable_free hn with ⟨hnf, hns⟩
  refine ⟨hnf, hns, ?_, ?_⟩
  · intro hm
    rcases hacc.marked_tracked n hm with hs | hlt
    · exact hns hs
    · exact absurd hlt (not_lt.mpr hge)
  · intro hc
    exact absurd (hacc.confirmed_lt n hc) (not_lt.mpr hge)

/-- Nonce 5 is reserved and confirmed: the next one is 6. -/
theorem nextNonce_fresh_afterConfirm :
    ∃ log mgr', play step (fresh 5) [.nextNonce, .confirm 5] = some log ∧
      log.mgr.nextNonce = some (.ok 6, mgr') ∧ 6 ∉ log.confirmed := by
  let reserved : NonceLog := ⟨⟨true, ⟨5, {5}, some 5, ∅⟩⟩, ∅, ∅⟩
  let settled : NonceLog := ⟨⟨true, ⟨6, ∅, none, ∅⟩⟩, {5}, ∅⟩
  have hfirst : InOrder (fresh 5) .nextNonce :=
    ⟨fun m hm => absurd hm (Finset.notMem_empty m), 5, by decide⟩
  have hconfirm : InOrder reserved (.confirm 5) := by
    show (5 : Nonce).val + 1 < 2 ^ 64
    decide
  have hsecond : InOrder settled .nextNonce :=
    ⟨fun m hm => absurd hm (Finset.notMem_empty m), 6, by decide⟩
  have hfresh : Reachable step InOrder (· = fresh 5) (fresh 5) := .init rfl
  have hreserved : Reachable step InOrder (· = fresh 5) reserved := hfresh.step hfirst (by decide)
  have hsettled : Reachable step InOrder (· = fresh 5) settled :=
    hreserved.step hconfirm (by decide)
  have hnext : settled.mgr.nextNonce = some (.ok 6, ⟨true, ⟨6, {6}, some 6, ∅⟩⟩) := rfl
  exact ⟨settled, _, by decide, hnext, (nextNonce_fresh hsettled hsecond hnext).2.2.2⟩

/-- Nonces 5 and 6 are in flight and 6 is confirmed first: the next nonce handed out is 6. -/
theorem nextNonce_returns_confirmed :
    ∃ log mgr', play step (fresh 5) [.nextNonce, .nextNonce, .confirm 6] = some log ∧
      log.mgr.nextNonce = some (.ok 6, mgr') ∧ 6 ∈ log.confirmed := by
  refine ⟨_, _, rfl, rfl, by decide⟩

end NonceLog

end PolygonArb

import Mathlib.Algebra.Ring.Nat
import PolygonArb.Lib.Threads
import PolygonArb.Lib.Transition

/-!
# Scheduling HF ticks

`HfScheduler` and `schedule_hf_tick` of `orchestrator/pass_loop.rs`, with the `StreamTrigger` of
`services/partial_cache`.  The pass loop and the HF tasks share a semaphore with one permit, two atomic
flags and the latch of the trigger.  Every label of `HfScheduler.step` is one access to one of them, so a
run is an interleaving of the pass loop, any number of tasks between dropping their permit and ending, and
the stream feed.

A refused request is remembered in `pending`, its stream signal in `streamPending`.  Between the refusal
and the two stores the running tick can drop its permit and look at `pending` in vain; the request then
waits for the next event of the pass loop (`hf_request_stranded`), but it is not lost:

* `hf_ticks_exclusive` — two ticks never run at once.
* `hf_signal_kept` — until a stream tick starts, a stream signal is in the latch, in the flag, or with a
  thread that will start a tick or put it back; and a refused request is in `pending` or with a thread.
* `hf_timer_recovers` — when the program is at rest, the next timer tick starts a tick, and a stream tick
  if a signal waits, whatever patches land on the way.

The latch is a counter of 64 bits.  A signal is lost when it wraps, after `2 ^ 64` patches that no tick has
taken; `LatchFits` leaves these runs out where signals are concerned.
-/

namespace PolygonArb

open Function Threads Transition

/-- Where a thread stands.  `stream` is its local `stream_triggered`. -/
inductive HfPhase
  /-- No such task, or it has ended. -/
  | absent
  /-- The pass loop between two events. -/
  | idle
  /-- `schedule_timer_tick` has taken `stream_pending`; the latch is looked at next. -/
  | peek (pending : Bool)
  /-- `schedule_hf_tick` begins. -/
  | enter (stream : Bool)
  | acquire (stream : Bool)
  /-- No permit: `hf_pending` is stored next. -/
  | refused (stream : Bool)
  /-- The latch is looked at next. -/
  | refusedStream (stream : Bool)
  /-- `hf_stream_pending` is stored next. -/
  | markStream
  /-- A permit: `hf_pending` is cleared next. -/
  | granted (stream : Bool)
  | takeLatch (stream : Bool)
  | takeStream (stream : Bool)
  | spawn (stream : Bool)
  /-- The task looks at the shutdown flag. -/
  | started (stream : Bool)
  /-- `run_hf_tick` looks at the latch once more. -/
  | relatch (stream : Bool)
  /-- The rest of `run_hf_tick`. -/
  | running (stream : Bool)
  /-- The permit is dropped; `hf_pending` is taken next. -/
  | finished
  /-- `hf_pending` was set. -/
  | retry
  /-- `clear_hf_pending_on_shutdown`, with or without the permit in scope. -/
  | clearPending (permit : Bool)
  | clearStream (permit : Bool)
  deriving DecidableEq

/-- The shared state and the threads.  Thread `0` is the pass loop. -/
structure HfScheduler where
  permit : Bool
  pending : Bool
  streamPending : Bool
  /-- `StreamTrigger::stream_tick`, an `AtomicU64`. -/
  streamTick : ℕ
  shutdown : Bool
  streamMinInterval : ℕ
  lastStreamHfAt : ℕ
  threads : ℕ → HfPhase

inductive HfLabel
  /-- A patch lands in the partial cache. -/
  | notify
  | shutdown
  /-- The interval timer of the pass loop fires. -/
  | timer
  /-- The timer tick looks at the latch, at `now`. -/
  | peek (now : ℕ)
  /-- The watch arm of the pass loop wakes up at `now`. -/
  | stream (now : ℕ)
  /-- The task gets a thread of its own. -/
  | spawn (r child : ℕ)
  /-- Any other step of thread `r`. -/
  | advance (r : ℕ)
  deriving DecidableEq

namespace HfScheduler

/-- Where a thread goes after `schedule_hf_tick`: the pass loop waits, a task ends. -/
def rest (r : ℕ) : HfPhase := if r = 0 then .idle else .absent

/-- `HfScheduler::new`, at `now`. -/
def new (streamMinInterval now : ℕ) : HfScheduler where
  permit := true
  pending := false
  streamPending := false
  streamTick := 0
  shutdown := false
  streamMinInterval := streamMinInterval
  lastStreamHfAt := if streamMinInterval ≤ now then now - streamMinInterval else now
  threads := rest

/-- Thread `r` moves to a phase. -/
def moved (s : HfScheduler) (r : ℕ) (ph : HfPhase) : HfScheduler :=
  { s with threads := update s.threads r ph }

def advance (s : HfScheduler) (r : ℕ) : Option HfScheduler :=
  match s.threads r with
  | .enter stream => some (s.moved r (if s.shutdown then .clearPending false else .acquire stream))
  | .acquire stream =>
      some (if s.permit then { s with permit := false }.moved r (.granted stream)
        else s.moved r (.refused stream))
  | .refused stream => some ({ s with pending := true }.moved r (.refusedStream stream))
  | .refusedStream stream =>
      some (s.moved r (if stream || decide (0 < s.streamTick) then .markStream else rest r))
  | .markStream => some ({ s with streamPending := true }.moved r (rest r))
  | .granted stream => some ({ s with pending := false }.moved r (.takeLatch stream))
  | .takeLatch stream =>
      some ({ s with streamTick := 0 }.moved r (.takeStream (stream || decide (0 < s.streamTick))))
  | .takeStream stream =>
      some ({ s with streamPending := false }.moved r (.spawn (stream || s.streamPending)))
  | .started stream => some (s.moved r (if s.shutdown then .clearPending true else .relatch stream))
  | .relatch stream =>
      some ({ s with streamTick := 0 }.moved r (.running (stream || decide (0 < s.streamTick))))
  | .running _ => some ({ s with permit := true }.moved r .finished)
  | .finished => some ({ s with pending := false }.moved r (if s.pending then .retry else rest r))
  | .retry => some (s.moved r (if s.shutdown then .clearPending false else .enter false))
  | .clearPending permit => some ({ s with pending := false }.moved r (.clearStream permit))
  | .clearStream permit =>
      some ({ s with streamPending := false, permit := s.permit || permit }.moved r (rest r))
  | _ => none

def step (s : HfScheduler) : HfLabel → Option HfScheduler
  | .notify => some { s with streamTick := (s.streamTick + 1) % 2 ^ 64 }
  | .shutdown => some { s with shutdown := true }
  | .timer =>
      match s.threads 0 with
      | .idle => some ({ s with streamPending := false }.moved 0 (.peek s.streamPending))
      | _ => none
  | .peek now =>
      match s.threads 0 with
      | .peek pending =>
          let stream := pending || decide (0 < s.streamTick)
          some ({ s with lastStreamHfAt := if stream then now else s.lastStreamHfAt }.moved 0 (.enter stream))
      | _ => none
  | .stream now =>
      match s.threads 0 with
      | .idle =>
          -- too soon after the last stream tick: the signal is kept for the timer
          some (if now - s.lastStreamHfAt < s.streamMinInterval then { s with streamPending := true }
            else { s with lastStreamHfAt := now }.moved 0 (.enter true))
      | _ => none
  | .spawn r child =>
      match s.threads r, s.threads child with
      | .spawn stream, .absent =>
          some { s with threads := update (update s.threads child (.started stream)) r (rest r) }
      | _, _ => none
  | .advance r => s.advance r

end HfScheduler

/-! ## What is owed -/

/-- The scheduler and its history: a patch has landed since the last stream tick started, and since the last
tick started one was asked for by the pass loop or refused to anyone. -/
structure HfRun where
  sched : HfScheduler
  signalOwed : Bool
  tickOwed : Bool

namespace HfRun

def new (streamMinInterval now : ℕ) : HfRun := ⟨.new streamMinInterval now, false, false⟩

/-- The tick that thread `r` is about to start, if it is. -/
def starting (s : HfScheduler) (r : ℕ) : Option Bool :=
  match s.threads r with
  | .relatch stream => some (stream || decide (0 < s.streamTick))
  | _ => none

/-- Thread `r` is about to be refused a permit. -/
def refusing (s : HfScheduler) (r : ℕ) : Bool :=
  match s.threads r with
  | .acquire _ => !s.permit
  | _ => false

/-- The scheduler takes a step, and the history is kept. -/
def step (w : HfRun) (a : HfLabel) : Option HfRun :=
  (w.sched.step a).map fun s =>
    match a with
    | .notify => ⟨s, true, w.tickOwed⟩
    | .timer => ⟨s, w.signalOwed, true⟩
    | .stream now =>
        ⟨s, w.signalOwed,
          w.tickOwed || decide (w.sched.streamMinInterval ≤ now - w.sched.lastStreamHfAt)⟩
    | .advance r =>
        ⟨s, w.signalOwed && !(starting w.sched r == some true),
          w.tickOwed && (starting w.sched r).isNone || refusing w.sched r⟩
    | _ => ⟨s, w.signalOwed, w.tickOwed⟩

/-- A patch finds room in the latch. -/
def LatchFits (w : HfRun) (a : HfLabel) : Prop := a = .notify → w.sched.streamTick + 1 < 2 ^ 64

end HfRun

/-! ## The invariant -/

namespace HfPhase

/-- The thread has the permit. -/
def Holds : HfPhase → Prop
  | .granted _ | .takeLatch _ | .takeStream _ | .spawn _ | .started _ | .relatch _ | .running _ => True
  | .clearPending permit | .clearStream permit => permit = true
  | _ => False

/-- The thread has a stream signal that is nowhere else. -/
def Carries : HfPhase → Prop
  | .peek stream | .enter stream | .acquire stream | .refused stream | .refusedStream stream
  | .granted stream | .takeLatch stream | .takeStream stream | .spawn stream | .started stream
  | .relatch stream => stream = true
  | .markStream => True
  | _ => False

/-- The thread is inside `run_hf_tick`. -/
def InTick : HfPhase → Prop
  | .relatch _ | .running _ => True
  | _ => False

/-- The thread starts a tick next, or remembers that one is wanted. -/
def OnItsWay : HfPhase → Prop
  | .peek _ | .enter _ | .acquire _ | .refused _ | .granted _ | .takeLatch _ | .takeStream _ | .spawn _
  | .started _ | .relatch _ | .retry => True
  | _ => False

/-- The thread has seen the shutdown. -/
def Clearing : HfPhase → Prop
  | .clearPending _ | .clearStream _ => True
  | _ => False

end HfPhase

/-- A stream signal is kept somewhere. -/
def HfScheduler.SignalKept (s : HfScheduler) : Prop :=
  0 < s.streamTick ∨ s.streamPending = true ∨ Carried HfPhase.Carries s.threads

/-- A request for a tick is kept somewhere. -/
def HfScheduler.TickKept (s : HfScheduler) : Prop :=
  s.pending = true ∨ Carried HfPhase.OnItsWay s.threads

/-- What holds in every run, and of the signals where the latch `fits`. -/
structure HfRun.Inv (fits : Prop) (w : HfRun) : Prop where
  exclusive : Exclusive HfPhase.Holds w.sched.permit w.sched.threads
  clearing : Carried HfPhase.Clearing w.sched.threads → w.sched.shutdown = true
  signal : fits → w.sched.shutdown = false → w.signalOwed = true → w.sched.SignalKept
  tick : w.sched.shutdown = false → w.tickOwed = true → w.sched.TickKept

/-! ## What one step keeps -/

lemma HfPhase.InTick.holds {ph : HfPhase} (h : ph.InTick) : ph.Holds := by
  cases ph <;> trivial

namespace HfScheduler

variable {s s' : HfScheduler} {r : ℕ} {ph : HfPhase}

/-- A signal stays kept when what the thread clears it takes along, and what it puts down it sets. -/
lemma SignalKept.moved (h : s.SignalKept) (hthreads : s'.threads = update s.threads r ph)
    (hlatch : 0 < s.streamTick → 0 < s'.streamTick ∨ ph.Carries)
    (hflag : s.streamPending = true → s'.streamPending = true ∨ ph.Carries)
    (hcarry : (s.threads r).Carries → s'.streamPending = true ∨ ph.Carries) : s'.SignalKept := by
  have hput : s'.streamPending = true ∨ ph.Carries → s'.SignalKept := by
    rintro (hset | hph)
    · exact Or.inr (Or.inl hset)
    · exact Or.inr (Or.inr (hthreads ▸ carried_update hph))
  rcases h with hlatch' | hflag' | hcarried
  · rcases hlatch hlatch' with hset | hph
    · exact Or.inl hset
    · exact hput (Or.inr hph)
  · exact hput (hflag hflag')
  · by_cases hr : (s.threads r).Carries
    · exact hput (hcarry hr)
    · exact Or.inr (Or.inr (hthreads ▸ hcarried.move fun hc => absurd hc hr))

lemma TickKept.moved (h : s.TickKept) (hthreads : s'.threads = update s.threads r ph)
    (hflag : s.pending = true → s'.pending = true ∨ ph.OnItsWay)
    (hway : (s.threads r).OnItsWay → s'.pending = true ∨ ph.OnItsWay) : s'.TickKept := by
  have hput : s'.pending = true ∨ ph.OnItsWay → s'.TickKept :=
    fun hset => hset.imp_right fun hph => hthreads ▸ carried_update hph
  rcases h with hflag' | hcarried
  · exact hput (hflag hflag')
  · by_cases hr : (s.threads r).OnItsWay
    · exact hput (hway hr)
    · exact Or.inr (hthreads ▸ hcarried.move fun hc => absurd hc hr)

lemma not_holds_rest : ¬ (rest r).Holds := by
  rw [rest]
  split_ifs <;> exact id

lemma not_clearing_rest : ¬ (rest r).Clearing := by
  rw [rest]
  split_ifs <;> exact id

end HfScheduler

namespace HfRun

open HfScheduler

variable {fits : Prop} {w w' : HfRun} {s : HfScheduler} {r : ℕ} {ph : HfPhase} {signalOwed tickOwed stream : Bool}

/-- The invariant after thread `r` moves to `ph`. -/
lemma Inv.moved (h : w.Inv fits) (hthreads : s.threads = update w.sched.threads r ph)
    (hshutdown : s.shutdown = w.sched.shutdown) (hexclusive : Exclusive HfPhase.Holds s.permit s.threads)
    (hclearing : ph.Clearing → w.sched.shutdown = true)
    (hsignal : w.sched.shutdown = false → signalOwed = true → w.signalOwed = true ∧
      (0 < w.sched.streamTick → 0 < s.streamTick ∨ ph.Carries) ∧
      (w.sched.streamPending = true → s.streamPending = true ∨ ph.Carries) ∧
      ((w.sched.threads r).Carries → s.streamPending = true ∨ ph.Carries))
    (htick : w.sched.shutdown = false → tickOwed = true →
      (w.tickOwed = true ∧ (w.sched.pending = true → s.pending = true ∨ ph.OnItsWay) ∧
        ((w.sched.threads r).OnItsWay → s.pending = true ∨ ph.OnItsWay)) ∨ ph.OnItsWay) :
    Inv fits ⟨s, signalOwed, tickOwed⟩ := by
  refine ⟨hexclusive, ?_, ?_, ?_⟩
  · rintro ⟨r', hr'⟩
    rw [hshutdown]
    by_cases heq : r' = r
    · rw [heq, hthreads, update_self] at hr'
      exact hclearing hr'
    · rw [hthreads, update_of_ne heq] at hr'
      exact h.clearing ⟨r', hr'⟩
  · intro hfits hoff howed
    rcases hsignal (hshutdown ▸ hoff) howed with ⟨hbefore, hlatch, hflag, hcarry⟩
    exact (h.signal hfits (hshutdown ▸ hoff) hbefore).moved hthreads hlatch hflag hcarry
  · intro hoff howed
    rcases htick (hshutdown ▸ hoff) howed with ⟨hbefore, hflag, hway⟩ | hph
    · exact (h.tick (hshutdown ▸ hoff) hbefore).moved hthreads hflag hway
    · exact Or.inr (hthreads ▸ carried_update hph)

/-- A thread moves on without the permit changing hands. -/
lemma Inv.exclusive_moved (h : w.Inv fits) (hsame : ph.Holds ↔ (w.sched.threads r).Holds) :
    Exclusive HfPhase.Holds w.sched.permit (update w.sched.threads r ph) :=
  h.exclusive.move hsame

lemma Inv.exclusive_rest (h : w.Inv fits) (hr : ¬ (w.sched.threads r).Holds) :
    Exclusive HfPhase.Holds w.sched.permit (update w.sched.threads r (rest r)) :=
  h.exclusive_moved (iff_of_false not_holds_rest hr)

/-- The child takes over all that its parent held and carried. -/
lemma Inv.spawned (h : w.Inv fits) {child : ℕ} {stream : Bool} (hr : w.sched.threads r = .spawn stream)
    (hchild : w.sched.threads child = .absent)
    (hthreads : s.threads = update (update w.sched.threads child (.started stream)) r (rest r))
    (hsame : s = { w.sched with threads := s.threads }) : Inv fits ⟨s, w.signalOwed, w.tickOwed⟩ := by
  have hne : child ≠ r := by
    rintro rfl
    simp [hr] at hchild
  rw [hthreads] at hsame
  subst hsame
  refine ⟨h.exclusive.handOver (by rw [hr]; trivial) not_holds_rest trivial hne, ?_, ?_, ?_⟩
  · intro hclearing
    refine h.clearing (hclearing.imp fun r' hr' => ?_)
    by_cases hparent : r' = r
    · rw [hparent] at hr'
      simp [not_clearing_rest] at hr'
    · by_cases hstarted : r' = child
      · simp [hstarted, hne, HfPhase.Clearing] at hr'
      · simpa [hparent, hstarted] using hr'
  · intro hfits hoff howed
    refine (h.signal hfits hoff howed).imp_right (Or.imp_right fun hcarried => ?_)
    exact hcarried.handOver (by simp [hr, HfPhase.Carries]) (by simp [hchild, HfPhase.Carries]) hne
  · intro hoff howed
    refine (h.tick hoff howed).imp_right fun hway => ?_
    exact hway.handOver (fun _ => trivial) (by simp [hchild, HfPhase.OnItsWay]) hne

section Advance

attribute [local simp] HfPhase.Holds HfPhase.Clearing HfPhase.Carries HfPhase.OnItsWay HfScheduler.moved

/-! Asking for a permit. -/

lemma Inv.enter (h : w.Inv fits) (hph : w.sched.threads r = .enter stream) :
    Inv fits ⟨w.sched.moved r (if w.sched.shutdown then .clearPending false else .acquire stream),
      w.signalOwed, w.tickOwed⟩ := by
  cases hoff : w.sched.shutdown with
  | true =>
      refine h.moved rfl rfl (h.exclusive_moved ?_) ?_ ?_ ?_
      all_goals simp [hph, hoff]
  | false =>
      refine h.moved rfl rfl (h.exclusive_moved ?_) ?_ ?_ ?_
      all_goals simp +contextual [hph]

lemma Inv.take (h : w.Inv fits) (hph : w.sched.threads r = .acquire stream) (hpermit : w.sched.permit = true) :
    Inv fits ⟨{ w.sched with permit := false }.moved r (.granted stream), w.signalOwed, w.tickOwed⟩ := by
  refine h.moved rfl rfl ((hpermit ▸ h.exclusive).take trivial) ?_ ?_ ?_
  all_goals simp +contextual [hph]

/-- A refused request is with its thread first. -/
lemma Inv.refuse (h : w.Inv fits) (hph : w.sched.threads r = .acquire stream) :
    Inv fits ⟨w.sched.moved r (.refused stream), w.signalOwed, true⟩ := by
  refine h.moved rfl rfl (h.exclusive_moved ?_) ?_ ?_ ?_
  all_goals simp +contextual [hph]

/-! Refused. -/

lemma Inv.refused (h : w.Inv fits) (hph : w.sched.threads r = .refused stream) :
    Inv fits ⟨{ w.sched with pending := true }.moved r (.refusedStream stream), w.signalOwed, w.tickOwed⟩ := by
  refine h.moved rfl rfl (h.exclusive_moved ?_) ?_ ?_ ?_
  all_goals simp +contextual [hph]

lemma Inv.refusedStream (h : w.Inv fits) (hph : w.sched.threads r = .refusedStream stream) :
    Inv fits ⟨w.sched.moved r (if stream || decide (0 < w.sched.streamTick) then .markStream else rest r),
      w.signalOwed, w.tickOwed⟩ := by
  by_cases hmark : (stream || decide (0 < w.sched.streamTick)) = true
  · rw [if_pos hmark]
    refine h.moved rfl rfl (h.exclusive_moved ?_) ?_ ?_ ?_
    all_goals simp +contextual [hph]
  · rw [if_neg hmark]
    refine h.moved rfl rfl (h.exclusive_rest ?_) (absurd · not_clearing_rest) ?_ ?_
    all_goals simp_all

lemma Inv.markStream (h : w.Inv fits) (hph : w.sched.threads r = .markStream) :
    Inv fits ⟨{ w.sched with streamPending := true }.moved r (rest r), w.signalOwed, w.tickOwed⟩ := by
  refine h.moved rfl rfl (h.exclusive_rest ?_) (absurd · not_clearing_rest) ?_ ?_
  all_goals simp +contextual [hph]

/-! With the permit.  The thread takes the flags along. -/

lemma Inv.granted (h : w.Inv fits) (hph : w.sched.threads r = .granted stream) :
    Inv fits ⟨{ w.sched with pending := false }.moved r (.takeLatch stream), w.signalOwed, w.tickOwed⟩ := by
  refine h.moved rfl rfl (h.exclusive_moved ?_) ?_ ?_ ?_
  all_goals simp +contextual [hph]

lemma Inv.takeLatch (h : w.Inv fits) (hph : w.sched.threads r = .takeLatch stream) :
    Inv fits ⟨{ w.sched with streamTick := 0 }.moved r (.takeStream (stream || decide (0 < w.sched.streamTick))),
      w.signalOwed, w.tickOwed⟩ := by
  refine h.moved rfl rfl (h.exclusive_moved ?_) ?_ ?_ ?_
  all_goals simp +contextual [hph]

lemma Inv.takeStream (h : w.Inv fits) (hph : w.sched.threads r = .takeStream stream) :
    Inv fits ⟨{ w.sched with streamPending := false }.moved r (.spawn (stream || w.sched.streamPending)),
      w.signalOwed, w.tickOwed⟩ := by
  refine h.moved rfl rfl (h.exclusive_moved ?_) ?_ ?_ ?_
  all_goals simp +contextual [hph]

/-! The task. -/

lemma Inv.started (h : w.Inv fits) (hph : w.sched.threads r = .started stream) :
    Inv fits ⟨w.sched.moved r (if w.sched.shutdown then .clearPending true else .relatch stream),
      w.signalOwed, w.tickOwed⟩ := by
  cases hoff : w.sched.shutdown with
  | true =>
      refine h.moved rfl rfl (h.exclusive_moved ?_) ?_ ?_ ?_
      all_goals simp [hph, hoff]
  | false =>
      refine h.moved rfl rfl (h.exclusive_moved ?_) ?_ ?_ ?_
      all_goals simp +contextual [hph]

/-- A tick that starts pays what is owed, the signal if it is a stream tick. -/
lemma Inv.relatch (h : w.Inv fits) (hph : w.sched.threads r = .relatch stream) :
    Inv fits ⟨{ w.sched with streamTick := 0 }.moved r (.running (stream || decide (0 < w.sched.streamTick))),
      w.signalOwed && !(stream || decide (0 < w.sched.streamTick)), false⟩ := by
  refine h.moved rfl rfl (h.exclusive_moved ?_) ?_ ?_ ?_
  all_goals simp +contextual [hph]

lemma Inv.running (h : w.Inv fits) (hph : w.sched.threads r = .running stream) :
    Inv fits ⟨{ w.sched with permit := true }.moved r .finished, w.signalOwed, w.tickOwed⟩ := by
  refine h.moved rfl rfl (h.exclusive.drop (r := r) ?_ ?_) ?_ ?_ ?_
  all_goals simp +contextual [hph]

lemma Inv.finished (h : w.Inv fits) (hph : w.sched.threads r = .finished) :
    Inv fits ⟨{ w.sched with pending := false }.moved r (if w.sched.pending then .retry else rest r),
      w.signalOwed, w.tickOwed⟩ := by
  cases hpending : w.sched.pending with
  | true =>
      refine h.moved rfl rfl (h.exclusive_moved ?_) ?_ ?_ ?_
      all_goals simp +contextual [hph]
  | false =>
      refine h.moved rfl rfl (h.exclusive_rest ?_) (absurd · not_clearing_rest) ?_ ?_
      all_goals simp +contextual [hph, hpending]

lemma Inv.retry (h : w.Inv fits) (hph : w.sched.threads r = .retry) :
    Inv fits ⟨w.sched.moved r (if w.sched.shutdown then .clearPending false else .enter false),
      w.signalOwed, w.tickOwed⟩ := by
  cases hoff : w.sched.shutdown with
  | true =>
      refine h.moved rfl rfl (h.exclusive_moved ?_) ?_ ?_ ?_
      all_goals simp [hph, hoff]
  | false =>
      refine h.moved rfl rfl (h.exclusive_moved ?_) ?_ ?_ ?_
      all_goals simp +contextual [hph]

/-! After the shutdown. -/

lemma Inv.clearPending {permit : Bool} (h : w.Inv fits) (hph : w.sched.threads r = .clearPending permit) :
    Inv fits ⟨{ w.sched with pending := false }.moved r (.clearStream permit), w.signalOwed, w.tickOwed⟩ := by
  have hoff : w.sched.shutdown = true := h.clearing ⟨r, by simp [hph]⟩
  refine h.moved rfl rfl (h.exclusive_moved ?_) ?_ ?_ ?_
  all_goals simp [hph, hoff]

lemma Inv.clearStream {permit : Bool} (h : w.Inv fits) (hph : w.sched.threads r = .clearStream permit) :
    Inv fits ⟨{ w.sched with streamPending := false, permit := w.sched.permit || permit }.moved r (rest r),
      w.signalOwed, w.tickOwed⟩ := by
  have hoff : w.sched.shutdown = true := h.clearing ⟨r, by simp [hph]⟩
  refine h.moved rfl rfl ?_ (absurd · not_clearing_rest) ?_ ?_
  · cases permit with
    | true => simpa using h.exclusive.drop (r := r) (by simp [hph]) not_holds_rest
    | false => simpa using h.exclusive_rest (by simp [hph])
  all_goals simp [hoff]

lemma Inv.advance (h : w.Inv fits) (hstep : w.sched.advance r = some s) :
    Inv fits ⟨s, w.signalOwed && !(starting w.sched r == some true),
      w.tickOwed && (starting w.sched r).isNone || refusing w.sched r⟩ := by
  rw [HfScheduler.advance] at hstep
  rw [starting, refusing]
  cases hph : w.sched.threads r with
  | absent | idle | peek pending | spawn stream => simp [hph] at hstep
  | acquire stream =>
      rw [hph, Option.some.injEq] at hstep
      subst hstep
      cases hpermit : w.sched.permit with
      | true => simpa using h.take hph hpermit
      | false => simpa using h.refuse hph
  | relatch stream =>
      rw [hph, Option.some.injEq] at hstep
      subst hstep
      simpa using h.relatch hph
  | _ =>
      -- the other phases start no tick and are refused nothing
      rw [hph, Option.some.injEq] at hstep
      subst hstep
      first
      | simpa using h.enter hph
      | simpa using h.refused hph
      | simpa using h.refusedStream hph
      | simpa using h.markStream hph
      | simpa using h.granted hph
      | simpa using h.takeLatch hph
      | simpa using h.takeStream hph
      | simpa using h.started hph
      | simpa using h.running hph
      | simpa using h.finished hph
      | simpa using h.retry hph
      | simpa using h.clearPending hph
      | simpa using h.clearStream hph

lemma notified_pos {latch : ℕ} (hfits : latch + 1 < 2 ^ 64) : 0 < (latch + 1) % 2 ^ 64 := by
  rw [Nat.mod_eq_of_lt hfits]
  exact Nat.succ_pos _

/-- The pass loop reacts to an event. -/
lemma Inv.event (h : w.Inv fits) {a : HfLabel} (ha : ∀ r, a ≠ .advance r) (hfits : fits → LatchFits w a)
    (hstep : w.step a = some w') : w'.Inv fits := by
  rcases Option.map_eq_some_iff.mp hstep with ⟨s, hs, rfl⟩
  cases a with
  | advance r => exact absurd rfl (ha r)
  | notify =>
      cases hs
      exact ⟨h.exclusive, h.clearing, fun hroom _ _ => Or.inl (notified_pos (hfits hroom rfl)), h.tick⟩
  | shutdown =>
      cases hs
      exact ⟨h.exclusive, fun _ => rfl, fun _ hoff => absurd hoff (by simp), fun hoff => absurd hoff (by simp)⟩
  | timer =>
      rw [HfScheduler.step] at hs
      split at hs
      · next hph =>
        cases hs
        refine h.moved rfl rfl (h.exclusive_moved ?_) ?_ ?_ ?_
        all_goals simp +contextual [hph]
      · cases hs
  | peek now =>
      rw [HfScheduler.step] at hs
      split at hs
      · next hph =>
        cases hs
        refine h.moved rfl rfl (h.exclusive_moved ?_) ?_ ?_ ?_
        all_goals simp +contextual [hph]
      · cases hs
  | stream now =>
      rw [HfScheduler.step] at hs
      split at hs
      · next hph =>
        by_cases hsoon : now - w.sched.lastStreamHfAt < w.sched.streamMinInterval
        · rw [if_pos hsoon] at hs
          cases hs
          refine ⟨h.exclusive, h.clearing, fun _ _ _ => Or.inr (Or.inl rfl), ?_⟩
          intro hoff howed
          exact h.tick hoff (by simpa [Nat.not_le.mpr hsoon] using howed)
        · rw [if_neg hsoon] at hs
          cases hs
          refine h.moved rfl rfl (h.exclusive_moved ?_) ?_ ?_ ?_
          all_goals simp +contextual [hph]
      · cases hs
  | spawn r child =>
      rw [HfScheduler.step] at hs
      split at hs
      · next stream hr hchild =>
        cases hs
        exact h.spawned hr hchild rfl rfl
      · cases hs

end Advance

/-! ## Whole runs -/

/-- `HfScheduler::new`, at some moment. -/
def Fresh (w : HfRun) : Prop := ∃ streamMinInterval now, w = .new streamMinInterval now

/-- The states of the runs from `HfScheduler::new`. -/
def Reached (w : HfRun) : Prop := Reachable step (fun _ _ => True) Fresh w

/-- The states of the runs in which fewer than `2 ^ 64` patches are ever untaken. -/
def ReachedFitting (w : HfRun) : Prop := Reachable step LatchFits Fresh w

lemma inv_new (streamMinInterval now : ℕ) : (new streamMinInterval now).Inv fits := by
  have hrest : ∀ r, ¬ (rest r).Holds ∧ ¬ (rest r).Clearing :=
    fun r => ⟨not_holds_rest, not_clearing_rest⟩
  refine ⟨⟨⟨fun _ r => (hrest r).1, fun _ => rfl⟩, fun r _ hr => absurd hr (hrest r).1⟩, ?_, ?_, ?_⟩
  · rintro ⟨r, hr⟩
    exact absurd hr (hrest r).2
  · intro _ _ howed
    simp [new] at howed
  · intro _ howed
    simp [new] at howed

lemma Inv.step {a : HfLabel} (h : w.Inv fits) (hfits : fits → LatchFits w a) (hstep : w.step a = some w') :
    w'.Inv fits := by
  by_cases ha : ∃ r, a = .advance r
  · obtain ⟨r, rfl⟩ := ha
    obtain ⟨s, hs, rfl⟩ := Option.map_eq_some_iff.mp hstep
    exact h.advance hs
  · exact h.event (fun r hr => ha ⟨r, hr⟩) hfits hstep

lemma Reached.inv (h : w.Reached) : w.Inv False := by
  refine Reachable.inv (Inv False) ?_ ?_ h
  · rintro w ⟨streamMinInterval, now, rfl⟩
    exact inv_new streamMinInterval now
  · intro w a w' hw _ hstep
    exact hw.step False.elim hstep

lemma ReachedFitting.inv (h : w.ReachedFitting) : w.Inv True := by
  refine Reachable.inv (Inv True) ?_ ?_ h
  · rintro w ⟨streamMinInterval, now, rfl⟩
    exact inv_new streamMinInterval now
  · intro w a w' hw hfits hstep
    exact hw.step (fun _ => hfits) hstep

lemma ReachedFitting.reached (h : w.ReachedFitting) : w.Reached :=
  h.mono fun _ _ _ => trivial

/-! One step counts one patch at most, so a short run fits. -/

lemma streamTick_advance_le (hstep : w.sched.advance r = some s) : s.streamTick ≤ w.sched.streamTick := by
  rw [HfScheduler.advance] at hstep
  split at hstep <;> cases hstep
  case h_2 => split_ifs <;> exact Nat.le_refl _
  all_goals first | exact Nat.le_refl _ | exact Nat.zero_le _

lemma streamTick_step_le {a : HfLabel} (hstep : w.step a = some w') :
    w'.sched.streamTick ≤ w.sched.streamTick + 1 := by
  obtain ⟨s, hs, rfl⟩ := Option.map_eq_some_iff.mp hstep
  have hle : s.streamTick ≤ w.sched.streamTick + 1 := by
    cases a with
    | advance r => exact Nat.le_succ_of_le (streamTick_advance_le hs)
    | notify =>
        cases hs
        exact Nat.mod_le _ _
    | shutdown =>
        cases hs
        exact Nat.le_succ _
    | timer | peek now | spawn r child =>
        rw [HfScheduler.step] at hs
        split at hs <;> cases hs
        exact Nat.le_succ _
    | stream now =>
        rw [HfScheduler.step] at hs
        split at hs <;> cases hs
        split_ifs <;> exact Nat.le_succ _
  cases a <;> exact hle

lemma allowed_of_short {labels : List HfLabel} (hshort : w.sched.streamTick + labels.length < 2 ^ 64) :
    Allowed step LatchFits w labels := by
  induction labels generalizing w with
  | nil => trivial
  | cons a labels ih =>
      rw [List.length_cons] at hshort
      refine ⟨fun _ => by omega, fun w' hstep => ih ?_⟩
      have hle := streamTick_step_le hstep
      omega

lemma ReachedFitting.play (h : w.ReachedFitting) {labels : List HfLabel}
    (hshort : w.sched.streamTick + labels.length < 2 ^ 64)
    (hplay : Transition.play step w labels = some w') : w'.ReachedFitting :=
  (allowed_of_short hshort).reachable h hplay

/-- The labels of a timer tick whose task is `child`, up to the start of its tick. -/
def timerTick (child now : ℕ) : List HfLabel :=
  [.timer, .peek now, .advance 0, .advance 0, .advance 0, .advance 0, .advance 0, .spawn 0 child,
    .advance child, .advance child]

/-- With the permit free, the timer's run goes through and takes the flag and the latch along. -/
lemma play_timerTick (hon : w.sched.shutdown = false) (hrest : w.sched.threads = rest)
    (hpermit : w.sched.permit = true) {child : ℕ} (hchild : child ≠ 0) (now : ℕ) :
    ∃ w', play step w (timerTick child now) = some w' ∧ w'.sched.shutdown = false ∧
      w'.sched.permit = false ∧ w'.sched.pending = false ∧ w'.sched.streamTick = 0 ∧
      w'.sched.threads =
        update rest child (.running (w.sched.streamPending || decide (0 < w.sched.streamTick))) := by
  simp [timerTick, play, step, HfScheduler.step, HfScheduler.advance, HfScheduler.moved, hrest, hon,
    hpermit, hchild, rest]
  funext r
  by_cases hloop : r = 0
  · simp [hloop, hchild.symm, rest]
  · by_cases htask : r = child <;> simp [hloop, htask, rest]

/-- Two ticks never run at once: at most one thread is inside `run_hf_tick`, its second look at the latch
included, in every interleaving. -/
theorem hf_ticks_exclusive (h : w.Reached) {r r' : ℕ} (hr : (w.sched.threads r).InTick)
    (hr' : (w.sched.threads r').InTick) : r = r' :=
  h.inv.exclusive.unique r r' hr.holds hr'.holds

theorem hf_ticks_exclusive_first : ∃ w, play step (new 200 500) (timerTick 1 1000) = some w ∧
    (w.sched.threads 1).InTick ∧ ∀ r, (w.sched.threads r).InTick → r = 1 := by
  have hidle : (new 200 500).sched.shutdown = false := rfl
  obtain ⟨w, hplay, -, -, -, -, htable⟩ :=
    play_timerTick hidle rfl rfl Nat.one_ne_zero 1000
  have hrunning : (w.sched.threads 1).InTick := by
    rw [htable, update_self]
    trivial
  have hreached : w.Reached :=
    (ReachedFitting.play (.init ⟨200, 500, rfl⟩) (by decide) hplay).reached
  exact ⟨w, hplay, hrunning, fun r hr => hf_ticks_exclusive hreached hr hrunning⟩

/-! A timer tick is refused while task `1` runs.  The task drops its permit and looks at `pending`
before the pass loop has stored it. -/

def refusedTick : List HfLabel :=
  [.timer, .notify, .peek 1200, .advance 0, .advance 0, .advance 1, .advance 1, .advance 0, .advance 0,
    .advance 0]

lemma play_refusedTick {stream : Bool} (hon : w.sched.shutdown = false)
    (htable : w.sched.threads = update rest 1 (.running stream)) (hpermit : w.sched.permit = false)
    (hpending : w.sched.pending = false) (hlatch : w.sched.streamTick = 0) :
    ∃ w', play step w refusedTick = some w' ∧
      w'.sched.shutdown = false ∧ w'.sched.permit = true ∧ w'.sched.pending = true ∧
      w'.sched.streamTick = 1 ∧ w'.signalOwed = true ∧ w'.tickOwed = true ∧ w'.sched.threads = rest := by
  simp [refusedTick, play, step, HfScheduler.step, HfScheduler.advance, HfScheduler.moved, htable, hon,
    hpermit, hpending, hlatch, rest, starting, refusing]
  funext r
  by_cases hloop : r = 0
  · simp [hloop, rest]
  · by_cases htask : r = 1 <;> simp [hloop, htask, rest]

/-- Everything is at rest, the permit is free, and the request is in `pending` with nobody to look. -/
theorem hf_request_stranded : ∃ w w', play step (new 200 500) (timerTick 1 1000) = some w ∧
    play step w refusedTick = some w' ∧ w'.ReachedFitting ∧ w'.sched.shutdown = false ∧
    w'.sched.threads = rest ∧ w'.sched.permit = true ∧ w'.sched.pending = true ∧
    w'.sched.streamTick = 1 ∧ w'.signalOwed = true ∧ w'.tickOwed = true := by
  have hidle : (new 200 500).sched.shutdown = false := rfl
  obtain ⟨w, hplay, hon, hpermit, hpending, hlatch, htable⟩ :=
    play_timerTick hidle rfl rfl Nat.one_ne_zero 1000
  obtain ⟨w', hplay', hon', hfree, hkept, hone, hsignal, htick, hrest⟩ :=
    play_refusedTick hon htable hpermit hpending hlatch
  have hfirst : w.ReachedFitting := ReachedFitting.play (.init ⟨200, 500, rfl⟩) (by decide) hplay
  have hreached : w'.ReachedFitting := hfirst.play (by rw [hlatch]; decide) hplay'
  exact ⟨w, w', hplay, hplay', hreached, hon', hrest, hfree, hkept, hone, hsignal, htick⟩

/-- Nothing that is owed is lost.  Where a patch has landed since the last stream tick started, its signal
is in the latch, in `stream_pending` or with a thread; where a tick was asked for or refused since the last
one started, the request is in `hf_pending` or with a thread. -/
theorem hf_signal_kept (h : w.ReachedFitting) (hon : w.sched.shutdown = false) :
    (w.signalOwed = true → w.sched.SignalKept) ∧ (w.tickOwed = true → w.sched.TickKept) :=
  ⟨h.inv.signal trivial hon, h.inv.tick hon⟩

theorem hf_signal_kept_stranded : ∃ w : HfRun, w.ReachedFitting ∧ w.sched.threads = rest ∧
    (w.signalOwed = true ∧ w.sched.SignalKept) ∧ (w.tickOwed = true ∧ w.sched.TickKept) := by
  obtain ⟨-, w, -, -, hreached, hon, hrest, -, -, -, hsignal, htick⟩ := hf_request_stranded
  have hkept := hf_signal_kept hreached hon
  exact ⟨w, hreached, hrest, ⟨hsignal, hkept.1 hsignal⟩, ⟨htick, hkept.2 htick⟩⟩

/-! ## The timer tick among patches -/

lemma signal_at_rest (hrest : w.sched.threads = rest) (hkept : w.sched.SignalKept) :
    w.sched.streamPending = true ∨ 0 < w.sched.streamTick := by
  rcases hkept with hlatch | hflag | ⟨r, hr⟩
  · exact Or.inr hlatch
  · exact Or.inl hflag
  · rw [hrest, rest] at hr
    split_ifs at hr <;> exact hr.elim

/-- The program rests, and the signal that is `owed` is in the flag or the latch. -/
def Waiting (owed : Prop) (w : HfRun) : Prop :=
  w.sched.shutdown = false ∧ w.sched.permit = true ∧ w.sched.threads = rest ∧
    (owed → w.sched.streamPending = true ∨ 0 < w.sched.streamTick)

/-- The pass loop has taken the flag, and looks at the latch next. -/
def Peeking (owed : Prop) (w : HfRun) : Prop :=
  w.sched.shutdown = false ∧ w.sched.permit = true ∧ ∃ pending,
    w.sched.threads = update rest 0 (.peek pending) ∧ (owed → pending = true ∨ 0 < w.sched.streamTick)

/-- Thread `r` alone is not at rest, in a phase with the signal that is `owed`. -/
def Alone (owed : Prop) (r : ℕ) (ph : Bool → HfPhase) (free : Bool) (w : HfRun) : Prop :=
  w.sched.shutdown = false ∧ w.sched.permit = free ∧ ∃ stream,
    w.sched.threads = update rest r (ph stream) ∧ (owed → stream = true)

section Timer

variable {owed : Prop} {child now : ℕ} {mid mid' : Bool → HfPhase} {free free' : Bool}

/-- The labels of the timer tick; the others are patches. -/
def isTick (a : HfLabel) : Bool := a ≠ .notify

lemma Waiting.keptByPatches : KeptByOthers step LatchFits isTick (Waiting owed) := by
  rintro w a ha hfits ⟨hon, hpermit, hrest, -⟩
  obtain rfl : a = .notify := by simpa [isTick] using ha
  refine ⟨_, rfl, hon, hpermit, hrest, fun _ => Or.inr ?_⟩
  exact notified_pos (hfits rfl)

lemma Peeking.keptByPatches : KeptByOthers step LatchFits isTick (Peeking owed) := by
  rintro w a ha hfits ⟨hon, hpermit, pending, htable, -⟩
  obtain rfl : a = .notify := by simpa [isTick] using ha
  refine ⟨_, rfl, hon, hpermit, pending, htable, fun _ => Or.inr ?_⟩
  exact notified_pos (hfits rfl)

lemma Alone.keptByPatches : KeptByOthers step LatchFits isTick (Alone owed r mid free) := by
  rintro w a ha - ⟨hon, hpermit, stream, htable, hstream⟩
  obtain rfl : a = .notify := by simpa [isTick] using ha
  exact ⟨_, rfl, hon, hpermit, stream, htable, hstream⟩

/-- The history never stands in the way of a step. -/
lemma step_of_sched {a : HfLabel} (hs : w.sched.step a = some s) : ∃ w', step w a = some w' ∧ w'.sched = s := by
  rw [step, hs]
  refine ⟨_, rfl, ?_⟩
  cases a <;> rfl

lemma Waiting.timer (h : w.Waiting owed) : ∃ w', step w .timer = some w' ∧ w'.Peeking owed := by
  obtain ⟨hon, hpermit, hrest, hsignal⟩ := h
  have hidle : w.sched.threads 0 = .idle := by rw [hrest, rest, if_pos rfl]
  obtain ⟨w', hstep, hsched⟩ := step_of_sched (a := .timer) (by rw [HfScheduler.step, hidle])
  refine ⟨w', hstep, ?_⟩
  rw [Peeking, hsched]
  exact ⟨hon, hpermit, w.sched.streamPending, congrArg (update · 0 _) hrest, hsignal⟩

lemma Peeking.peek (h : w.Peeking owed) (now : ℕ) :
    ∃ w', step w (.peek now) = some w' ∧ w'.Alone owed 0 .enter true := by
  obtain ⟨hon, hpermit, pending, htable, hsignal⟩ := h
  have hpeek : w.sched.threads 0 = .peek pending := by rw [htable, update_self]
  obtain ⟨w', hstep, hsched⟩ := step_of_sched (a := .peek now) (by rw [HfScheduler.step, hpeek])
  refine ⟨w', hstep, ?_⟩
  rw [Alone, hsched]
  refine ⟨hon, hpermit, pending || decide (0 < w.sched.streamTick), ?_, fun howed => by simpa using hsignal howed⟩
  rw [HfScheduler.moved, htable, update_idem]

/-- Thread `r` goes from phase `mid` to phase `mid'` and loses no signal. -/
def Advances (r : ℕ) (mid mid' : Bool → HfPhase) (free free' : Bool) : Prop :=
  ∀ (s : HfScheduler) (stream : Bool), s.threads r = mid stream → s.shutdown = false → s.permit = free →
    ∃ s' stream', s.advance r = some (HfScheduler.moved s' r (mid' stream')) ∧ s'.threads = s.threads ∧
      s'.shutdown = false ∧ s'.permit = free' ∧ (stream = true → stream' = true)

lemma Alone.advance (h : w.Alone owed r mid free) (hadvance : Advances r mid mid' free free') :
    ∃ w', step w (.advance r) = some w' ∧ w'.Alone owed r mid' free' := by
  obtain ⟨hon, hpermit, stream, htable, hsignal⟩ := h
  obtain ⟨s', stream', hmoved, hthreads, hon', hpermit', hkeep⟩ :=
    hadvance w.sched stream (by rw [htable, update_self]) hon hpermit
  obtain ⟨w', hstep, hsched⟩ := step_of_sched (a := .advance r) hmoved
  refine ⟨w', hstep, ?_⟩
  rw [Alone, hsched]
  refine ⟨hon', hpermit', stream', ?_, fun howed => hkeep (hsignal howed)⟩
  rw [HfScheduler.moved, hthreads, htable, update_idem]

lemma Alone.spawn (h : w.Alone owed 0 .spawn free) (hchild : child ≠ 0) :
    ∃ w', step w (.spawn 0 child) = some w' ∧ w'.Alone owed child .started free := by
  obtain ⟨hon, hpermit, stream, htable, hsignal⟩ := h
  have hspawn : w.sched.threads 0 = .spawn stream := by rw [htable, update_self]
  have habsent : w.sched.threads child = .absent := by rw [htable, update_of_ne hchild, rest, if_neg hchild]
  obtain ⟨w', hstep, hsched⟩ :=
    step_of_sched (a := .spawn 0 child) (by rw [HfScheduler.step, hspawn, habsent])
  refine ⟨w', hstep, ?_⟩
  rw [Alone, hsched]
  refine ⟨hon, hpermit, stream, ?_, hsignal⟩
  show update (update w.sched.threads child _) 0 (rest 0) = _
  rw [htable, update_comm hchild, update_idem, update_eq_self]

lemma Alone.outline (hadvance : Advances r mid mid' free free') {labels : List HfLabel}
    {Q : HfRun → Prop} (hrest : Outline step LatchFits isTick (Alone owed r mid' free') labels Q) :
    Outline step LatchFits isTick (Alone owed r mid free) (.advance r :: labels) Q :=
  .next Alone.keptByPatches (fun _ h => h.advance hadvance) hrest

lemma advances_enter : Advances r .enter .acquire true true := fun s stream hph hon hpermit =>
  ⟨s, stream, by simp [HfScheduler.advance, hph, hon], rfl, hon, hpermit, id⟩

lemma advances_acquire : Advances r .acquire .granted true false := fun s stream hph hon hpermit =>
  ⟨{ s with permit := false }, stream, by simp [HfScheduler.advance, hph, hpermit], rfl, hon, rfl, id⟩

lemma advances_granted : Advances r .granted .takeLatch free free := fun s stream hph hon hpermit =>
  ⟨{ s with pending := false }, stream, by rw [HfScheduler.advance, hph], rfl, hon, hpermit, id⟩

lemma advances_takeLatch : Advances r .takeLatch .takeStream free free := fun s stream hph hon hpermit =>
  ⟨{ s with streamTick := 0 }, stream || decide (0 < s.streamTick), by rw [HfScheduler.advance, hph], rfl, hon,
    hpermit, fun h => by rw [h, Bool.true_or]⟩

lemma advances_takeStream : Advances r .takeStream .spawn free free := fun s stream hph hon hpermit =>
  ⟨{ s with streamPending := false }, stream || s.streamPending, by rw [HfScheduler.advance, hph], rfl, hon,
    hpermit, fun h => by rw [h, Bool.true_or]⟩

lemma advances_started : Advances r .started .relatch free free := fun s stream hph hon hpermit =>
  ⟨s, stream, by simp [HfScheduler.advance, hph, hon], rfl, hon, hpermit, id⟩

lemma advances_relatch : Advances r .relatch .running free free := fun s stream hph hon hpermit =>
  ⟨{ s with streamTick := 0 }, stream || decide (0 < s.streamTick), by rw [HfScheduler.advance, hph], rfl, hon,
    hpermit, fun h => by rw [h, Bool.true_or]⟩

/-- The timer tick, from rest to the start of its task's tick. -/
lemma outline_timerTick (hchild : child ≠ 0) : Outline step LatchFits isTick (Waiting owed)
    (timerTick child now) (Alone owed child .running false) := by
  refine .next Waiting.keptByPatches (fun _ h => h.timer) ?_
  refine .next Peeking.keptByPatches (fun _ h => h.peek now) ?_
  -- the pass loop gets the permit and takes the flag and the latch
  refine Alone.outline advances_enter (Alone.outline advances_acquire (Alone.outline advances_granted ?_))
  refine Alone.outline advances_takeLatch (Alone.outline advances_takeStream ?_)
  refine .next Alone.keptByPatches (fun _ h => h.spawn hchild) ?_
  exact Alone.outline advances_started (Alone.outline advances_relatch (.done Alone.keptByPatches))

end Timer

/-- A request that no tick has looked at is not stranded for good.  From rest, the next timer tick starts a
tick, and a stream tick where a signal is owed, whatever patches land between its steps. -/
theorem hf_timer_recovers (h : w.ReachedFitting) (hon : w.sched.shutdown = false)
    (hrest : w.sched.threads = rest) {child now : ℕ} (hchild : child ≠ 0) {labels : List HfLabel}
    (hlabels : labels.filter (· ≠ .notify) = timerTick child now)
    (hfits : Allowed step LatchFits w labels) :
    ∃ w' stream, play step w labels = some w' ∧
      w'.sched.threads child = .running stream ∧ (w.signalOwed = true → stream = true) := by
  have hpermit : w.sched.permit = true :=
    h.inv.exclusive.free_iff.mpr fun r => hrest ▸ not_holds_rest
  have hwaiting : w.Waiting (w.signalOwed = true) :=
    ⟨hon, hpermit, hrest, fun howed => signal_at_rest hrest (h.inv.signal trivial hon howed)⟩
  obtain ⟨w', hplay, -, -, stream, htable, hstream⟩ :=
    (outline_timerTick hchild).play hlabels hwaiting hfits
  exact ⟨w', stream, hplay, by rw [htable, update_self], hstream⟩

/-- The labels of a timer tick with a patch after the pass loop has looked at the latch. -/
def patchedTick : List HfLabel := (timerTick 2 1400).insertIdx 2 .notify

theorem hf_timer_recovers_stranded : ∃ w : HfRun, w.ReachedFitting ∧ w.sched.pending = true ∧
    w.sched.threads = rest ∧ w.signalOwed = true ∧ ∃ w' stream, play step w patchedTick = some w' ∧
      w'.sched.threads 2 = .running stream ∧ (w.signalOwed = true → stream = true) := by
  obtain ⟨-, w, -, -, hreached, hon, hrest, -, hpending, hlatch, hsignal, -⟩ := hf_request_stranded
  have hfits : Allowed step LatchFits w patchedTick := allowed_of_short (by rw [hlatch]; decide)
  have hlabels : patchedTick.filter (· ≠ .notify) = timerTick 2 1400 := by decide
  exact ⟨w, hreached, hpending, hrest, hsignal,
    hf_timer_recovers hreached hon hrest (by decide) hlabels hfits⟩

end HfRun

end PolygonArb

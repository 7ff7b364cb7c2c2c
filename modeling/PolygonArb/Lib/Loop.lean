import Mathlib.Data.Nat.Basic
import Mathlib.Data.List.Basic
import Mathlib.Data.List.Forall2
import Mathlib.Tactic.Common

/-!
# Loops with early exit

A loop body is a function from the state to a `LoopStep`: go on with a new state, or leave the
loop with one.  `repeatLoop` runs a body a bounded number of times (`for _ in 0..n`), `forLoop` runs
it over a list (`for x in xs`), and `tryForLoop` does with a body that may not return.

What one iteration keeps, every run keeps (`repeatLoop_inv`, `forLoop_inv`, `tryForLoop_inv`,
`foldlM_inv`); what
two iterations keep between their states, two runs keep (`forLoop_rel`), and `tryForLoop_sim` does so up to the
point where two loops part.  A pass that may fail at every
element and does not fail relates the elements one by one (`mapM_eq_some`); it fails only where an
element fails (`isSome_mapM`).

`runStages` runs different stages one after another, each of which may end the run; `Passes` names the
states on the way, and `Passes.inv` is the rule for them.
-/

namespace Loop

/-- What one iteration does to the loop state. -/
inductive LoopStep (σ : Type*)
  | continue (s : σ)
  | break (s : σ)

namespace LoopStep

variable {σ : Type*}

/-- The state an iteration ends in, whichever way it ends. -/
def state : LoopStep σ → σ
  | .continue s => s
  | .break s => s

@[simp] lemma state_continue (s : σ) : (LoopStep.continue s).state = s := rfl

@[simp] lemma state_break (s : σ) : (LoopStep.break s).state = s := rfl

end LoopStep

variable {σ α : Type*}

/-- `for _ in 0..n { body }`. -/
def repeatLoop (body : σ → LoopStep σ) : ℕ → σ → σ
  | 0, s => s
  | n + 1, s =>
      match body s with
      | .continue s' => repeatLoop body n s'
      | .break s' => s'

@[simp] lemma repeatLoop_zero (body : σ → LoopStep σ) (s : σ) : repeatLoop body 0 s = s := rfl

lemma repeatLoop_succ (body : σ → LoopStep σ) (n : ℕ) (s : σ) :
    repeatLoop body (n + 1) s =
      match body s with
      | .continue s' => repeatLoop body n s'
      | .break s' => s' := rfl

lemma repeatLoop_of_continue {body : σ → LoopStep σ} {s s' : σ} (h : body s = .continue s')
    (n : ℕ) : repeatLoop body (n + 1) s = repeatLoop body n s' := by
  rw [repeatLoop_succ, h]

lemma repeatLoop_of_break {body : σ → LoopStep σ} {s s' : σ} (h : body s = .break s') (n : ℕ) :
    repeatLoop body (n + 1) s = s' := by
  rw [repeatLoop_succ, h]

/-- What one iteration keeps, every bounded run keeps. -/
theorem repeatLoop_inv {body : σ → LoopStep σ} (I : σ → Prop)
    (hstep : ∀ s, I s → I (body s).state) : ∀ (n : ℕ) (s : σ), I s → I (repeatLoop body n s)
  | 0, _, h => h
  | n + 1, s, h => by
      have hs := hstep s h
      cases hb : body s with
      | «continue» s' =>
          rw [repeatLoop_of_continue hb]
          rw [hb] at hs
          exact repeatLoop_inv I hstep n s' hs
      | «break» s' =>
          rw [repeatLoop_of_break hb]
          rw [hb] at hs
          exact hs

/-- `for x in xs { body }`; the result says whether the loop ran to its end or was left. -/
def forLoop (body : σ → α → LoopStep σ) : List α → σ → LoopStep σ
  | [], s => .continue s
  | x :: xs, s =>
      match body s x with
      | .continue s' => forLoop body xs s'
      | .break s' => .break s'

/-- What every iteration keeps, the loop keeps. -/
theorem forLoop_inv {body : σ → α → LoopStep σ} (I : σ → Prop) :
    ∀ (xs : List α) (s : σ), (∀ x ∈ xs, ∀ s, I s → I (body s x).state) → I s →
      I (forLoop body xs s).state
  | [], _, _, h => h
  | x :: xs, s, hstep, h => by
      have hs := hstep x List.mem_cons_self s h
      rw [forLoop]
      cases hb : body s x with
      | «continue» s' =>
          rw [hb] at hs
          exact forLoop_inv I xs s' (fun y hy => hstep y (List.mem_cons_of_mem x hy)) hs
      | «break» s' =>
          rw [hb] at hs
          exact hs

/-- Two iterations that end the same way in related states. -/
inductive LoopStep.Rel {τ : Type*} (R : σ → τ → Prop) : LoopStep σ → LoopStep τ → Prop
  | continue {s : σ} {t : τ} (h : R s t) : Rel R (.continue s) (.continue t)
  | break {s : σ} {t : τ} (h : R s t) : Rel R (.break s) (.break t)

lemma LoopStep.Rel.state {τ : Type*} {R : σ → τ → Prop} {r : LoopStep σ} {r' : LoopStep τ}
    (h : LoopStep.Rel R r r') : R r.state r'.state := by
  cases h with
  | «continue» h => exact h
  | «break» h => exact h

/-- Loops whose iterations keep a relation keep it as a whole. -/
theorem forLoop_rel {τ : Type*} {body : σ → α → LoopStep σ} {body' : τ → α → LoopStep τ}
    (R : σ → τ → Prop) :
    ∀ (xs : List α) (s : σ) (t : τ),
      (∀ x ∈ xs, ∀ s t, R s t → LoopStep.Rel R (body s x) (body' t x)) → R s t →
      LoopStep.Rel R (forLoop body xs s) (forLoop body' xs t)
  | [], _, _, _, h => .continue h
  | x :: xs, s, t, hstep, h => by
      have hx := hstep x List.mem_cons_self s t h
      rw [forLoop, forLoop]
      generalize body s x = r at hx ⊢
      generalize body' t x = r' at hx ⊢
      cases hx with
      | «continue» hnext =>
          exact forLoop_rel R xs _ _ (fun y hy => hstep y (List.mem_cons_of_mem x hy)) hnext
      | «break» hleft => exact .break hleft

/-- `for x in xs { body }` with a body that may not return. -/
def tryForLoop (body : σ → α → Option (LoopStep σ)) : List α → σ → Option σ
  | [], s => some s
  | x :: xs, s =>
      match body s x with
      | some (.continue s') => tryForLoop body xs s'
      | some (.break s') => some s'
      | none => none

/-- What every iteration that returns keeps, every loop that returns keeps. -/
theorem tryForLoop_inv {body : σ → α → Option (LoopStep σ)} (I : σ → Prop) :
    ∀ (xs : List α) (s s' : σ),
      (∀ x ∈ xs, ∀ s r, I s → body s x = some r → I r.state) → I s →
      tryForLoop body xs s = some s' → I s'
  | [], s, s', _, h, hrun => by
      cases hrun
      exact h
  | x :: xs, s, s', hstep, h, hrun => by
      rw [tryForLoop] at hrun
      cases hb : body s x with
      | none =>
          rw [hb] at hrun
          cases hrun
      | some r =>
          have hr := hstep x List.mem_cons_self s r h hb
          rw [hb] at hrun
          cases r with
          | «continue» t =>
              exact tryForLoop_inv I xs t s' (fun y hy => hstep y (List.mem_cons_of_mem x hy)) hr hrun
          | «break» t =>
              cases hrun
              exact hr

/-- What one step of a fold that may fail keeps, the fold keeps. -/
theorem foldlM_inv {body : σ → α → Option σ} (I : σ → Prop) :
    ∀ (xs : List α) (s s' : σ), (∀ x ∈ xs, ∀ s s', I s → body s x = some s' → I s') → I s →
      xs.foldlM body s = some s' → I s'
  | [], s, s', _, h, hrun => by
      cases hrun
      exact h
  | x :: xs, s, s', hstep, h, hrun => by
      rw [List.foldlM_cons] at hrun
      rcases Option.bind_eq_some_iff.mp hrun with ⟨t, hx, hrest⟩
      have ht := hstep x List.mem_cons_self s t h hx
      exact foldlM_inv I xs t s' (fun y hy => hstep y (List.mem_cons_of_mem x hy)) ht hrest

/-- Bodies that agree on the elements of the list make the same loop. -/
theorem tryForLoop_congr {body body' : σ → α → Option (LoopStep σ)} :
    ∀ (xs : List α) (s : σ), (∀ x ∈ xs, ∀ s, body' s x = body s x) →
      tryForLoop body' xs s = tryForLoop body xs s
  | [], _, _ => rfl
  | x :: xs, s, h => by
      rw [tryForLoop, tryForLoop, h x List.mem_cons_self s]
      cases body s x with
      | none => rfl
      | some r =>
          cases r with
          | «continue» t => exact tryForLoop_congr xs t fun y hy => h y (List.mem_cons_of_mem x hy)
          | «break» t => rfl

/-- How two iterations end that are side by side: the states related and both loops going on or both leaving, or
parted for good. -/
inductive LoopStep.Sim {τ : Type*} (R A : σ → τ → Prop) : LoopStep σ → LoopStep τ → Prop
  | continue {s : σ} {t : τ} (h : R s t) : Sim R A (.continue s) (.continue t)
  | break {s : σ} {t : τ} (h : R s t) : Sim R A (.break s) (.break t)
  | apart {r : LoopStep σ} {r' : LoopStep τ} (h : A r.state r'.state) : Sim R A r r'

section Sim

variable {τ : Type*} {body : σ → α → Option (LoopStep σ)} {body' : τ → α → Option (LoopStep τ)}
  {R A : σ → τ → Prop} {P : σ → Prop}

/-- What holds after an iteration only if it held before, holds after a loop only if it held before. -/
lemma of_tryForLoop (hP : ∀ x s r, body s x = some r → P r.state → P s) {xs : List α} {s s' : σ}
    (hrun : tryForLoop body xs s = some s') (h : P s') : P s :=
  tryForLoop_inv (fun u => P u → P s) xs s s' (fun x _ u r hu hb hr => hu (hP x u r hb hr)) id hrun h

/-- Two loops that have parted run on each by itself. -/
lemma tryForLoop_apart (hleft : ∀ x s t r, A s t → body s x = some r → A r.state t)
    (hright : ∀ x s t r, A s t → body' t x = some r → A s r.state) (xs ys : List α) {s s' : σ} {t t' : τ}
    (h : A s t) (hrun : tryForLoop body xs s = some s') (hrun' : tryForLoop body' ys t = some t') :
    A s' t' :=
  tryForLoop_inv (A s') ys t t' (fun x _ u r hu hb => hright x s' u r hu hb)
    (tryForLoop_inv (A · t) xs s s' (fun x _ u r hu hb => hleft x u t r hu hb) h hrun) hrun'

/-- Two loops over one list stay related until they part. -/
theorem tryForLoop_sim (hP : ∀ x s r, body s x = some r → P r.state → P s)
    (hleft : ∀ x s t r, A s t → body s x = some r → A r.state t)
    (hright : ∀ x s t r, A s t → body' t x = some r → A s r.state) :
    ∀ (xs : List α) {s s' : σ} {t t' : τ},
      (∀ x ∈ xs, ∀ s t r r', R s t → body s x = some r → body' t x = some r' → P r.state →
        LoopStep.Sim R A r r') →
      R s t → tryForLoop body xs s = some s' → tryForLoop body' xs t = some t' → P s' →
      R s' t' ∨ A s' t'
  | [], s, s', t, t', _, h, hrun, hrun', _ => by
      cases hrun
      cases hrun'
      exact .inl h
  | x :: xs, s, s', t, t', hstep, h, hrun, hrun', hs' => by
      rw [tryForLoop] at hrun hrun'
      cases hb : body s x with
      | none =>
          rw [hb] at hrun
          cases hrun
      | some r =>
      cases hb' : body' t x with
      | none =>
          rw [hb'] at hrun'
          cases hrun'
      | some r' =>
          rw [hb] at hrun
          rw [hb'] at hrun'
          have hr : P r.state := by
            cases r with
            | «continue» u => exact of_tryForLoop hP hrun hs'
            | «break» u =>
                cases hrun
                exact hs'
          cases hstep x List.mem_cons_self s t r r' h hb hb' hr with
          | «continue» hu =>
              exact tryForLoop_sim hP hleft hright xs (fun y hy => hstep y (List.mem_cons_of_mem x hy)) hu
                hrun hrun' hs'
          | «break» hu =>
              cases hrun
              cases hrun'
              exact .inl hu
          | apart hu =>
              refine .inr ?_
              cases r with
              | «continue» u =>
                  cases r' with
                  | «continue» v => exact tryForLoop_apart hleft hright xs xs hu hrun hrun'
                  | «break» v =>
                      cases hrun'
                      exact tryForLoop_apart hleft hright xs [] hu hrun rfl
              | «break» u =>
                  cases hrun
                  cases r' with
                  | «continue» v => exact tryForLoop_apart hleft hright [] xs hu rfl hrun'
                  | «break» v =>
                      cases hrun'
                      exact hu

end Sim

/-! ## Passes over a list -/

theorem mapM_eq_some {β : Type*} {f : α → Option β} {xs : List α} {ys : List β} :
    xs.mapM f = some ys ↔ List.Forall₂ (fun x y => f x = some y) xs ys := by
  induction xs generalizing ys with
  | nil =>
      rw [List.forall₂_nil_left_iff, List.mapM_nil]
      exact ⟨fun h => (Option.some.inj h).symm, fun h => h ▸ rfl⟩
  | cons x xs ih =>
      rw [List.forall₂_cons_left_iff, List.mapM_cons]
      simp only [Option.bind_eq_bind, Option.bind_eq_some_iff, Option.pure_def, Option.some.injEq, ih]
      constructor
      · rintro ⟨y, hy, ys, hys, rfl⟩
        exact ⟨y, ys, hy, hys, rfl⟩
      · rintro ⟨y, ys, hy, hys, rfl⟩
        exact ⟨y, hy, ys, hys, rfl⟩

/-- What a pass makes of the element at a position. -/
lemma getElem?_mapM {β : Type*} {f : α → Option β} {xs : List α} {ys : List β} (h : xs.mapM f = some ys) :
    ∀ i : ℕ, ys[i]? = xs[i]?.bind f := by
  have hall := mapM_eq_some.mp h
  clear h
  induction hall with
  | nil => exact fun _ => rfl
  | cons hx _ ih =>
      intro i
      cases i with
      | zero => exact hx.symm
      | succ i => exact ih i

lemma isSome_mapM {β : Type*} {f : α → Option β} {xs : List α} :
    (xs.mapM f).isSome = true ↔ ∀ x ∈ xs, (f x).isSome = true := by
  induction xs with
  | nil => simp
  | cons x xs ih =>
      rw [List.mapM_cons, List.forall_mem_cons, ← ih]
      cases hx : f x <;> cases hxs : xs.mapM f <;> simp

/-! ## Stages -/

/-- Stages one after another.  A stage may not return (`none`) or end the run (`some none`). -/
def runStages : List (σ → Option (Option σ)) → σ → Option (Option σ)
  | [], s => some (some s)
  | stage :: rest, s =>
      match stage s with
      | some (some s') => runStages rest s'
      | some none => some none
      | none => none

/-- `t` is a state on the way of a run from `s`. -/
inductive Passes : List (σ → Option (Option σ)) → σ → σ → Prop
  | start {fs : List (σ → Option (Option σ))} {s : σ} : Passes fs s s
  | step {stage : σ → Option (Option σ)} {rest : List (σ → Option (Option σ))} {s s' t : σ}
      (h : stage s = some (some s')) (hrest : Passes rest s' t) : Passes (stage :: rest) s t

/-- What every stage keeps holds in every state on the way. -/
theorem Passes.inv {I : σ → Prop} {fs : List (σ → Option (Option σ))} {s t : σ}
    (hpass : Passes fs s t)
    (hstage : ∀ stage ∈ fs, ∀ s s', I s → stage s = some (some s') → I s') (h : I s) : I t := by
  induction hpass with
  | start => exact h
  | @step stage rest s s' t hs _ ih =>
      refine ih (fun f hf => hstage f (List.mem_cons_of_mem stage hf)) ?_
      exact hstage stage List.mem_cons_self s s' h hs

/-- A run that is not ended early ends in a state it passes. -/
lemma passes_of_runStages {fs : List (σ → Option (Option σ))} {s t : σ}
    (h : runStages fs s = some (some t)) : Passes fs s t := by
  induction fs generalizing s with
  | nil =>
      cases h
      exact .start
  | cons stage rest ih =>
      rw [runStages] at h
      cases hs : stage s with
      | none =>
          rw [hs] at h
          cases h
      | some r =>
          rw [hs] at h
          cases r with
          | none => cases h
          | some s' => exact .step hs (ih h)

end Loop

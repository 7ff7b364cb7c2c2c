import Mathlib.Data.Option.Basic
import Mathlib.Tactic.Common

/-!
# Runs of a labelled step function

A component is a function `step : σ → α → Option σ`: `none` says that the label is not possible in
that state.  `Reachable step ok start` holds of the states that some run from a `start` state
reaches, when every step of the run meets the side condition `ok` in the state it is taken from.

`Reachable.inv` is the induction over runs, `play` the run of a list of labels (`play_cons` follows
it by one step).  `outputs` lists what the steps of such a run put out; `outputs_increasing` is the rule
for outputs drawn from a counter in the state.  `Outline` is the rule for a list of labels that is taken
among others.
-/

namespace Transition

variable {σ α : Type*} {step : σ → α → Option σ} {ok : σ → α → Prop} {start : σ → Prop}

/-- The states reached by the runs whose every step is taken where `ok` allows it. -/
inductive Reachable (step : σ → α → Option σ) (ok : σ → α → Prop) (start : σ → Prop) : σ → Prop
  | init {s : σ} (h : start s) : Reachable step ok start s
  | step {s s' : σ} {a : α} (h : Reachable step ok start s) (hok : ok s a)
      (hstep : step s a = some s') : Reachable step ok start s'

/-- What holds at the start and is kept by every allowed step holds in every state reached. -/
theorem Reachable.inv (I : σ → Prop) (hinit : ∀ s, start s → I s)
    (hkeep : ∀ s a s', I s → ok s a → step s a = some s' → I s') {s : σ}
    (h : Reachable step ok start s) : I s := by
  induction h with
  | init h => exact hinit _ h
  | step _ hok hstep ih => exact hkeep _ _ _ ih hok hstep

/-- A run of allowed steps is a run under weaker conditions. -/
theorem Reachable.mono {ok' : σ → α → Prop} (hok : ∀ s a, ok s a → ok' s a) {s : σ}
    (h : Reachable step ok start s) : Reachable step ok' start s := by
  induction h with
  | init h => exact .init h
  | step _ hallowed hstep ih => exact .step ih (hok _ _ hallowed) hstep

/-- The state a list of labels leads to. -/
def play (step : σ → α → Option σ) : σ → List α → Option σ
  | s, [] => some s
  | s, a :: as => (step s a).bind fun s' => play step s' as

/-- The first label of a list, and the rest from where it leads. -/
lemma play_cons {s s' : σ} {a : α} (h : step s a = some s') (as : List α) :
    play step s (a :: as) = play step s' as := by
  rw [play, h, Option.bind_some]

/-- Every step of the run of the labels is taken where `ok` allows it. -/
def Allowed (step : σ → α → Option σ) (ok : σ → α → Prop) : σ → List α → Prop
  | _, [] => True
  | s, a :: as => ok s a ∧ ∀ s', step s a = some s' → Allowed step ok s' as

/-- An allowed run of labels reaches where it leads. -/
lemma Allowed.reachable {s t : σ} {as : List α} (hall : Allowed step ok s as)
    (hs : Reachable step ok start s) (hplay : play step s as = some t) : Reachable step ok start t := by
  induction as generalizing s with
  | nil =>
      rw [play, Option.some.injEq] at hplay
      exact hplay ▸ hs
  | cons a as ih =>
      rcases Option.bind_eq_some_iff.mp hplay with ⟨s', hstep, hrest⟩
      exact ih (hall.2 s' hstep) (hs.step hall.1 hstep) hrest

section Outline

variable {own : α → Bool} {P Q R : σ → Prop} {a : α} {as labels : List α}

/-- The other labels are possible where `P` holds, and keep it. -/
def KeptByOthers (step : σ → α → Option σ) (ok : σ → α → Prop) (own : α → Bool) (P : σ → Prop) : Prop :=
  ∀ s a, own a = false → ok s a → P s → ∃ s', step s a = some s' ∧ P s'

/-- A proof outline of a list of own labels: each leads from what holds before it to what holds after it,
and the other labels keep what holds in between. -/
inductive Outline (step : σ → α → Option σ) (ok : σ → α → Prop) (own : α → Bool) :
    (σ → Prop) → List α → (σ → Prop) → Prop
  | done {P : σ → Prop} (hkept : KeptByOthers step ok own P) : Outline step ok own P [] P
  | next {P Q R : σ → Prop} {a : α} {as : List α} (hkept : KeptByOthers step ok own P)
      (hstep : ∀ s, P s → ∃ s', step s a = some s' ∧ Q s') (hrest : Outline step ok own Q as R) :
      Outline step ok own P (a :: as) R

lemma Outline.keptByOthers (h : Outline step ok own P as Q) : KeptByOthers step ok own P := by
  cases h with
  | done hkept => exact hkept
  | next hkept _ _ => exact hkept

/-- The own labels go through to the end of their outline, whatever others are taken between them. -/
theorem Outline.play (h : Outline step ok own P as Q) (hown : labels.filter own = as) {s : σ} (hs : P s)
    (hall : Allowed step ok s labels) : ∃ s', play step s labels = some s' ∧ Q s' := by
  induction labels generalizing P as s with
  | nil =>
      rw [List.filter_nil] at hown
      subst hown
      cases h with
      | done _ => exact ⟨s, rfl, hs⟩
  | cons b labels ih =>
      cases hb : own b with
      | false =>
          rw [List.filter_cons_of_neg (by simp [hb])] at hown
          obtain ⟨s', hstep, hs'⟩ := h.keptByOthers s b hb hall.1 hs
          rw [play_cons hstep]
          exact ih h hown hs' (hall.2 s' hstep)
      | true =>
          rw [List.filter_cons_of_pos hb] at hown
          subst hown
          cases h with
          | next _ hstep hrest =>
              obtain ⟨s', hstep', hs'⟩ := hstep s hs
              rw [play_cons hstep']
              exact ih hrest rfl hs' (hall.2 s' hstep')

end Outline

section Outputs

variable {β : Type*} {out : σ → α → Option β}

/-- What the steps of a run put out, in order. -/
def outputs (step : σ → α → Option σ) (out : σ → α → Option β) : σ → List α → List β
  | _, [] => []
  | s, a :: as => (out s a).toList ++ (step s a).elim [] fun s' => outputs step out s' as

lemma outputs_cons {s s' : σ} {a : α} (h : step s a = some s') (as : List α) :
    outputs step out s (a :: as) = (out s a).toList ++ outputs step out s' as := by
  rw [outputs, h, Option.elim_some]

variable {counter : σ → ℕ} {ticket : β → ℕ}

lemma lt_of_mem_outputs (hmono : ∀ s a s', ok s a → step s a = some s' → counter s ≤ counter s')
    (hfresh : ∀ s a b, ok s a → out s a = some b → counter s < ticket b) {s : σ} {as : List α}
    (hall : Allowed step ok s as) : ∀ b ∈ outputs step out s as, counter s < ticket b := by
  induction as generalizing s with
  | nil =>
      intro b hb
      cases hb
  | cons a as ih =>
      intro b hb
      rw [outputs, List.mem_append, Option.mem_toList] at hb
      rcases hb with hb | hb
      · exact hfresh s a b hall.1 hb
      · cases hstep : step s a with
        | none =>
            rw [hstep] at hb
            cases hb
        | some s' =>
            rw [hstep] at hb
            exact Nat.lt_of_le_of_lt (hmono s a s' hall.1 hstep) (ih (hall.2 s' hstep) b hb)

/-- Tickets drawn above a counter that then reaches them are strictly increasing along a run. -/
theorem outputs_increasing
    (hmono : ∀ s a s', ok s a → step s a = some s' → counter s ≤ counter s')
    (hfresh : ∀ s a b, ok s a → out s a = some b → counter s < ticket b)
    (hreach : ∀ s a s' b, ok s a → step s a = some s' → out s a = some b → ticket b ≤ counter s')
    {s : σ} {as : List α} (hall : Allowed step ok s as) :
    (outputs step out s as).Pairwise fun b c => ticket b < ticket c := by
  induction as generalizing s with
  | nil => exact List.Pairwise.nil
  | cons a as ih =>
      cases hstep : step s a with
      | none =>
          rw [outputs, hstep]
          cases out s a <;> simp
      | some s' =>
          rw [outputs_cons hstep, List.pairwise_append]
          refine ⟨?_, ih (hall.2 s' hstep), ?_⟩
          · cases out s a <;> simp
          · intro b hb c hc
            have hle := hreach s a s' b hall.1 hstep (Option.mem_toList.mp hb)
            exact Nat.lt_of_le_of_lt hle (lt_of_mem_outputs hmono hfresh (hall.2 s' hstep) c hc)

end Outputs

end Transition

import Mathlib.Data.Nat.Basic
import Mathlib.Data.Option.Basic
import Mathlib.Logic.Function.Basic
import Mathlib.Order.Basic
import Mathlib.Tactic.Common

/-!
# Entries with an expiry

A map from keys to instants: an entry is live until its instant.  Writers overwrite (`put`), raise
(`extend`), or drop what is over (`prune`).

`Keeps m m' now` says that nothing live at `now` is lost or brought forward on the way from `m` to `m'`.
Raising and dropping always keep (`keeps_extend`, `keeps_prune`); overwriting keeps exactly when what is
overwritten does not last longer (`keeps_put_iff`).
-/

namespace Expiry

/-- Expiry instants by key. -/
abbrev ExpiryMap (κ : Type*) := κ → Option ℕ

variable {κ : Type*} {m m' m'' : ExpiryMap κ} {k k' : κ} {now t e : ℕ}

/-- The entry of a key is there and not over. -/
def Live (m : ExpiryMap κ) (k : κ) (now : ℕ) : Prop := ∃ e, m k = some e ∧ now < e

/-- `map.get(k).is_some_and(|expiry| now < *expiry)`. -/
def isLive (m : ExpiryMap κ) (k : κ) (now : ℕ) : Bool := (m k).any fun e => now < e

/-- `map.retain(|_, expiry| *expiry > now)`. -/
def prune (m : ExpiryMap κ) (now : ℕ) : ExpiryMap κ := fun k => (m k).filter fun e => now < e

@[simp] lemma isLive_iff : isLive m k now = true ↔ Live m k now := by
  simp [isLive, Live, Option.any_eq_true]

/-- Dropping what is over is not seen later. -/
lemma live_prune (h : now ≤ t) : Live (prune m now) k t ↔ Live m k t := by
  constructor
  · rintro ⟨e, he, hlt⟩
    exact ⟨e, (Option.filter_eq_some_iff.mp he).1, hlt⟩
  · rintro ⟨e, he, hlt⟩
    refine ⟨e, Option.filter_eq_some_iff.mpr ⟨he, ?_⟩, hlt⟩
    simp only [decide_eq_true_eq]
    omega

/-- What is live at `now` is still there, with no earlier expiry. -/
def Keeps (m m' : ExpiryMap κ) (now : ℕ) : Prop :=
  ∀ k e, m k = some e → now < e → ∃ e', e ≤ e' ∧ m' k = some e'

lemma Keeps.refl : Keeps m m now := fun _ e he _ => ⟨e, le_refl e, he⟩

lemma Keeps.trans (h : Keeps m m' now) (h' : Keeps m' m'' now) : Keeps m m'' now := by
  intro k e he hlt
  rcases h k e he hlt with ⟨e', hle, he'⟩
  rcases h' k e' he' (lt_of_lt_of_le hlt hle) with ⟨e'', hle', he''⟩
  exact ⟨e'', le_trans hle hle', he''⟩

lemma keeps_prune : Keeps m (prune m now) now := by
  intro k e he hlt
  exact ⟨e, le_refl e, Option.filter_eq_some_iff.mpr ⟨he, by simpa using hlt⟩⟩

section Writes

variable [DecidableEq κ]

/-- Overwrite. -/
def put (m : ExpiryMap κ) (k : κ) (e : ℕ) : ExpiryMap κ := Function.update m k (some e)

/-- Raise; an entry that lasts at least as long stays. -/
def extend (m : ExpiryMap κ) (k : κ) (e : ℕ) : ExpiryMap κ :=
  if (m k).all fun old => old < e then put m k e else m

@[simp] lemma put_self (m : ExpiryMap κ) (k : κ) (e : ℕ) : put m k e k = some e := by simp [put]

lemma put_of_ne (m : ExpiryMap κ) (h : k' ≠ k) (e : ℕ) : put m k e k' = m k' := by simp [put, h]

/-- The same instant under several keys. -/
lemma foldl_put (ks : List κ) (m : ExpiryMap κ) (e : ℕ) (k : κ) :
    ks.foldl (fun m k => put m k e) m k = if k ∈ ks then some e else m k := by
  induction ks generalizing m with
  | nil => simp
  | cons k' ks ih =>
      rw [List.foldl_cons, ih]
      by_cases hmem : k ∈ ks
      · simp [hmem]
      · by_cases hk : k = k'
        · simp [hk]
        · simp [hmem, hk, put_of_ne m hk]

theorem keeps_put_iff : Keeps m (put m k e) now ↔ ∀ old, m k = some old → now < old → old ≤ e := by
  constructor
  · intro h old hold hlt
    rcases h k old hold hlt with ⟨e', hle, he'⟩
    rw [put_self, Option.some.injEq] at he'
    rwa [he']
  · intro h k' old hold hlt
    by_cases hk : k' = k
    · subst hk
      exact ⟨e, h old hold hlt, put_self m k' e⟩
    · exact ⟨old, le_refl old, (put_of_ne m hk e).trans hold⟩

/-- The same when what is over is dropped first. -/
lemma keeps_put_prune_iff :
    Keeps m (put (prune m now) k e) now ↔ ∀ old, m k = some old → now < old → old ≤ e := by
  constructor
  · intro h old hold hlt
    rcases h k old hold hlt with ⟨e', hle, he'⟩
    rw [put_self, Option.some.injEq] at he'
    rwa [he']
  · intro h
    refine keeps_prune.trans (keeps_put_iff.mpr ?_)
    intro old hold hlt
    exact h old (Option.filter_eq_some_iff.mp hold).1 hlt

lemma keeps_extend : Keeps m (extend m k e) now := by
  rw [extend]
  split_ifs with hall
  · rw [keeps_put_iff]
    intro old hold _
    rw [hold, Option.all_some, decide_eq_true_eq] at hall
    exact hall.le
  · exact Keeps.refl

end Writes

end Expiry

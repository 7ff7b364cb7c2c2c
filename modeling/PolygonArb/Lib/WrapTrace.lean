import PolygonArb.Lib.Word

/-!
# A word computation beside the same computation over unbounded integers

Code that mixes checked and wrapping operators is right as long as no wrapping operator leaves a word.  To say
so, the computation is written a second time over the natural numbers, as a `Traced` value: the result and
every intermediate value in order, each with the kind of operator that makes it in the code.

The first value of the trace that does not fit a word decides: when there is none the two computations agree,
when its operator is checked the code fails there, and when it wraps nothing is promised (`Traced.Meets`).
-/

namespace Word

/-- An intermediate value over the unbounded integers. -/
structure Intermediate where
  value : ℕ
  /-- The code fails where the value does not fit. -/
  checked : Bool
  product : Bool
  deriving DecidableEq

/-- A result, if the computation reaches one, and the values it went through. -/
structure Traced (α : Type) where
  values : List Intermediate
  result : Option α

namespace Traced

variable {α β : Type}

/-- The computation gives no result. -/
def refuse : Traced α := ⟨[], none⟩

instance : Monad Traced where
  pure a := ⟨[], some a⟩
  bind t g :=
    match t.result with
    | none => ⟨t.values, none⟩
    | some a => ⟨t.values ++ (g a).values, (g a).result⟩

def emit (v : Intermediate) : Traced ℕ := ⟨[v], some v.value⟩

def mul (a b : ℕ) : Traced ℕ := emit ⟨a * b, false, true⟩

def add (a b : ℕ) : Traced ℕ := emit ⟨a + b, false, false⟩

def mulChecked (a b : ℕ) : Traced ℕ := emit ⟨a * b, true, true⟩

def addChecked (a b : ℕ) : Traced ℕ := emit ⟨a + b, true, false⟩

/-- A number the code converts to a word. -/
def toWord (n : ℕ) : Traced ℕ := emit ⟨n, false, false⟩

/-- The first value that does not fit a word. -/
def tooLarge (t : Traced α) : Option Intermediate := t.values.find? fun v => 2 ^ 256 ≤ v.value

/-- The first value that does not fit comes from an operator that wraps. -/
def Wraps (t : Traced α) : Prop := ∃ v, t.tooLarge = some v ∧ v.checked = false

/-- Some product does not fit a word. -/
def Overflows (t : Traced α) : Prop := ∃ v ∈ t.values, v.product = true ∧ 2 ^ 256 ≤ v.value

instance (t : Traced α) : Decidable t.Wraps :=
  decidable_of_iff (t.tooLarge.any fun v => !v.checked) (by
    simp [Wraps, Option.any_eq_true])

instance (t : Traced α) : Decidable t.Overflows :=
  inferInstanceAs (Decidable (∃ v ∈ t.values, v.product = true ∧ 2 ^ 256 ≤ v.value))

/-- What the code owes the trace: `agrees` with its result when every value fits, and `refused` when a checked
operator meets the first value that does not. -/
def Meets (t : Traced α) (agrees : Option α → Prop) (refused : Prop) : Prop :=
  match t.tooLarge with
  | none => agrees t.result
  | some v => v.checked = true → refused

variable {t : Traced α} {g : α → Traced β} {agrees agrees' : Option α → Prop} {goal : Option β → Prop}
  {refused refused' : Prop}

lemma Meets.mono (h : t.Meets agrees refused) (hrefused : refused → refused')
    (hagrees : ∀ r, agrees r → agrees' r) : t.Meets agrees' refused' := by
  unfold Meets at h ⊢
  cases htoo : t.tooLarge with
  | none =>
      rw [htoo] at h
      exact hagrees _ h
  | some v =>
      rw [htoo] at h
      exact fun hv => hrefused (h hv)

lemma meets_pure {a : α} (h : agrees (some a)) : (pure a : Traced α).Meets agrees refused := h

lemma meets_refuse (h : agrees none) : (refuse : Traced α).Meets agrees refused := h

/-- The trace of a sequence is decided by its first part unless everything fits there. -/
lemma meets_bind
    (h : t.Meets (fun r => r.elim (goal none) fun a => (g a).Meets goal refused) refused) :
    (t >>= g).Meets goal refused := by
  cases t with
  | mk values result =>
  cases result with
  | none => exact h
  | some a =>
      have hvalues : (Traced.mk values (some a) >>= g).tooLarge =
          ((Traced.mk values (some a)).tooLarge).or (g a).tooLarge := List.find?_append
      have hresult : (Traced.mk values (some a) >>= g).result = (g a).result := rfl
      unfold Meets at h ⊢
      rw [hvalues]
      cases htoo : (Traced.mk values (some a)).tooLarge with
      | none =>
          rw [htoo] at h
          rw [Option.none_or, hresult]
          exact h
      | some v =>
          rw [htoo] at h
          exact h

lemma meets_emit {v : Intermediate} {g : ℕ → Traced β}
    (hfits : v.value < 2 ^ 256 → (g v.value).Meets goal refused)
    (hlarge : 2 ^ 256 ≤ v.value → v.checked = true → refused) :
    (emit v >>= g).Meets goal refused := by
  refine meets_bind ?_
  unfold Meets
  by_cases hv : 2 ^ 256 ≤ v.value
  · have htoo : (emit v).tooLarge = some v := List.find?_cons_of_pos (decide_eq_true hv)
    rw [htoo]
    exact hlarge hv
  · have htoo : (emit v).tooLarge = none := List.find?_cons_of_neg (by simpa using hv)
    rw [htoo]
    exact hfits (not_le.mp hv)

variable {a b : U256}

lemma meets_mul_exact {g : ℕ → Traced β}
    (h : (a * b).toNat = a.toNat * b.toNat → (g (a * b).toNat).Meets goal refused) :
    (mul a.toNat b.toNat >>= g).Meets goal refused := by
  refine meets_emit (fun hfits => ?_) (fun _ hchecked => by cases hchecked)
  have hword : (a * b).toNat = a.toNat * b.toNat := toNat_mul_of_lt hfits
  have hg := h hword
  rwa [hword] at hg

lemma meets_mul {g : ℕ → Traced β} (h : (g (a * b).toNat).Meets goal refused) :
    (mul a.toNat b.toNat >>= g).Meets goal refused := meets_mul_exact fun _ => h

lemma meets_add {g : ℕ → Traced β} (h : (g (a + b).toNat).Meets goal refused) :
    (add a.toNat b.toNat >>= g).Meets goal refused := by
  refine meets_emit (fun hfits => ?_) (fun _ hchecked => by cases hchecked)
  have hword : (a + b).toNat = a.toNat + b.toNat := by
    rw [BitVec.toNat_add]
    exact Nat.mod_eq_of_lt hfits
  rwa [hword] at h

lemma meets_toWord {n : ℕ} {g : ℕ → Traced β} (h : (g (BitVec.ofNat 256 n).toNat).Meets goal refused) :
    (toWord n >>= g).Meets goal refused := by
  refine meets_emit (fun hfits => ?_) (fun _ hchecked => by cases hchecked)
  rwa [BitVec.toNat_ofNat, Nat.mod_eq_of_lt hfits] at h

lemma meets_mulChecked {g : ℕ → Traced β}
    (hnone : checkedMul a b = none → refused)
    (hsome : ∀ w, checkedMul a b = some w → (g w.toNat).Meets goal refused) :
    (mulChecked a.toNat b.toNat >>= g).Meets goal refused := by
  refine meets_emit (fun hfits => ?_) (fun hlarge _ => hnone (ofNatChecked_eq_none.mpr hlarge))
  rcases exists_toNat_eq hfits with ⟨w, hw⟩
  have hmul := hsome w (ofNatChecked_eq_some.mpr hw)
  rwa [hw] at hmul

lemma meets_addChecked {g : ℕ → Traced β}
    (hnone : checkedAdd a b = none → refused)
    (hsome : ∀ w, checkedAdd a b = some w → (g w.toNat).Meets goal refused) :
    (addChecked a.toNat b.toNat >>= g).Meets goal refused := by
  refine meets_emit (fun hfits => ?_) (fun hlarge _ => hnone (ofNatChecked_eq_none.mpr hlarge))
  rcases exists_toNat_eq hfits with ⟨w, hw⟩
  have hadd := hsome w (ofNatChecked_eq_some.mpr hw)
  rwa [hw] at hadd

end Traced

end Word

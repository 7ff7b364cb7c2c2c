import PolygonArb.Core.Types

/-!
# Full-width multiply and divide

`core/math/mod.rs`: `a * b / d` with a 512-bit intermediate, rounded down or up.  A 256-bit
product that overflows falls back to the wide path, so both branches compute the same quotient;
the specs below say which one, over the naturals.

`mulDiv` and `mulDivRoundingUp` treat a zero quotient of nonzero factors as a failure (fee and
output paths); the `Floor` and `Ceil` forms allow it (amount deltas, where dust is valid).
-/

namespace PolygonArb

open Word

/-- Floor of `a * b / denominator`; a zero quotient is allowed. -/
def mulDivFloor (a b denominator : U256) : Option U256 :=
  if denominator = 0 then none
  else
    match checkedMul a b with
    | some product => some (product / denominator)
    | none => ofNatChecked (a.toNat * b.toNat / denominator.toNat)

/-- Floor of `a * b / denominator`; a zero quotient of nonzero factors is a failure. -/
def mulDiv (a b denominator : U256) : Option U256 := do
  let result ← mulDivFloor a b denominator
  if result = 0 ∧ a ≠ 0 ∧ b ≠ 0 then none else some result

/-- Ceiling of `a * b / denominator`; a zero quotient is allowed. -/
def mulDivCeil (a b denominator : U256) : Option U256 :=
  if denominator = 0 then none
  else
    match checkedMul a b with
    | some product =>
        let q := product / denominator
        if product % denominator ≠ 0 then checkedAdd q 1 else some q
    | none => do
        let product := a.toNat * b.toNat
        let result ← ofNatChecked (product / denominator.toNat)
        if 0 < product % denominator.toNat then checkedAdd result 1 else some result

/-- Ceiling of `a * b / denominator`; a zero quotient of nonzero factors is a failure. -/
def mulDivRoundingUp (a b denominator : U256) : Option U256 := do
  let result ← mulDivCeil a b denominator
  if result = 0 ∧ a ≠ 0 ∧ b ≠ 0 then none else some result

def divRoundingUp (a b : U256) : Option U256 := do
  let result ← checkedDiv a b
  if a % b ≠ 0 then checkedAdd result 1 else some result

def divRoundingUpOrZero (a b : U256) : U256 := (divRoundingUp a b).getD 0

/-! ## What they compute -/

/-- A quotient plus one when there is a remainder is the rounded-up quotient. -/
lemma ceilDiv_eq_ite (n : ℕ) {d : ℕ} (hd : 0 < d) :
    n ⌈/⌉ d = n / d + if n % d = 0 then 0 else 1 := by
  rw [Nat.ceilDiv_eq_add_pred_div]
  have hn := Nat.div_add_mod n d
  have hlt := Nat.mod_lt n hd
  split_ifs with h
  · rw [Nat.div_eq_iff hd]
    rw [h] at hn
    rw [mul_comm] at hn
    constructor <;> simp only [Nat.add_zero] <;> omega
  · rw [Nat.div_eq_iff hd]
    rw [mul_comm] at hn
    rw [Nat.add_mul, Nat.one_mul]
    constructor <;> omega

theorem mulDivFloor_eq_some {a b d c : U256} :
    mulDivFloor a b d = some c ↔ d ≠ 0 ∧ c.toNat = a.toNat * b.toNat / d.toNat := by
  unfold mulDivFloor
  split_ifs with hd
  · simp [hd]
  · cases hm : checkedMul a b with
    | none => simp only [ofNatChecked_eq_some, ne_eq, hd, not_false_eq_true, true_and]
    | some product =>
        have hp := checkedMul_eq_some.mp hm
        rw [Option.some.injEq, ← BitVec.toNat_inj, BitVec.toNat_udiv, hp]
        exact ⟨fun h => ⟨hd, h.symm⟩, fun h => h.2.symm⟩

lemma exists_mulDivFloor {a b d : U256} (hd : d ≠ 0)
    (h : a.toNat * b.toNat / d.toNat < 2 ^ 256) :
    ∃ c, mulDivFloor a b d = some c ∧ c.toNat = a.toNat * b.toNat / d.toNat := by
  obtain ⟨c, hc⟩ := exists_toNat_eq h
  exact ⟨c, mulDivFloor_eq_some.mpr ⟨hd, hc⟩, hc⟩

/-- Adding one when there is a remainder, on words and on naturals. -/
lemma checkedAdd_one_eq_some {q c : U256} {n d : ℕ} (hd : 0 < d) (hq : q.toNat = n / d) :
    (if n % d = 0 then some q else checkedAdd q 1) = some c ↔ c.toNat = n ⌈/⌉ d := by
  rw [ceilDiv_eq_ite n hd]
  split_ifs with h
  · rw [Option.some.injEq, ← BitVec.toNat_inj, hq]
    exact eq_comm
  · rw [checkedAdd_eq_some, hq]
    rfl

theorem mulDivCeil_eq_some {a b d c : U256} :
    mulDivCeil a b d = some c ↔ d ≠ 0 ∧ c.toNat = (a.toNat * b.toNat) ⌈/⌉ d.toNat := by
  unfold mulDivCeil
  split_ifs with hd
  · simp [hd]
  · have hd' : 0 < d.toNat := Nat.pos_of_ne_zero fun h => hd (eq_zero_iff.mpr h)
    cases hm : checkedMul a b with
    | none =>
        cases hq : ofNatChecked (a.toNat * b.toNat / d.toNat) with
        | none =>
            have hge := ofNatChecked_eq_none.mp hq
            simp only [hq, Option.bind_eq_bind, Option.bind_none, reduceCtorEq, false_iff]
            rintro ⟨-, hc⟩
            have hle := Nat.div_le_of_le_mul (le_smul_ceilDiv (b := a.toNat * b.toNat) hd')
            have := toNat_lt c
            omega
        | some q =>
            have hqn := ofNatChecked_eq_some.mp hq
            rw [← checkedAdd_one_eq_some hd' hqn]
            by_cases hr : a.toNat * b.toNat % d.toNat = 0
            · simp [hq, hr, show ¬ d = 0#256 from hd]
            · simp [hq, hr, Nat.pos_of_ne_zero hr, show ¬ d = 0#256 from hd]
    | some product =>
        have hp := checkedMul_eq_some.mp hm
        have hqn : (product / d).toNat = a.toNat * b.toNat / d.toNat := by
          rw [BitVec.toNat_udiv, hp]
        have hr : product % d = 0 ↔ a.toNat * b.toNat % d.toNat = 0 := by
          rw [eq_zero_iff, BitVec.toNat_umod, hp]
        rw [← checkedAdd_one_eq_some hd' hqn]
        simp only [ne_eq, hr, hd, not_false_eq_true, true_and, ite_not]

lemma exists_mulDivCeil {a b d : U256} (hd : d ≠ 0)
    (h : (a.toNat * b.toNat) ⌈/⌉ d.toNat < 2 ^ 256) :
    ∃ c, mulDivCeil a b d = some c ∧ c.toNat = (a.toNat * b.toNat) ⌈/⌉ d.toNat := by
  obtain ⟨c, hc⟩ := exists_toNat_eq h
  exact ⟨c, mulDivCeil_eq_some.mpr ⟨hd, hc⟩, hc⟩

theorem mulDiv_eq_some {a b d c : U256} :
    mulDiv a b d = some c ↔
      d ≠ 0 ∧ c.toNat = a.toNat * b.toNat / d.toNat ∧ ¬ (c = 0 ∧ a ≠ 0 ∧ b ≠ 0) := by
  unfold mulDiv
  cases h : mulDivFloor a b d with
  | none =>
      simp only [Option.bind_eq_bind, Option.bind_none, reduceCtorEq, false_iff]
      rintro ⟨hd, hc, -⟩
      rw [mulDivFloor_eq_some.mpr ⟨hd, hc⟩] at h
      exact absurd h (by simp)
  | some r =>
      obtain ⟨hd, hr⟩ := mulDivFloor_eq_some.mp h
      simp only [Option.bind_eq_bind, Option.bind_some]
      constructor
      · intro hc
        split_ifs at hc with h0
        obtain rfl := Option.some.inj hc
        exact ⟨hd, hr, h0⟩
      · rintro ⟨-, hc, h0⟩
        have hrc : r = c := BitVec.toNat_inj.mp (hr.trans hc.symm)
        rw [hrc, if_neg h0]

/-- A rounded-up quotient of nonzero factors is never zero, so the zero check never fires. -/
theorem mulDivRoundingUp_eq_mulDivCeil (a b d : U256) :
    mulDivRoundingUp a b d = mulDivCeil a b d := by
  unfold mulDivRoundingUp
  cases h : mulDivCeil a b d with
  | none => rfl
  | some r =>
      obtain ⟨hd, hr⟩ := mulDivCeil_eq_some.mp h
      simp only [Option.bind_eq_bind, Option.bind_some]
      rw [if_neg]
      rintro ⟨hr0, ha, hb⟩
      have hd' : 0 < d.toNat := Nat.pos_of_ne_zero fun h => hd (eq_zero_iff.mpr h)
      have hle : (a.toNat * b.toNat) ⌈/⌉ d.toNat ≤ 0 := by
        rw [← hr, hr0]; simp
      rw [ceilDiv_le_iff_le_mul hd', Nat.mul_zero] at hle
      rcases Nat.mul_eq_zero.mp (Nat.le_zero.mp hle) with h0 | h0
      · exact ha (eq_zero_iff.mpr h0)
      · exact hb (eq_zero_iff.mpr h0)

theorem divRoundingUp_eq_some {a b c : U256} :
    divRoundingUp a b = some c ↔ b ≠ 0 ∧ c.toNat = a.toNat ⌈/⌉ b.toNat := by
  unfold divRoundingUp checkedDiv
  by_cases hb : b = 0
  · simp [hb]
  · have hb' : 0 < b.toNat := Nat.pos_of_ne_zero fun h => hb (eq_zero_iff.mpr h)
    have hr : a % b = 0 ↔ a.toNat % b.toNat = 0 := by
      rw [eq_zero_iff, BitVec.toNat_umod]
    rw [← checkedAdd_one_eq_some hb' (BitVec.toNat_udiv)]
    simp only [↓reduceIte, Option.bind_eq_bind, Option.bind_some, ne_eq, hr, hb, not_false_eq_true,
      true_and, ite_not]

/-- A rounded-up quotient by a nonzero word always exists. -/
lemma exists_divRoundingUp (a : U256) {b : U256} (hb : b ≠ 0) :
    ∃ c, divRoundingUp a b = some c ∧ c.toNat = a.toNat ⌈/⌉ b.toNat := by
  have hb' : 0 < b.toNat := Nat.pos_of_ne_zero fun h => hb (eq_zero_iff.mpr h)
  have hle : a.toNat ⌈/⌉ b.toNat ≤ a.toNat := by
    rw [ceilDiv_le_iff_le_mul hb']
    exact Nat.le_mul_of_pos_left _ hb'
  obtain ⟨c, hc⟩ := exists_toNat_eq (hle.trans_lt (toNat_lt a))
  exact ⟨c, divRoundingUp_eq_some.mpr ⟨hb, hc⟩, hc⟩

end PolygonArb

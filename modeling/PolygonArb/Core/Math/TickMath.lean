import PolygonArb.Core.Types

/-!
# Tick to square-root price

`core/math/tick_math.rs`: `sqrt(1.0001 ^ tick) * 2^96` by the bits of the tick.  Every set bit of
`|tick|` multiplies a Q128 accumulator by one constant, a positive tick inverts it, and the result
is rounded up to Q96.

The price is monotone in the tick (`getSqrtRatioAtTick_mono`).  The argument never looks at what
the constants approximate: it only needs that a constant is at most the product of all the
smaller ones, which is one comparison per table row (`tickTable_dominated`).
-/

namespace PolygonArb

open Word

def minTick : ℤ := -887272

def maxTick : ℤ := 887272

/-- The price at `minTick`. -/
def minSqrtRatio : U256 := fromLimbs 4295128739 0 0 0

/-- The price at `maxTick`. -/
def maxSqrtRatio : U256 :=
  fromLimbs 6743328256752651558 17280870778742802505 4294805859 0

/-- `maxSqrtRatio - 1`, the exclusion bound of one-for-zero swaps. -/
def maxSqrtRatioExclusive : U256 :=
  fromLimbs 6743328256752651557 17280870778742802505 4294805859 0

def normalizeTickSearchBounds (minT maxT : ℤ) : ℤ × ℤ :=
  (max minTick (min minT maxT), min maxTick (max maxT minT))

def mulShift (r m : U256) : U256 := (r * m) >>> 128

/-- The Q128 factor of bit 0 of the tick. -/
def tickFactor0 : U256 := fromLimbs 12262481743371124737 18445821805675392311 0 0

/-- The Q128 factors of bits 1 to 19 of the tick, lowest bit first. -/
def tickFactors : List U256 :=
  [fromLimbs 6459403834229662010 18444899583751176498 0 0,
   fromLimbs 17226890335427755468 18443055278223354162 0 0,
   fromLimbs 2032852871939366096 18439367220385604838 0 0,
   fromLimbs 14545316742740207172 18431993317065449817 0 0,
   fromLimbs 5129152022828963008 18417254355718160513 0 0,
   fromLimbs 4894419605888772193 18387811781193591352 0 0,
   fromLimbs 1280255884321894483 18329067761203520168 0 0,
   fromLimbs 15924666964335305636 18212142134806087854 0 0,
   fromLimbs 8010504389359918676 17980523815641551639 0 0,
   fromLimbs 10668036004952895731 17526086738831147013 0 0,
   fromLimbs 4878133418470705625 16651378430235024244 0 0,
   fromLimbs 9537173718739605541 15030750278693429944 0 0,
   fromLimbs 9972618978014552549 12247334978882834399 0 0,
   fromLimbs 10428997489610666743 8131365268884726200 0 0,
   fromLimbs 9305304367709015974 3584323654723342297 0 0,
   fromLimbs 14301143598189091785 696457651847595233 0 0,
   fromLimbs 7393154844743099908 26294789957452057 0 0,
   fromLimbs 2209338891292245656 37481735321082 0 0,
   fromLimbs 10518117631919034274 76158723 0 0]

/-- The chain of `if abs_tick & bit != 0` updates: one factor per bit of `n`, lowest bit first. -/
def applyTickFactors : List U256 → U256 → ℕ → U256
  | [], ratio, _ => ratio
  | factor :: rest, ratio, n =>
      applyTickFactors rest (if n % 2 ≠ 0 then mulShift ratio factor else ratio) (n / 2)

/-- The Q128 accumulator after all bits of `abs_tick`. -/
def tickRatioX128 (absTick : ℕ) : U256 :=
  applyTickFactors tickFactors (if absTick % 2 ≠ 0 then tickFactor0 else fromLimbs 0 0 1 0)
    (absTick / 2)

/-- Q128 to Q96, rounded up. -/
def roundUpToX96 (ratio : U256) : U256 :=
  if ratio &&& fromLimbs 4294967295 0 0 0 = 0 then ratio >>> 32 else (ratio >>> 32) + 1

/-- `sqrt(1.0001 ^ tick) * 2^96`, or nothing outside the tick range. -/
def getSqrtRatioAtTick (tick : ℤ) : Option U256 :=
  if minTick ≤ tick ∧ tick ≤ maxTick then
    let ratio := tickRatioX128 tick.natAbs
    some (roundUpToX96 (if 0 < tick then maxValue / ratio else ratio))
  else none

/-- One pass of the binary search of `get_tick_at_sqrt_ratio_in_range`, at most `fuel` probes. -/
def searchTick (sqrtPriceX96 : U256) : ℕ → ℤ → ℤ → ℤ → Option ℤ
  | 0, _, _, answer => some answer
  | fuel + 1, low, high, answer =>
      if low ≤ high then
        -- `i32::midpoint` rounds toward zero
        let mid := (low + high).tdiv 2
        match getSqrtRatioAtTick mid with
        | none => none
        | some ratio =>
            if ratio ≤ sqrtPriceX96 then searchTick sqrtPriceX96 fuel (mid + 1) high mid
            else searchTick sqrtPriceX96 fuel low (mid - 1) answer
      else some answer

/-- The greatest tick of the range whose price is at most `sqrtPriceX96`. -/
def getTickAtSqrtRatioInRange (sqrtPriceX96 : U256) (minT maxT : ℤ) : Option ℤ :=
  if sqrtPriceX96 < minSqrtRatio ∨ maxSqrtRatio ≤ sqrtPriceX96 then none
  else
    let (lo, hi) := normalizeTickSearchBounds minT maxT
    searchTick sqrtPriceX96 (hi + 1 - lo).toNat lo hi lo

lemma midpoint_mem {low high : ℤ} (h : low ≤ high) :
    low ≤ (low + high).tdiv 2 ∧ (low + high).tdiv 2 ≤ high := by
  rw [Int.tdiv_eq_ediv]
  split_ifs with h0
  · omega
  · have hsign : Int.sign 2 = 1 := rfl
    omega

/-! ## Monotonicity -/

/-- The accumulator never exceeds Q128 one. -/
def x128One : ℕ := 2 ^ 128

lemma toNat_mulShift {r m : U256} (hr : r.toNat ≤ x128One) (hm : m.toNat < x128One) :
    (mulShift r m).toNat = r.toNat * m.toNat / x128One := by
  unfold x128One at *
  have hlt : r.toNat * m.toNat < 2 ^ 256 :=
    calc r.toNat * m.toNat ≤ 2 ^ 128 * m.toNat := Nat.mul_le_mul_right _ hr
      _ < 2 ^ 128 * 2 ^ 128 := Nat.mul_lt_mul_of_pos_left hm (by norm_num)
      _ = 2 ^ 256 := by norm_num
  rw [mulShift, BitVec.toNat_ushiftRight, toNat_mul_of_lt hlt, Nat.shiftRight_eq_div_pow]

/-- A factor below one shrinks the accumulator. -/
lemma mulShift_le {r m : U256} (hr : r.toNat ≤ x128One) (hm : m.toNat < x128One) :
    (mulShift r m).toNat ≤ r.toNat := by
  rw [toNat_mulShift hr hm]
  apply Nat.div_le_of_le_mul
  rw [Nat.mul_comm]
  exact Nat.mul_le_mul_right _ hm.le

lemma mulShift_mono {r r' m : U256} (hr : r'.toNat ≤ x128One) (hm : m.toNat < x128One)
    (h : r.toNat ≤ r'.toNat) : (mulShift r m).toNat ≤ (mulShift r' m).toNat := by
  rw [toNat_mulShift (h.trans hr) hm, toNat_mulShift hr hm]
  exact Nat.div_le_div_right (Nat.mul_le_mul_right _ h)

/-- Every factor is below one and at most the product `acc` of all the factors before it. -/
def FactorsDominated : U256 → List U256 → Prop
  | _, [] => True
  | acc, factor :: rest =>
      factor.toNat < x128One ∧ factor.toNat ≤ acc.toNat ∧ FactorsDominated (mulShift acc factor) rest

instance decidableFactorsDominated : ∀ acc fs, Decidable (FactorsDominated acc fs)
  | _, [] => isTrue trivial
  | acc, factor :: rest =>
      have := decidableFactorsDominated (mulShift acc factor) rest
      inferInstanceAs (Decidable (_ ∧ _ ∧ _))

/-- One comparison per row of the table, by evaluation. -/
lemma tickTable_dominated : FactorsDominated tickFactor0 tickFactors := by decide

/-- The product of all the factors, the smallest value an accumulator can reach. -/
def allFactors : U256 → List U256 → U256
  | acc, [] => acc
  | acc, factor :: rest => allFactors (mulShift acc factor) rest

/-- Two accumulators, of the bits of `m` and of `n` with `m ≤ n`.  While the bits still to come
differ, only the outer bounds are known; once they agree the accumulators are ordered. -/
lemma applyTickFactors_antitone : ∀ (fs : List U256) (acc rm rn : U256) (m n : ℕ),
    FactorsDominated acc fs → n < 2 ^ fs.length → rm.toNat ≤ x128One → rn.toNat ≤ x128One →
    acc.toNat ≤ rm.toNat → acc.toNat ≤ rn.toNat → (m = n ∧ rn.toNat ≤ rm.toNat ∨ m < n) →
      (applyTickFactors fs rn n).toNat ≤ (applyTickFactors fs rm m).toNat ∧
      (allFactors acc fs).toNat ≤ (applyTickFactors fs rn n).toNat ∧
      (applyTickFactors fs rm m).toNat ≤ x128One
  | [], acc, rm, rn, m, n, _, hn, hm1, _, _, hrn, hmn => by
      simp only [List.length_nil, Nat.pow_zero] at hn
      rcases hmn with ⟨-, h⟩ | h
      · exact ⟨h, hrn, hm1⟩
      · omega
  | factor :: rest, acc, rm, rn, m, n, ⟨hf, hacc, hrest⟩, hn, hm1, hn1, hrm, hrn, hmn => by
      have hacc1 : acc.toNat ≤ x128One := hrm.trans hm1
      have hlow : ∀ r : U256, r.toNat ≤ x128One → acc.toNat ≤ r.toNat → ∀ b : Prop, [Decidable b] →
          (mulShift acc factor).toNat ≤ (if b then mulShift r factor else r).toNat ∧
          (if b then mulShift r factor else r).toNat ≤ x128One := by
        intro r hr1 hr b _
        split_ifs
        · exact ⟨mulShift_mono hr1 hf hr, (mulShift_le hr1 hf).trans hr1⟩
        · exact ⟨(mulShift_le hacc1 hf).trans hr, hr1⟩
      have hn' : n / 2 < 2 ^ rest.length := by
        rw [List.length_cons, Nat.pow_succ] at hn
        omega
      simp only [applyTickFactors, allFactors]
      refine applyTickFactors_antitone rest _ _ _ _ _ hrest hn' (hlow rm hm1 hrm _).2
        (hlow rn hn1 hrn _).2 (hlow rm hm1 hrm _).1 (hlow rn hn1 hrn _).1 ?_
      rcases hmn with ⟨rfl, hle⟩ | hlt
      · left
        refine ⟨rfl, ?_⟩
        split_ifs
        · exact mulShift_mono hm1 hf hle
        · exact hle
      · rcases Nat.lt_or_ge (m / 2) (n / 2) with h | h
        · exact Or.inr h
        · -- the highest differing bit: set in `n`, clear in `m`
          left
          have hb : m / 2 = n / 2 ∧ ¬ m % 2 ≠ 0 ∧ n % 2 ≠ 0 := by omega
          refine ⟨hb.1, ?_⟩
          rw [if_neg hb.2.1, if_pos hb.2.2]
          refine le_trans ?_ (hacc.trans hrm)
          rw [toNat_mulShift hn1 hf]
          apply Nat.div_le_of_le_mul
          exact Nat.mul_le_mul_right _ hn1

/-- The accumulator decreases with `|tick|` and stays between the full product and one. -/
lemma tickRatioX128_antitone {m n : ℕ} (hmn : m ≤ n) (hn : n < 2 ^ 20) :
    (tickRatioX128 n).toNat ≤ (tickRatioX128 m).toNat ∧ 0 < (tickRatioX128 n).toNat ∧
      (tickRatioX128 m).toNat ≤ x128One := by
  have hinit : ∀ b : Prop, [Decidable b] →
      tickFactor0.toNat ≤ (if b then tickFactor0 else fromLimbs 0 0 1 0).toNat ∧
      (if b then tickFactor0 else fromLimbs 0 0 1 0).toNat ≤ x128One := by
    intro b _
    split_ifs
    · exact ⟨le_rfl, by decide⟩
    · exact ⟨by decide, by decide⟩
  have h := applyTickFactors_antitone tickFactors tickFactor0
    (if m % 2 ≠ 0 then tickFactor0 else fromLimbs 0 0 1 0)
    (if n % 2 ≠ 0 then tickFactor0 else fromLimbs 0 0 1 0) (m / 2) (n / 2) tickTable_dominated
    (by simp only [tickFactors, List.length_cons, List.length_nil]; omega)
    (hinit _).2 (hinit _).2 (hinit _).1 (hinit _).1 ?_
  · refine ⟨h.1, lt_of_lt_of_le ?_ h.2.1, h.2.2⟩
    decide
  · rcases Nat.lt_or_ge (m / 2) (n / 2) with hlt | hge
    · exact Or.inr hlt
    · refine Or.inl ⟨by omega, ?_⟩
      by_cases hb : m % 2 = n % 2
      · rw [hb]
      · have hb' : ¬ m % 2 ≠ 0 ∧ n % 2 ≠ 0 := by omega
        rw [if_neg hb'.1, if_pos hb'.2]
        decide

lemma toNat_roundUpToX96 (r : U256) : (roundUpToX96 r).toNat = r.toNat ⌈/⌉ 2 ^ 32 := by
  have hlow : r &&& fromLimbs 4294967295 0 0 0 = 0 ↔ r.toNat % 2 ^ 32 = 0 := by
    rw [eq_zero_iff, BitVec.toNat_and]
    have : (fromLimbs 4294967295 0 0 0).toNat = 2 ^ 32 - 1 := by decide
    rw [this, Nat.and_two_pow_sub_one_eq_mod]
  have hshift : (r >>> 32).toNat = r.toNat / 2 ^ 32 := by
    rw [BitVec.toNat_ushiftRight, Nat.shiftRight_eq_div_pow]
  have hr := toNat_lt r
  rw [Nat.ceilDiv_eq_add_pred_div]
  unfold roundUpToX96
  split_ifs with h
  · rw [hshift]
    have := hlow.mp h
    omega
  · have h0 : r.toNat % 2 ^ 32 ≠ 0 := fun h0 => h (hlow.mpr h0)
    rw [BitVec.toNat_add, hshift]
    simp only [BitVec.ofNat_eq_ofNat, BitVec.toNat_ofNat]
    omega

lemma getSqrtRatioAtTick_eq_some {t : ℤ} {p : U256} :
    getSqrtRatioAtTick t = some p ↔ (minTick ≤ t ∧ t ≤ maxTick) ∧
      p = roundUpToX96 (if 0 < t then maxValue / tickRatioX128 t.natAbs
        else tickRatioX128 t.natAbs) := by
  unfold getSqrtRatioAtTick
  by_cases h : minTick ≤ t ∧ t ≤ maxTick
  · rw [if_pos h, Option.some.injEq]
    exact ⟨fun hp => ⟨h, hp.symm⟩, fun hp => hp.2.symm⟩
  · rw [if_neg h]
    exact ⟨fun hp => absurd hp (by simp), fun hp => absurd hp.1 h⟩

/-- A higher tick never has a lower price. -/
theorem getSqrtRatioAtTick_mono {s t : ℤ} {p q : U256} (hst : s ≤ t)
    (hp : getSqrtRatioAtTick s = some p) (hq : getSqrtRatioAtTick t = some q) :
    p.toNat ≤ q.toNat := by
  obtain ⟨hs, rfl⟩ := getSqrtRatioAtTick_eq_some.mp hp
  obtain ⟨ht, rfl⟩ := getSqrtRatioAtTick_eq_some.mp hq
  unfold minTick maxTick at hs ht
  rw [toNat_roundUpToX96, toNat_roundUpToX96, Nat.ceilDiv_eq_add_pred_div,
    Nat.ceilDiv_eq_add_pred_div]
  have hdiv : ∀ u : ℤ, (maxValue / tickRatioX128 u.natAbs).toNat
      = (2 ^ 256 - 1) / (tickRatioX128 u.natAbs).toNat := by
    intro u
    rw [BitVec.toNat_udiv, toNat_maxValue]
  rcases le_or_gt t 0 with ht0 | ht0
  · -- both accumulators are used as they are
    have h := (tickRatioX128_antitone (m := t.natAbs) (n := s.natAbs) (by omega) (by omega)).1
    rw [if_neg (by omega), if_neg (by omega)]
    omega
  · rcases le_or_gt s 0 with hs0 | hs0
    · -- below one on the left, the inverse of something below one on the right
      have h1 := (tickRatioX128_antitone (m := s.natAbs) (n := s.natAbs) le_rfl (by omega)).2.2
      have h2 := tickRatioX128_antitone (m := t.natAbs) (n := t.natAbs) le_rfl (by omega)
      have h3 : x128One - 1 ≤ (2 ^ 256 - 1) / (tickRatioX128 t.natAbs).toNat := by
        rw [Nat.le_div_iff_mul_le h2.2.1]
        calc (x128One - 1) * (tickRatioX128 t.natAbs).toNat
            ≤ (x128One - 1) * x128One := Nat.mul_le_mul_left _ h2.2.2
          _ ≤ 2 ^ 256 - 1 := by unfold x128One; norm_num
      rw [if_neg (by omega), if_pos ht0, hdiv]
      unfold x128One at *
      omega
    · have h := tickRatioX128_antitone (m := s.natAbs) (n := t.natAbs) (by omega) (by omega)
      rw [if_pos hs0, if_pos ht0, hdiv, hdiv]
      have h3 := Nat.div_le_div_left (a := 2 ^ 256 - 1) h.1 h.2.1
      omega

lemma getSqrtRatioAtTick_minTick : getSqrtRatioAtTick minTick = some minSqrtRatio := by
  decide

lemma getSqrtRatioAtTick_maxTick : getSqrtRatioAtTick maxTick = some maxSqrtRatio := by
  decide

/-- Every tick price lies between the two extreme prices. -/
theorem getSqrtRatioAtTick_mem {t : ℤ} {p : U256} (h : getSqrtRatioAtTick t = some p) :
    minSqrtRatio.toNat ≤ p.toNat ∧ p.toNat ≤ maxSqrtRatio.toNat := by
  obtain ⟨h1, h2⟩ := (getSqrtRatioAtTick_eq_some.mp h).1
  exact ⟨getSqrtRatioAtTick_mono h1 getSqrtRatioAtTick_minTick h,
    getSqrtRatioAtTick_mono h2 h getSqrtRatioAtTick_maxTick⟩

end PolygonArb

import PolygonArb.Core.Math.Dodo

/-!
# Larger trades get no less from a DODO curve

The sizing search takes for granted that the trade solver grows with `delta` and stays within the balance it
pays from.  In the general branch the output is `v1` less a root of the quadratic, and the root only shrinks:
`sqrt(b^2 + c) + b` grows with `b`, `sqrt(b^2 + c) - b` falls with it, floors included
(`sqrt_sub_antitone`), and `delta` moves `b` from one sign to the other.  At `k == ONE` it is `v1` times a
share that grows.

The linear branch `k == 0` is the exception.  `mul_floor` keeps the low word of a quotient that does not
fit, where the other branches fail closed, so a trade past `2 ^ 256` starts again from zero.
-/

namespace PolygonArb

open Word

section Arithmetic

/-- The distance of the root from its base shrinks as the base grows, floors included. -/
lemma sqrt_sub_antitone {b b' c : ℕ} (h : b ≤ b') :
    (b' * b' + c).sqrt - b' ≤ (b * b + c).sqrt - b := by
  have hbelow : b * b + c < ((b * b + c).sqrt + 1) * ((b * b + c).sqrt + 1) := Nat.lt_succ_sqrt _
  have hbase : b ≤ (b * b + c).sqrt := Nat.le_sqrt.mpr (Nat.le_add_right _ _)
  obtain ⟨e, rfl⟩ := Nat.exists_eq_add_of_le h
  -- a step of `e` in the base moves the root by at most `e`
  have hroot : ((b + e) * (b + e) + c).sqrt < (b * b + c).sqrt + 1 + e := by
    refine Nat.sqrt_lt.mpr ?_
    have hcross : b * e ≤ ((b * b + c).sqrt + 1) * e := Nat.mul_le_mul_right _ (by omega)
    calc (b + e) * (b + e) + c = b * b + c + (2 * (b * e) + e * e) := by ring
      _ < ((b * b + c).sqrt + 1) * ((b * b + c).sqrt + 1) +
          (2 * (((b * b + c).sqrt + 1) * e) + e * e) := by omega
      _ = ((b * b + c).sqrt + 1 + e) * ((b * b + c).sqrt + 1 + e) := by ring
  omega

lemma add_sqrt_monotone {b b' c : ℕ} (h : b ≤ b') :
    b + (b * b + c).sqrt ≤ b' + (b' * b' + c).sqrt :=
  Nat.add_le_add h (Nat.sqrt_le_sqrt (Nat.add_le_add_right (Nat.mul_le_mul h h) _))

/-- The numerator of the root: `b` is the distance of the two parts, its sign that of their order. -/
def tradeNumerator (c part1 part2 : ℕ) : ℕ :=
  if part1 < part2 then
    let b := (part2 - part1) / one18.toNat
    (b * b + c).sqrt - b
  else
    let b := (part1 - part2) / one18.toNat
    b + (b * b + c).sqrt

lemma tradeNumerator_antitone {c part1 p q : ℕ} (h : p ≤ q) :
    tradeNumerator c part1 q ≤ tradeNumerator c part1 p := by
  unfold tradeNumerator
  by_cases hp : part1 < p
  · rw [if_pos hp, if_pos (lt_of_lt_of_le hp h)]
    exact sqrt_sub_antitone (Nat.div_le_div_right (Nat.sub_le_sub_right h _))
  · by_cases hq : part1 < q
    · -- both signs meet at `b = 0`
      rw [if_pos hq, if_neg hp]
      refine (sqrt_sub_antitone (Nat.zero_le _)).trans ?_
      exact le_trans (by omega) (add_sqrt_monotone (Nat.zero_le _))
    · rw [if_neg hq, if_neg hp]
      exact add_sqrt_monotone (Nat.div_le_div_right (Nat.sub_le_sub_left h _))

/-- Fractions compared by their cross products. -/
lemma div_le_div_of_cross {a b c d : ℕ} (hb : 0 < b) (hd : 0 < d) (h : a * d ≤ c * b) :
    a / b ≤ c / d := by
  rw [Nat.le_div_iff_mul_le hd]
  refine Nat.le_of_mul_le_mul_right ?_ hb
  calc a / b * d * b = a / b * b * d := by ring
    _ ≤ a * d := Nat.mul_le_mul_right _ (Nat.div_mul_le_self _ _)
    _ ≤ c * b := h

lemma share_monotone {v s t unit : ℕ} (hunit : 0 < unit) (h : s ≤ t) :
    v * s / (s + unit) ≤ v * t / (t + unit) := by
  refine div_le_div_of_cross (by omega) (by omega) ?_
  have hcross : v * s * unit ≤ v * t * unit := Nat.mul_le_mul_right _ (Nat.mul_le_mul_left _ h)
  calc v * s * (t + unit) = v * s * t + v * s * unit := by ring
    _ ≤ v * s * t + v * t * unit := Nat.add_le_add_left hcross _
    _ = v * t * (s + unit) := by ring

/-- Two amounts on either side of the wrap, the larger of which gives less. -/
lemma exists_wrapped_pair {i limit unit w : ℕ} (hi : 0 < i) (hiw : i < w) (hunit : 4 ≤ unit)
    (hw : 4 ≤ w) (h : w < i * limit / unit) :
    ∃ d1 d2, d1 ≤ d2 ∧ d2 ≤ limit ∧ i * d1 / unit < w ∧ w < i * d2 / unit ∧
      i * d2 / unit < i * d1 / unit + w := by
  have hpos : 0 < unit := by omega
  have hsucc : (w + 1) * unit = w * unit + unit := Nat.succ_mul _ _
  have hlimit : w * unit + unit ≤ i * limit := hsucc ▸ (Nat.le_div_iff_mul_le hpos).mp h
  have hroom : 2 * unit + 2 * i ≤ w * unit := by
    have hleft : w * 4 ≤ w * unit := Nat.mul_le_mul_left _ hunit
    have hright : 4 * unit ≤ w * unit := Nat.mul_le_mul_right _ hw
    omega
  -- the last amount below the wrap, and the first one a whole unit past it
  set d1 := (w * unit - 1) / i
  set q := (w * unit + unit - 1) / i
  have hd1 : i * d1 ≤ w * unit - 1 := Nat.mul_div_le _ _
  have hd1' : w * unit - 1 < i * d1 + i := Nat.lt_mul_div_succ _ hi
  have hq : i * q ≤ w * unit + unit - 1 := Nat.mul_div_le _ _
  have hq' : w * unit + unit - 1 < i * q + i := Nat.lt_mul_div_succ _ hi
  have hd2 : i * (q + 1) = i * q + i := Nat.mul_succ _ _
  refine ⟨d1, q + 1, ?_, ?_, ?_, ?_, ?_⟩
  · exact (Nat.div_le_div_right (by omega)).trans (Nat.le_succ _)
  · refine Nat.succ_le_of_lt ((Nat.div_lt_iff_lt_mul hi).mpr ?_)
    rw [Nat.mul_comm limit]
    omega
  · rw [Nat.div_lt_iff_lt_mul hpos]
    omega
  · refine Nat.lt_of_succ_le ((Nat.le_div_iff_mul_le hpos).mpr ?_)
    rw [Nat.succ_eq_add_one, hsucc]
    omega
  · have hx1 := Nat.lt_mul_div_succ (i * d1) hpos
    rw [Nat.mul_succ] at hx1
    rw [Nat.div_lt_iff_lt_mul hpos, Nat.add_mul, Nat.mul_comm (i * d1 / unit)]
    omega

end Arithmetic

section Solver

variable {v0 v1 delta d1 d2 i k : U256}

/-- `mulDown` over the naturals: a floor, of which the low word is kept. -/
lemma mulDown_toNat (a b : U256) :
    (mulDown a b).toNat = a.toNat * b.toNat / one18.toNat % 2 ^ 256 := by
  rw [mulDown]
  cases hproduct : checkedMul a b with
  | none => rw [truncate256, BitVec.toNat_ofNat]
  | some product =>
      have hvalue := checkedMul_eq_some.mp hproduct
      have hlt := toNat_lt product
      rw [BitVec.toNat_udiv, hvalue, Nat.mod_eq_of_lt]
      exact lt_of_le_of_lt (Nat.div_le_self _ _) (hvalue ▸ hlt)

/-- The guards of the solver, passed by every nonzero result. -/
lemma solve_guards (h : solveQuadraticFunctionForTrade v0 v1 delta i k ≠ 0) :
    ¬ (v0 = 0 ∨ v1 = 0 ∨ delta = 0 ∨ i = 0 ∨ one18 < k) := by
  intro hguard
  exact h (by rw [solveQuadraticFunctionForTrade, if_pos hguard])

/-! ### The linear branch -/

lemma solve_linear (hguard : ¬ (v0 = 0 ∨ v1 = 0 ∨ delta = 0 ∨ i = 0 ∨ one18 < (0 : U256))) :
    (solveQuadraticFunctionForTrade v0 v1 delta i 0).toNat =
      min v1.toNat (i.toNat * delta.toNat / one18.toNat % 2 ^ 256) := by
  rw [solveQuadraticFunctionForTrade, if_neg hguard, if_pos rfl, ← mulDown_toNat]
  dsimp only
  split_ifs with hcap
  · exact (min_eq_left (lt_iff.mp hcap).le).symm
  · exact (min_eq_right (not_lt.mp fun hlt => hcap (lt_iff.mpr hlt))).symm

/-! ### The branch at `ONE` -/

lemma solve_atOne (hfits : i.toNat * delta.toNat * v1.toNat < 2 ^ 512)
    (h : solveQuadraticAtOne v0 v1 delta i ≠ 0) :
    (solveQuadraticAtOne v0 v1 delta i).toNat =
      v1.toNat * (i.toNat * delta.toNat * v1.toNat / (v0.toNat * v0.toNat)) /
        (i.toNat * delta.toNat * v1.toNat / (v0.toNat * v0.toNat) + one18.toNat) := by
  have hwrap : wrap512 (i.toNat * delta.toNat * v1.toNat) = i.toNat * delta.toNat * v1.toNat :=
    Nat.mod_eq_of_lt hfits
  rw [solveQuadraticAtOne, hwrap] at h ⊢
  cases htemp : ofNatChecked
      (i.toNat * delta.toNat * v1.toNat / (v0.toNat * v0.toNat)) with
  | none =>
      rw [htemp] at h
      exact absurd rfl h
  | some temp =>
      rw [htemp] at h
      dsimp only at h ⊢
      split_ifs at h ⊢ with hzero
      · exact absurd rfl h
      rw [← ofNatChecked_eq_some.mp htemp]
      cases hout : ofNatChecked (v1.toNat * temp.toNat / (temp.toNat + one18.toNat)) with
      | none =>
          rw [hout] at h
          exact absurd rfl h
      | some out => exact ofNatChecked_eq_some.mp hout

/-! ### The general branch -/

/-- `4 (1 - k) k V0^2`, the part of the radicand that `delta` does not move. -/
def tradeDiscriminant (v0 k : U256) : U256 :=
  mulDown ((one18 - k) * 4) (truncate256 ((mulDown k v0).toNat * v0.toNat))

lemma quadraticSquareRoot_toNat {bAbs root : U256} (h : quadraticSquareRoot v0 k bAbs = some root) :
    root.toNat = (bAbs.toNat * bAbs.toNat + (tradeDiscriminant v0 k).toNat).sqrt ∧
      ((tradeDiscriminant v0 k).toNat = 0 ∨ root.toNat < 2 ^ 128) := by
  rcases Option.bind_eq_some_iff.mp h with ⟨mfl, hmfl, hroot⟩
  have hdisc : mulDown ((one18 - k) * 4) mfl = tradeDiscriminant v0 k := by
    rw [ofNatChecked] at hmfl
    split_ifs at hmfl
    rw [← Option.some.inj hmfl]
    rfl
  dsimp only at hroot
  rw [hdisc] at hroot
  split_ifs at hroot with hzero
  · obtain rfl := Option.some.inj hroot
    rw [eq_zero_iff.mp hzero, Nat.add_zero, Nat.sqrt_eq]
    exact ⟨rfl, .inl rfl⟩
  · rcases Option.bind_eq_some_iff.mp hroot with ⟨radicand, hradicand, hlast⟩
    obtain rfl := Option.some.inj hlast
    have hvalue := ofNatChecked_eq_some.mp hradicand
    have hsmall : radicand.toNat.sqrt < 2 ^ 128 := by
      rw [Nat.sqrt_lt]
      exact lt_of_lt_of_le (toNat_lt radicand) (by norm_num)
    have hword : (truncate256 radicand.toNat.sqrt).toNat = radicand.toNat.sqrt := by
      rw [truncate256, BitVec.toNat_ofNat]
      exact Nat.mod_eq_of_lt (hsmall.trans (by norm_num))
    rw [hword, ← hvalue]
    exact ⟨rfl, .inr hsmall⟩

lemma quadraticPart2_toNat {part2 : U256}
    (hfits : k.toNat * v0.toNat / v1.toNat * v0.toNat < 2 ^ 512)
    (h : quadraticPart2 v0 v1 delta i k = some part2) :
    part2.toNat = k.toNat * v0.toNat / v1.toNat * v0.toNat + i.toNat * delta.toNat := by
  rcases Option.bind_eq_some_iff.mp h with ⟨kTerm, hkTerm, h⟩
  rcases Option.bind_eq_some_iff.mp h with ⟨iDelta, hiDelta, h⟩
  rw [checkedAdd_eq_some.mp h, ofNatChecked_eq_some.mp hkTerm, ofNatChecked_eq_some.mp hiDelta,
    wrap512, modulus512, Nat.mod_eq_of_lt hfits]

/-- The distance of the two parts in whole units. -/
def partsDistance (part1 part2 : U256) : U256 :=
  (if decide (part1 < part2) = true then part2 - part1 else part1 - part2) / one18

/-- The numerator of the root as the solver computes it. -/
def quadraticNumerator (part1 part2 root : U256) : Option U256 :=
  if decide (part1 < part2) = true then
    if root ≤ partsDistance part1 part2 then none else some (root - partsDistance part1 part2)
  else checkedAdd (partsDistance part1 part2) root

lemma quadraticNumerator_toNat {part1 part2 root numerator : U256} {c : ℕ}
    (hroot : root.toNat =
      ((partsDistance part1 part2).toNat * (partsDistance part1 part2).toNat + c).sqrt)
    (h : quadraticNumerator part1 part2 root = some numerator) :
    numerator.toNat = tradeNumerator c part1.toNat part2.toNat := by
  unfold quadraticNumerator at h
  unfold tradeNumerator
  by_cases hsign : part1 < part2
  · have hlt := lt_iff.mp hsign
    have hdistance : (partsDistance part1 part2).toNat =
        (part2.toNat - part1.toNat) / one18.toNat := by
      rw [partsDistance, if_pos (decide_eq_true hsign), BitVec.toNat_udiv,
        toNat_sub_of_le hlt.le]
    rw [if_pos (decide_eq_true hsign)] at h
    split_ifs at h with hle
    rw [← Option.some.inj h, if_pos hlt, toNat_sub_of_le (not_le.mp fun h0 =>
      hle (le_iff.mpr h0)).le, hroot, hdistance]
  · have hle : part2.toNat ≤ part1.toNat := not_lt.mp fun hlt => hsign (lt_iff.mpr hlt)
    have hdistance : (partsDistance part1 part2).toNat =
        (part1.toNat - part2.toNat) / one18.toNat := by
      rw [partsDistance, if_neg fun h0 => hsign (of_decide_eq_true h0), BitVec.toNat_udiv,
        toNat_sub_of_le hle]
    rw [if_neg fun h0 => hsign (of_decide_eq_true h0)] at h
    rw [checkedAdd_eq_some.mp h, if_neg (not_lt.mpr hle), hroot, hdistance]

/-- The root that the output stays below `v1` by, rounded up. -/
def tradeRoot (v0 v1 delta i k : U256) : ℕ :=
  (tradeNumerator (tradeDiscriminant v0 k).toNat ((one18 - k).toNat * v1.toNat)
      (k.toNat * v0.toNat / v1.toNat * v0.toNat + i.toNat * delta.toNat) * one18.toNat +
    (one18 - k).toNat * 2 - 1) / ((one18 - k).toNat * 2)

lemma tradeRoot_antitone (h : d1.toNat ≤ d2.toNat) :
    tradeRoot v0 v1 d2 i k ≤ tradeRoot v0 v1 d1 i k := by
  unfold tradeRoot
  have hnumerator := @tradeNumerator_antitone (tradeDiscriminant v0 k).toNat
    ((one18 - k).toNat * v1.toNat) _ _ (Nat.add_le_add_left (Nat.mul_le_mul_left i.toNat h)
      (k.toNat * v0.toNat / v1.toNat * v0.toNat))
  have hscaled := Nat.mul_le_mul_right one18.toNat hnumerator
  exact Nat.div_le_div_right (by omega)

lemma divCeil_toNat {a b : U256} (hb : 0 < b.toNat)
    (hfits : a.toNat * one18.toNat ≤ b.toNat * (2 ^ 256 - 1)) :
    (divCeil a b).toNat = (a.toNat * one18.toNat + b.toNat - 1) / b.toNat := by
  have hne : b ≠ 0 := fun h0 => hb.ne' (eq_zero_iff.mp h0)
  rw [divCeil, if_neg hne, truncate256, BitVec.toNat_ofNat]
  refine Nat.mod_eq_of_lt ((Nat.div_lt_iff_lt_mul hb).mpr ?_)
  generalize a.toNat * one18.toNat = scaled at hfits ⊢
  omega

/-- The numerator fits once scaled: without a discriminant it is at most twice the distance of the parts,
with one the root fits half a word. -/
lemma quadraticNumerator_fits {part1 part2 root numerator : U256} {c m : ℕ} (hm : 2 ≤ m)
    (hpart1 : part1.toNat * 2 ≤ m * (2 ^ 256 - 1))
    (hroot : root.toNat =
      ((partsDistance part1 part2).toNat * (partsDistance part1 part2).toNat + c).sqrt)
    (hc : c = 0 ∨ root.toNat < 2 ^ 128)
    (h : quadraticNumerator part1 part2 root = some numerator) :
    numerator.toNat * one18.toNat ≤ m * (2 ^ 256 - 1) := by
  set b := (partsDistance part1 part2).toNat with hb
  have hle : b ≤ root.toNat := by
    rw [hroot]
    exact Nat.le_sqrt.mpr (Nat.le_add_right _ _)
  have hone : one18.toNat < 2 ^ 60 := by decide
  have hword : 2 * (2 ^ 256 - 1) ≤ m * (2 ^ 256 - 1) := Nat.mul_le_mul_right _ hm
  -- a numerator below `2 ^ 129` fits whatever the divisor
  have hsmall : numerator.toNat < 2 ^ 129 → numerator.toNat * one18.toNat ≤ m * (2 ^ 256 - 1) := by
    intro hnumerator
    calc numerator.toNat * one18.toNat ≤ 2 ^ 129 * 2 ^ 60 :=
          Nat.mul_le_mul hnumerator.le hone.le
      _ ≤ 2 * (2 ^ 256 - 1) := by norm_num
      _ ≤ m * (2 ^ 256 - 1) := hword
  unfold quadraticNumerator at h
  split_ifs at h with hsign hsmaller
  · have hvalue : numerator.toNat = root.toNat - b := by
      rw [← Option.some.inj h, toNat_sub_of_le]
      exact (not_le.mp fun h0 => hsmaller (le_iff.mpr h0)).le
    rcases hc with rfl | hc
    · rw [Nat.add_zero, Nat.sqrt_eq] at hroot
      exact absurd (le_iff.mpr hroot.le) hsmaller
    · exact hsmall (by omega)
  · have hvalue := checkedAdd_eq_some.mp h
    rcases hc with rfl | hc
    · rw [Nat.add_zero, Nat.sqrt_eq] at hroot
      have hdistance : b * one18.toNat ≤ part1.toNat := by
        rw [hb, partsDistance, if_neg hsign, BitVec.toNat_udiv]
        refine (Nat.div_mul_le_self _ _).trans ?_
        rw [toNat_sub_of_le (not_lt.mp fun hlt => hsign (decide_eq_true (lt_iff.mpr hlt)))]
        exact Nat.sub_le _ _
      calc numerator.toNat * one18.toNat = b * one18.toNat * 2 := by rw [hvalue, hroot]; ring
        _ ≤ part1.toNat * 2 := Nat.mul_le_mul_right _ hdistance
        _ ≤ m * (2 ^ 256 - 1) := hpart1
    · exact hsmall (by omega)

/-- The rounded-up root, from the values the solver binds one after the other. -/
lemma divCeil_eq_tradeRoot {part1 part2 root numerator : U256} (hk : k.toNat < one18.toNat)
    (hfits : k.toNat * v0.toNat / v1.toNat * v0.toNat < 2 ^ 512)
    (hpart2 : quadraticPart2 v0 v1 delta i k = some part2)
    (hpart1 : ofNatChecked ((one18 - k).toNat * v1.toNat) = some part1)
    (hroot : quadraticSquareRoot v0 k (partsDistance part1 part2) = some root)
    (hnumerator : quadraticNumerator part1 part2 root = some numerator) :
    (divCeil numerator ((one18 - k) * 2)).toNat = tradeRoot v0 v1 delta i k := by
  have hrest : (one18 - k).toNat = one18.toNat - k.toNat := toNat_sub_of_le hk.le
  have hone : one18.toNat < 2 ^ 60 := by decide
  have hdouble : ((one18 - k) * 2).toNat = (one18 - k).toNat * 2 :=
    toNat_mul_of_lt (by rw [hrest]; change _ * 2 < _; omega)
  have hpart1Value := ofNatChecked_eq_some.mp hpart1
  have hpart2Value := quadraticPart2_toNat hfits hpart2
  rcases quadraticSquareRoot_toNat hroot with ⟨hrootValue, hhalf⟩
  have htwo : 2 ≤ ((one18 - k) * 2).toNat := by
    rw [hdouble, hrest]
    omega
  have hpart1Fits : part1.toNat * 2 ≤ ((one18 - k) * 2).toNat * (2 ^ 256 - 1) := by
    rw [hdouble, hpart1Value]
    calc (one18 - k).toNat * v1.toNat * 2 = (one18 - k).toNat * 2 * v1.toNat := by ring
      _ ≤ (one18 - k).toNat * 2 * (2 ^ 256 - 1) :=
          Nat.mul_le_mul_left _ (Nat.le_sub_one_of_lt (toNat_lt v1))
  have hscaled := quadraticNumerator_fits htwo hpart1Fits hrootValue hhalf hnumerator
  rw [divCeil_toNat (by omega) hscaled, quadraticNumerator_toNat hrootValue hnumerator, hdouble,
    hpart1Value, hpart2Value, tradeRoot]

/-- The general branch: a nonzero result is `v1` less the root. -/
lemma solve_general (hk0 : k ≠ 0) (hk1 : k ≠ one18)
    (hfits : k.toNat * v0.toNat / v1.toNat * v0.toNat < 2 ^ 512)
    (h : solveQuadraticFunctionForTrade v0 v1 delta i k ≠ 0) :
    tradeRoot v0 v1 delta i k ≤ v1.toNat ∧
      (solveQuadraticFunctionForTrade v0 v1 delta i k).toNat =
        v1.toNat - tradeRoot v0 v1 delta i k := by
  have hguard := solve_guards h
  have hkLt : k.toNat < one18.toNat := by
    have hle : k.toNat ≤ one18.toNat := not_lt.mp fun hlt =>
      hguard (.inr (.inr (.inr (.inr (lt_iff.mpr hlt)))))
    exact lt_of_le_of_ne hle fun heq => hk1 (BitVec.toNat_inj.mp heq)
  rw [solveQuadraticFunctionForTrade, if_neg hguard, if_neg hk0, if_neg hk1] at h ⊢
  dsimp only at h ⊢
  set result := quadraticPart2 v0 v1 delta i k >>= _ with hresult
  cases hvalue : result with
  | none =>
      rw [hvalue] at h
      exact absurd rfl h
  | some out =>
      rw [hvalue, Option.getD_some] at h
      rw [hresult] at hvalue
      rcases Option.bind_eq_some_iff.mp hvalue with ⟨part2, hpart2, hvalue⟩
      rcases Option.bind_eq_some_iff.mp hvalue with ⟨part1, hpart1, hvalue⟩
      rcases Option.bind_eq_some_iff.mp hvalue with ⟨root, hroot, hvalue⟩
      rcases Option.bind_eq_some_iff.mp hvalue with ⟨numerator, hnumerator, hvalue⟩
      have hceil := divCeil_eq_tradeRoot hkLt hfits hpart2 hpart1 hroot hnumerator
      have hout := Option.some.inj hvalue
      rw [Option.getD_some, ← hceil, ← hout]
      split_ifs at hout ⊢ with habove
      · exact absurd hout.symm h
      · have hle : (divCeil numerator ((one18 - k) * 2)).toNat ≤ v1.toNat :=
          not_lt.mp fun hlt => habove (lt_iff.mpr hlt)
        exact ⟨hle, toNat_sub_of_le hle⟩

/-- The wide products of the branch that is taken stay within 512 bits. -/
def TradeProductsFit (v0 v1 delta i k : U256) : Prop :=
  if k = one18 then i.toNat * delta.toNat * v1.toNat < 2 ^ 512
  else k.toNat * v0.toNat / v1.toNat * v0.toNat < 2 ^ 512

/-- Past the linear branch, larger trades get no less, and at most `v1`. -/
lemma solve_ordered (hk0 : k ≠ 0) (h : d1.toNat ≤ d2.toNat)
    (hfits1 : TradeProductsFit v0 v1 d1 i k) (hfits2 : TradeProductsFit v0 v1 d2 i k)
    (h1 : solveQuadraticFunctionForTrade v0 v1 d1 i k ≠ 0)
    (h2 : solveQuadraticFunctionForTrade v0 v1 d2 i k ≠ 0) :
    (solveQuadraticFunctionForTrade v0 v1 d1 i k).toNat ≤
        (solveQuadraticFunctionForTrade v0 v1 d2 i k).toNat ∧
      (solveQuadraticFunctionForTrade v0 v1 d2 i k).toNat ≤ v1.toNat := by
  by_cases hk1 : k = one18
  · rw [TradeProductsFit, if_pos hk1] at hfits1 hfits2
    have hatOne : ∀ d, solveQuadraticFunctionForTrade v0 v1 d i k ≠ 0 →
        solveQuadraticFunctionForTrade v0 v1 d i k = solveQuadraticAtOne v0 v1 d i := by
      intro d hd
      rw [solveQuadraticFunctionForTrade, if_neg (solve_guards hd), if_neg hk0, if_pos hk1]
    have hbranch1 := hatOne d1 h1
    have hbranch2 := hatOne d2 h2
    rw [hbranch1] at h1 ⊢
    rw [hbranch2] at h2 ⊢
    rw [solve_atOne hfits1 h1, solve_atOne hfits2 h2]
    have hone : 0 < one18.toNat := by decide
    constructor
    · refine share_monotone hone (Nat.div_le_div_right ?_)
      exact Nat.mul_le_mul_right _ (Nat.mul_le_mul_left _ h)
    · refine Nat.div_le_of_le_mul ?_
      rw [Nat.mul_comm]
      exact Nat.mul_le_mul_right _ (Nat.le_add_right _ _)
  · rw [TradeProductsFit, if_neg hk1] at hfits1 hfits2
    rw [(solve_general hk0 hk1 hfits1 h1).2, (solve_general hk0 hk1 hfits2 h2).2]
    exact ⟨Nat.sub_le_sub_left (tradeRoot_antitone h) _, Nat.sub_le _ _⟩

end Solver

section Ordered

variable {v0 i k limit : U256}

/-- Trades up to `limit` are ordered: whatever the balance paid from, a larger trade with an output gets no
less than a smaller one, and at most the balance. -/
def TradesOrdered (v0 i k limit : U256) : Prop :=
  ∀ v1 d1 d2 : U256, d1 ≤ d2 → d2 ≤ limit →
    TradeProductsFit v0 v1 d1 i k → TradeProductsFit v0 v1 d2 i k →
    solveQuadraticFunctionForTrade v0 v1 d1 i k ≠ 0 →
    solveQuadraticFunctionForTrade v0 v1 d2 i k ≠ 0 →
      solveQuadraticFunctionForTrade v0 v1 d1 i k ≤ solveQuadraticFunctionForTrade v0 v1 d2 i k ∧
        solveQuadraticFunctionForTrade v0 v1 d2 i k ≤ v1

/-- Below `2 ^ 256` the linear branch keeps its quotient; at it the result is zero. -/
lemma solve_linear_ordered {v1 d1 d2 : U256} (h : d1.toNat ≤ d2.toNat)
    (hlimit : i.toNat * d2.toNat / one18.toNat ≤ 2 ^ 256)
    (h1 : solveQuadraticFunctionForTrade v0 v1 d1 i 0 ≠ 0)
    (h2 : solveQuadraticFunctionForTrade v0 v1 d2 i 0 ≠ 0) :
    (solveQuadraticFunctionForTrade v0 v1 d1 i 0).toNat ≤
        (solveQuadraticFunctionForTrade v0 v1 d2 i 0).toNat ∧
      (solveQuadraticFunctionForTrade v0 v1 d2 i 0).toNat ≤ v1.toNat := by
  have hvalue1 := solve_linear (solve_guards h1)
  have hvalue2 := solve_linear (solve_guards h2)
  have hne2 : (solveQuadraticFunctionForTrade v0 v1 d2 i 0).toNat ≠ 0 :=
    fun h0 => h2 (eq_zero_iff.mpr h0)
  have hquotient : i.toNat * d1.toNat / one18.toNat ≤ i.toNat * d2.toNat / one18.toNat :=
    Nat.div_le_div_right (Nat.mul_le_mul_left _ h)
  have hlt : i.toNat * d2.toNat / one18.toNat < 2 ^ 256 := by
    refine lt_of_le_of_ne hlimit fun heq => hne2 ?_
    rw [hvalue2, heq, Nat.mod_self, Nat.min_zero]
  rw [hvalue1, hvalue2, Nat.mod_eq_of_lt hlt, Nat.mod_eq_of_lt (lt_of_le_of_lt hquotient hlt)]
  exact ⟨min_le_min_left _ hquotient, min_le_left _ _⟩

/-- A limit past the wrap admits two trades in the wrong order. -/
lemma not_tradesOrdered_of_wraps (hv0 : v0 ≠ 0)
    (h : 2 ^ 256 < i.toNat * limit.toNat / one18.toNat) : ¬ TradesOrdered v0 i 0 limit := by
  have hi : 0 < i.toNat := by
    refine Nat.pos_of_ne_zero fun h0 => ?_
    rw [h0, Nat.zero_mul, Nat.zero_div] at h
    exact Nat.not_lt_zero _ h
  rcases exists_wrapped_pair hi (toNat_lt i) (by decide : 4 ≤ one18.toNat) (by norm_num) h with
    ⟨n1, n2, hle, hlimit, hbelow, habove, hgap⟩
  rcases exists_toNat_eq (lt_of_le_of_lt (hle.trans hlimit) (toNat_lt limit)) with ⟨d1, rfl⟩
  rcases exists_toNat_eq (lt_of_le_of_lt hlimit (toNat_lt limit)) with ⟨d2, rfl⟩
  intro hordered
  have hvalue : ∀ d : U256, d.toNat ≠ 0 →
      (solveQuadraticFunctionForTrade v0 maxValue d i 0).toNat =
        i.toNat * d.toNat / one18.toNat % 2 ^ 256 := by
    intro d hd
    rw [solve_linear, toNat_maxValue, min_eq_right]
    · exact Nat.le_sub_one_of_lt (Nat.mod_lt _ (by norm_num))
    · rintro (h0 | h0 | h0 | h0 | h0)
      · exact hv0 h0
      · exact absurd h0 (by decide)
      · exact hd (eq_zero_iff.mp h0)
      · exact hi.ne' (eq_zero_iff.mp h0)
      · exact absurd h0 (by decide)
  have hd1 : d1.toNat ≠ 0 := by
    intro h0
    rw [h0, Nat.mul_zero, Nat.zero_div] at hgap
    omega
  have hvalue1 := hvalue d1 hd1
  have hvalue2 := hvalue d2 (by omega)
  rw [Nat.mod_eq_of_lt hbelow] at hvalue1
  rw [Nat.mod_eq_sub_mod habove.le, Nat.mod_eq_of_lt (by omega)] at hvalue2
  have hfits : ∀ d, TradeProductsFit v0 maxValue d i 0 := by
    intro d
    rw [TradeProductsFit, if_neg (by decide : (0 : U256) ≠ one18),
      show (0 : U256).toNat = 0 from rfl, Nat.zero_mul, Nat.zero_div, Nat.zero_mul]
    exact Nat.pow_pos two_pos
  have hne : ∀ d, (solveQuadraticFunctionForTrade v0 maxValue d i 0).toNat ≠ 0 →
      solveQuadraticFunctionForTrade v0 maxValue d i 0 ≠ 0 :=
    fun d hd h0 => hd (eq_zero_iff.mp h0)
  have hmonotone := (hordered maxValue d1 d2 (le_iff.mpr hle) (le_iff.mpr hlimit) (hfits d1)
    (hfits d2) (hne d1 (by omega)) (hne d2 (by omega))).1
  rw [le_iff, hvalue1, hvalue2] at hmonotone
  omega

/-- The trade solver is ordered and bounded up to a limit if and only if the linear branch does not pass
`2 ^ 256` there; the other branches always are. -/
theorem tradesOrdered_iff (v0 i k limit : U256) :
    TradesOrdered v0 i k limit ↔
      (k = 0 → v0 ≠ 0 → i.toNat * limit.toNat / one18.toNat ≤ 2 ^ 256) := by
  constructor
  · rintro hordered rfl hv0
    exact not_lt.mp fun h => not_tradesOrdered_of_wraps hv0 h hordered
  · intro h v1 d1 d2 hle hlimit hfits1 hfits2 h1 h2
    rw [le_iff, le_iff]
    by_cases hk0 : k = 0
    · subst hk0
      have hquotient : i.toNat * d2.toNat / one18.toNat ≤ i.toNat * limit.toNat / one18.toNat :=
        Nat.div_le_div_right (Nat.mul_le_mul_left _ (le_iff.mp hlimit))
      exact solve_linear_ordered (le_iff.mp hle)
        (hquotient.trans (h rfl fun h0 => solve_guards h1 (.inl h0))) h1 h2
    · exact solve_ordered hk0 (le_iff.mp hle) hfits1 hfits2 h1 h2

/-- At a price of two, half the word range is quoted in full and the next amounts start again from two. -/
theorem tradesOrdered_wraps :
    solveQuadraticFunctionForTrade 1 maxValue (2 ^ 254) 2000000000000000000 0 = 2 ^ 255 ∧
      solveQuadraticFunctionForTrade 1 maxValue (2 ^ 255 + 1) 2000000000000000000 0 = 2 ∧
      ¬ TradesOrdered 1 2000000000000000000 0 (2 ^ 255 + 1) := by
  refine ⟨by decide +kernel, by decide +kernel, ?_⟩
  exact not_tradesOrdered_of_wraps (by decide) (by decide +kernel)

end Ordered

end PolygonArb

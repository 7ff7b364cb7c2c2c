import PolygonArb.Core.Math.TickMath

/-!
# Inverting the tick price

`get_tick_at_sqrt_ratio_in_range` over the whole tick range is the inverse of
`get_sqrt_ratio_at_tick`, rounded down.

* `tickRatioX128_succ` — the accumulators of neighbouring ticks are one part in 25000 apart, up to what
  the twenty products round away.  Neighbouring ticks agree on their high bits, so this is again one
  comparison per row of the table (`tickTable_spaced`).
* `getSqrtRatioAtTick_strictMono` — so far apart, the accumulators are told apart by the final rounding.
* `searchTick_spec` — the search keeps a tick whose price is low enough, and has seen that every tick
  beyond the window is too high.
-/

namespace PolygonArb

open Word

/-! ## Neighbouring ticks -/

/-- Every factor is below the product `acc` of all the factors before it, by almost half a basis point. -/
def FactorsSpaced : U256 → List U256 → Prop
  | _, [] => True
  | acc, factor :: rest =>
      factor.toNat * 25001 ≤ acc.toNat * 25000 ∧ FactorsSpaced (mulShift acc factor) rest

instance decidableFactorsSpaced : ∀ acc fs, Decidable (FactorsSpaced acc fs)
  | _, [] => isTrue trivial
  | acc, factor :: rest =>
      have := decidableFactorsSpaced (mulShift acc factor) rest
      inferInstanceAs (Decidable (_ ∧ _))

lemma tickTable_spaced : FactorsSpaced tickFactor0 tickFactors := by decide

/-- The accumulator of no bits. -/
def q128One : U256 := fromLimbs 0 0 1 0

lemma toNat_q128One : q128One.toNat = x128One := by decide

lemma x128One_pos : 0 < x128One := by
  unfold x128One
  norm_num

/-- A product rounds away less than one. -/
lemma lt_mulShift_add_one {y m : U256} (hy : y.toNat ≤ x128One) (hm : m.toNat < x128One) :
    y.toNat * m.toNat < ((mulShift y m).toNat + 1) * x128One := by
  rw [toNat_mulShift hy hm, Nat.mul_comm _ x128One]
  exact Nat.lt_mul_div_succ _ x128One_pos

/-- The same factors keep two accumulators apart, up to one unit a product. -/
lemma applyTickFactors_apart (fs : List U256) (acc : U256) :
    ∀ (x y : U256) (k n : ℕ), FactorsDominated acc fs → x.toNat ≤ x128One → y.toNat ≤ x128One →
      x.toNat * 25001 ≤ (y.toNat + k) * 25000 →
      (applyTickFactors fs x n).toNat * 25001 ≤
        ((applyTickFactors fs y n).toNat + (k + fs.length)) * 25000 := by
  induction fs generalizing acc with
  | nil =>
      intro x y k n _ _ _ h
      rw [applyTickFactors, applyTickFactors, List.length_nil, Nat.add_zero]
      exact h
  | cons factor rest ih =>
      intro x y k n hfs hx hy h
      rcases hfs with ⟨hfactor, -, hrest⟩
      rw [applyTickFactors, applyTickFactors, List.length_cons, Nat.add_comm rest.length 1, ← Nat.add_assoc k]
      split_ifs with hbit
      · refine ih _ _ _ (k + 1) (n / 2) hrest ((mulShift_le hx hfactor).trans hx)
          ((mulShift_le hy hfactor).trans hy) ?_
        have hround := lt_mulShift_add_one hy hfactor
        have hfloor : (mulShift x factor).toNat * x128One ≤ x.toNat * factor.toNat := by
          rw [toNat_mulShift hx hfactor]
          exact Nat.div_mul_le_self _ _
        apply Nat.le_of_mul_le_mul_right _ x128One_pos
        calc (mulShift x factor).toNat * 25001 * x128One
            = (mulShift x factor).toNat * x128One * 25001 := by ring
          _ ≤ x.toNat * factor.toNat * 25001 := Nat.mul_le_mul_right _ hfloor
          _ = x.toNat * 25001 * factor.toNat := by ring
          _ ≤ (y.toNat + k) * 25000 * factor.toNat := Nat.mul_le_mul_right _ h
          _ = (y.toNat * factor.toNat + k * factor.toNat) * 25000 := by ring
          _ ≤ (((mulShift y factor).toNat + 1) * x128One + k * x128One) * 25000 :=
              Nat.mul_le_mul_right _ (Nat.add_le_add hround.le (Nat.mul_le_mul_left k hfactor.le))
          _ = ((mulShift y factor).toNat + (k + 1)) * 25000 * x128One := by ring
      · exact ih _ _ _ (k + 1) (n / 2) hrest hx hy (h.trans (Nat.mul_le_mul_right _ (by omega)))

/-- The bits of `m` were set so far where those of `m + 1` were clear. -/
lemma applyTickFactors_succ (fs : List U256) :
    ∀ (acc : U256) (m : ℕ), FactorsDominated acc fs → FactorsSpaced acc fs → acc.toNat ≤ x128One →
      m + 1 < 2 ^ fs.length →
      (applyTickFactors fs q128One (m + 1)).toNat * 25001 ≤
        ((applyTickFactors fs acc m).toNat + fs.length) * 25000 := by
  induction fs with
  | nil =>
      intro acc m _ _ _ hm
      simp only [List.length_nil, Nat.pow_zero] at hm
      omega
  | cons factor rest ih =>
      intro acc m hdom hspaced hacc hm
      rcases hdom with ⟨hfactor, -, hdom⟩
      rcases hspaced with ⟨hapart, hspaced⟩
      rw [List.length_cons, Nat.pow_succ] at hm
      rw [applyTickFactors, applyTickFactors, List.length_cons]
      have hone : q128One.toNat ≤ x128One := toNat_q128One.le
      rcases Nat.mod_two_eq_zero_or_one m with heven | hodd
      · -- the lowest bit that differs: clear in `m`, set in `m + 1`
        rw [if_pos (by omega), if_neg (by omega), show (m + 1) / 2 = m / 2 by omega]
        have hcopy : (mulShift q128One factor).toNat = factor.toNat := by
          rw [toNat_mulShift hone hfactor, toNat_q128One]
          exact Nat.mul_div_cancel_left _ x128One_pos
        have hrest := applyTickFactors_apart rest (mulShift acc factor) (mulShift q128One factor) acc 0
          (m / 2) hdom (hcopy ▸ hfactor.le) hacc (by rw [hcopy]; exact hapart)
        exact hrest.trans (Nat.mul_le_mul_right _ (by omega))
      · rw [if_neg (by omega), if_pos (by omega), show (m + 1) / 2 = m / 2 + 1 by omega]
        have hrest := ih (mulShift acc factor) (m / 2) hdom hspaced ((mulShift_le hacc hfactor).trans hacc)
          (by omega)
        exact hrest.trans (Nat.mul_le_mul_right _ (by omega))

/-- The accumulators of neighbouring ticks, up to one unit a product. -/
lemma tickRatioX128_succ {n : ℕ} (hn : n + 1 < 2 ^ 20) :
    (tickRatioX128 (n + 1)).toNat * 25001 ≤ ((tickRatioX128 n).toNat + 19) * 25000 := by
  have hlength : tickFactors.length = 19 := rfl
  have hfactor0 : tickFactor0.toNat ≤ x128One := by decide
  rw [tickRatioX128, tickRatioX128]
  rcases Nat.mod_two_eq_zero_or_one n with heven | hodd
  · rw [if_pos (by omega), if_neg (by omega), show (n + 1) / 2 = n / 2 by omega]
    have h := applyTickFactors_apart tickFactors tickFactor0 tickFactor0 q128One 0 (n / 2)
      tickTable_dominated hfactor0 toNat_q128One.le (by decide)
    rwa [hlength, Nat.zero_add] at h
  · rw [if_neg (by omega), if_pos (by omega), show (n + 1) / 2 = n / 2 + 1 by omega]
    have h := applyTickFactors_succ tickFactors tickFactor0 (n / 2) tickTable_dominated tickTable_spaced
      hfactor0 (by rw [hlength]; omega)
    rwa [hlength] at h

/-- No accumulator of a tick is small. -/
lemma le_tickRatioX128 {n : ℕ} (hn : n < 2 ^ 20) : 2 ^ 52 ≤ (tickRatioX128 n).toNat := by
  have hinit : ∀ b : Prop, [Decidable b] →
      tickFactor0.toNat ≤ (if b then tickFactor0 else q128One).toNat ∧
      (if b then tickFactor0 else q128One).toNat ≤ x128One := by
    intro b _
    split_ifs
    · exact ⟨le_rfl, by decide⟩
    · exact ⟨by decide, by decide⟩
  have hall : 2 ^ 52 ≤ (allFactors tickFactor0 tickFactors).toNat := by decide
  refine hall.trans ?_
  have h := applyTickFactors_antitone tickFactors tickFactor0
    (if n % 2 ≠ 0 then tickFactor0 else q128One) (if n % 2 ≠ 0 then tickFactor0 else q128One) (n / 2)
    (n / 2) tickTable_dominated (by simp only [tickFactors, List.length_cons, List.length_nil]; omega)
    (hinit _).2 (hinit _).2 (hinit _).1 (hinit _).1 (.inl ⟨rfl, le_rfl⟩)
  exact h.2.1

/-! ## Prices are strictly increasing -/

/-- Rounding up to Q96 tells accumulators apart that differ by a unit of the result. -/
lemma roundUpToX96_lt {a b : U256} (h : a.toNat + 2 ^ 32 ≤ b.toNat) :
    (roundUpToX96 a).toNat < (roundUpToX96 b).toNat := by
  rw [toNat_roundUpToX96, toNat_roundUpToX96, Nat.ceilDiv_eq_add_pred_div, Nat.ceilDiv_eq_add_pred_div]
  omega

/-- The inverted accumulators of neighbouring ticks. -/
lemma div_tickRatioX128_succ {n : ℕ} (hn : n + 1 < 2 ^ 20) :
    (2 ^ 256 - 1) / (tickRatioX128 n).toNat + 2 ^ 32 ≤
      (2 ^ 256 - 1) / (tickRatioX128 (n + 1)).toNat := by
  have hspaced := tickRatioX128_succ hn
  have hlow := le_tickRatioX128 (n := n) (by omega)
  have hlow' := le_tickRatioX128 hn
  have hhigh := (tickRatioX128_antitone (m := n) (n := n) le_rfl (by omega)).2.2
  unfold x128One at hhigh
  generalize (tickRatioX128 n).toNat = r at *
  generalize (tickRatioX128 (n + 1)).toNat = r' at *
  rw [Nat.le_div_iff_mul_le (by omega)]
  set q := (2 ^ 256 - 1) / r with hq
  have hqr : q * r ≤ 2 ^ 256 - 1 := Nat.div_mul_le_self _ _
  have hqle : q ≤ 2 ^ 204 := by
    rw [hq]
    exact (Nat.div_le_div_left hlow (by norm_num)).trans (by norm_num)
  apply Nat.le_of_mul_le_mul_right _ (by norm_num : 0 < 25001)
  calc (q + 2 ^ 32) * r' * 25001 = (q + 2 ^ 32) * (r' * 25001) := by ring
    _ ≤ (q + 2 ^ 32) * ((r + 19) * 25000) := Nat.mul_le_mul_left _ hspaced
    _ = (q * r + 19 * q + 2 ^ 32 * r + 19 * 2 ^ 32) * 25000 := by ring
    _ ≤ (2 ^ 256 - 1 + 19 * 2 ^ 204 + 2 ^ 32 * 2 ^ 128 + 19 * 2 ^ 32) * 25000 := by
        refine Nat.mul_le_mul_right _ ?_
        omega
    _ ≤ (2 ^ 256 - 1) * 25001 := by norm_num

lemma exists_sqrtRatio {t : ℤ} (h : minTick ≤ t) (h' : t ≤ maxTick) :
    ∃ p, getSqrtRatioAtTick t = some p :=
  ⟨_, getSqrtRatioAtTick_eq_some.mpr ⟨⟨h, h'⟩, rfl⟩⟩

/-- A tick and the next one. -/
lemma getSqrtRatioAtTick_lt_succ {s : ℤ} {p q : U256} (hp : getSqrtRatioAtTick s = some p)
    (hq : getSqrtRatioAtTick (s + 1) = some q) : p.toNat < q.toNat := by
  rcases getSqrtRatioAtTick_eq_some.mp hp with ⟨⟨hlow, -⟩, rfl⟩
  rcases getSqrtRatioAtTick_eq_some.mp hq with ⟨⟨-, hhigh⟩, rfl⟩
  unfold minTick at hlow
  unfold maxTick at hhigh
  have hdiv : ∀ u : ℕ, (maxValue / tickRatioX128 u).toNat = (2 ^ 256 - 1) / (tickRatioX128 u).toNat := by
    intro u
    rw [BitVec.toNat_udiv, toNat_maxValue]
  rcases lt_trichotomy s 0 with hneg | hzero | hpos
  · rw [if_neg (by omega), if_neg (by omega), show s.natAbs = (s + 1).natAbs + 1 by omega]
    refine roundUpToX96_lt ?_
    have hspaced := tickRatioX128_succ (n := (s + 1).natAbs) (by omega)
    have hlow' := le_tickRatioX128 (n := (s + 1).natAbs + 1) (by omega)
    omega
  · subst hzero
    decide
  · rw [if_pos hpos, if_pos (by omega), show (s + 1).natAbs = s.natAbs + 1 by omega]
    refine roundUpToX96_lt ?_
    rw [hdiv, hdiv]
    exact div_tickRatioX128_succ (by omega)

/-- A higher tick has a higher price. -/
theorem getSqrtRatioAtTick_strictMono {s t : ℤ} {p q : U256} (hst : s < t)
    (hp : getSqrtRatioAtTick s = some p) (hq : getSqrtRatioAtTick t = some q) : p.toNat < q.toNat := by
  have hs := (getSqrtRatioAtTick_eq_some.mp hp).1
  have ht := (getSqrtRatioAtTick_eq_some.mp hq).1
  rcases exists_sqrtRatio (t := s + 1) (by omega) (by omega) with ⟨next, hnext⟩
  exact (getSqrtRatioAtTick_lt_succ hp hnext).trans_le (getSqrtRatioAtTick_mono (by omega) hnext hq)

/-! ## The search -/

/-- The price of the tick is at most `p`. -/
def PricedAtMost (p : U256) (t : ℤ) : Prop := ∃ a, getSqrtRatioAtTick t = some a ∧ a ≤ p

/-- The search ends at the last tick of its window that is priced low enough. -/
lemma searchTick_spec (p : U256) :
    ∀ (fuel : ℕ) (low high answer : ℤ), (high + 1 - low).toNat ≤ fuel → minTick ≤ low → high ≤ maxTick →
      low ≤ answer + 1 → PricedAtMost p answer → (∀ u, high < u → ¬ PricedAtMost p u) →
      ∃ t, searchTick p fuel low high answer = some t ∧ PricedAtMost p t ∧
        ∀ u, t < u → ¬ PricedAtMost p u := by
  have hdone : ∀ {low high answer : ℤ}, ¬ low ≤ high → low ≤ answer + 1 →
      (∀ u, high < u → ¬ PricedAtMost p u) → ∀ u, answer < u → ¬ PricedAtMost p u :=
    fun hempty hanswer habove u hu => habove u (by omega)
  intro fuel
  induction fuel with
  | zero =>
      intro low high answer hfuel _ _ hanswer hpriced habove
      exact ⟨answer, rfl, hpriced, hdone (by omega) hanswer habove⟩
  | succ fuel ih =>
      intro low high answer hfuel hlow hhigh hanswer hpriced habove
      rw [searchTick]
      by_cases hwindow : low ≤ high
      swap
      · rw [if_neg hwindow]
        exact ⟨answer, rfl, hpriced, hdone hwindow hanswer habove⟩
      rw [if_pos hwindow]
      have hmid := midpoint_mem hwindow
      generalize (low + high).tdiv 2 = mid at hmid ⊢
      rcases exists_sqrtRatio (t := mid) (by omega) (by omega) with ⟨ratio, hratio⟩
      simp only [hratio]
      by_cases hle : ratio ≤ p
      · rw [if_pos hle]
        exact ih (mid + 1) high mid (by omega) (by omega) hhigh le_rfl ⟨ratio, hratio, hle⟩ habove
      · rw [if_neg hle]
        refine ih low (mid - 1) answer (by omega) hlow (by omega) hanswer hpriced fun u hu => ?_
        rintro ⟨a, ha, hap⟩
        refine hle (le_iff.mpr (le_trans ?_ (le_iff.mp hap)))
        exact getSqrtRatioAtTick_mono (by omega) hratio ha

/-- `p` lies between the price of the tick and that of the next one. -/
def IsFloorTick (p : U256) (t : ℤ) : Prop :=
  ∃ a b, getSqrtRatioAtTick t = some a ∧ getSqrtRatioAtTick (t + 1) = some b ∧ a ≤ p ∧ p < b

lemma IsFloorTick.unique {p : U256} {t u : ℤ} (ht : IsFloorTick p t) (hu : IsFloorTick p u) : t = u := by
  have hle : ∀ {t u : ℤ}, IsFloorTick p t → IsFloorTick p u → t ≤ u := by
    rintro t u ⟨a, -, ha, -, hap, -⟩ ⟨-, b, -, hb, -, hpb⟩
    by_contra hlt
    have hba := getSqrtRatioAtTick_mono (by omega : u + 1 ≤ t) hb ha
    rw [le_iff] at hap
    rw [lt_iff] at hpb
    omega
  exact le_antisymm (hle ht hu) (hle hu ht)

lemma getTickAtSqrtRatio_full {p : U256} (hlow : minSqrtRatio ≤ p) (hhigh : p < maxSqrtRatio) :
    ∃ t, getTickAtSqrtRatioInRange p minTick maxTick = some t ∧ IsFloorTick p t := by
  have hin : ¬ (p < minSqrtRatio ∨ maxSqrtRatio ≤ p) := by
    rintro (h | h)
    · exact absurd (le_iff.mp hlow) (not_le.mpr (lt_iff.mp h))
    · exact absurd (lt_iff.mp hhigh) (not_lt.mpr (le_iff.mp h))
  have hbounds : normalizeTickSearchBounds minTick maxTick = (minTick, maxTick) := by decide
  rw [getTickAtSqrtRatioInRange, if_neg hin, hbounds]
  have hbeyond : ∀ u, maxTick < u → ¬ PricedAtMost p u := by
    rintro u hu ⟨a, ha, -⟩
    have hmem := (getSqrtRatioAtTick_eq_some.mp ha).1
    omega
  rcases searchTick_spec p _ minTick maxTick minTick le_rfl le_rfl le_rfl (by omega)
    ⟨minSqrtRatio, getSqrtRatioAtTick_minTick, hlow⟩ hbeyond with ⟨t, ht, ⟨a, ha, hap⟩, habove⟩
  refine ⟨t, ht, ?_⟩
  have hmem := (getSqrtRatioAtTick_eq_some.mp ha).1
  have hlast : t ≠ maxTick := by
    rintro rfl
    rw [getSqrtRatioAtTick_maxTick] at ha
    cases ha
    exact absurd (lt_iff.mp hhigh) (not_lt.mpr (le_iff.mp hap))
  rcases exists_sqrtRatio (t := t + 1) (by omega) (by omega) with ⟨b, hb⟩
  refine ⟨a, b, ha, hb, hap, ?_⟩
  rw [lt_iff, ← not_le, ← le_iff]
  exact fun hbp => habove (t + 1) (by omega) ⟨b, hb, hbp⟩

/-- Prices are strictly increasing over the tick range, and the search over the whole range inverts
them: it finds the one tick that the price has reached without reaching the next. -/
theorem tickMath_inverse :
    (∀ s t, minTick ≤ s → s < t → t ≤ maxTick →
      ∃ a b, getSqrtRatioAtTick s = some a ∧ getSqrtRatioAtTick t = some b ∧ a < b) ∧
    ∀ p, minSqrtRatio ≤ p → p < maxSqrtRatio →
      ∃ t, getTickAtSqrtRatioInRange p minTick maxTick = some t ∧ IsFloorTick p t ∧
        ∀ u, IsFloorTick p u → u = t := by
  constructor
  · intro s t hs hst ht
    rcases exists_sqrtRatio hs (by omega) with ⟨a, ha⟩
    rcases exists_sqrtRatio (by omega) ht with ⟨b, hb⟩
    exact ⟨a, b, ha, hb, lt_iff.mpr (getSqrtRatioAtTick_strictMono hst ha hb)⟩
  · intro p hlow hhigh
    rcases getTickAtSqrtRatio_full hlow hhigh with ⟨t, ht, hfloor⟩
    exact ⟨t, ht, hfloor, fun u hu => hu.unique hfloor⟩

/-- The price of tick 60 and the tick before it, and a price in between. -/
theorem tickMath_inverse_sixty :
    (∃ a b, getSqrtRatioAtTick 59 = some a ∧ getSqrtRatioAtTick 60 = some b ∧ a < b) ∧
      ∃ t, getTickAtSqrtRatioInRange 79465000000000000000000000000#256 minTick maxTick = some t ∧
        IsFloorTick 79465000000000000000000000000#256 t ∧
          ∀ u, IsFloorTick 79465000000000000000000000000#256 u → u = t :=
  ⟨tickMath_inverse.1 59 60 (by decide) (by decide) (by decide),
    tickMath_inverse.2 _ (by decide) (by decide)⟩

end PolygonArb

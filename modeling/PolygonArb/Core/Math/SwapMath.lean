import PolygonArb.Core.Math.SqrtPriceMath

/-!
# One step of a concentrated-liquidity swap

`core/math/swap_math.rs`: move the price from `sqrtRatioCurrentX96` toward a target at constant
liquidity, spending at most `amountRemaining`.  A step either reaches the target or spends
everything it was given; `computeSwapStep_mono` compares the steps two inputs make from the same
price.
-/

namespace PolygonArb

open Word

/-- One hundred percent in pips. -/
def feePipsScale : U256 := 1000000#256

structure SwapStepResult where
  sqrtRatioNextX96 : U256
  amountIn : U256
  amountOut : U256
  feeAmount : U256
  deriving DecidableEq

def computeSwapStep (sqrtRatioCurrentX96 sqrtRatioTargetX96 liquidity amountRemaining
    feePips : U256) : Option SwapStepResult := do
  let zeroForOne := sqrtRatioTargetX96 ≤ sqrtRatioCurrentX96
  let amountRemainingLessFee ← mulDiv amountRemaining (feePipsScale - feePips) feePipsScale
  let amountIn ←
    (if zeroForOne then getAmount0Delta sqrtRatioTargetX96 sqrtRatioCurrentX96 liquidity true
      else getAmount1Delta sqrtRatioCurrentX96 sqrtRatioTargetX96 liquidity true)
  let sqrtRatioNextX96 ←
    (if amountIn ≤ amountRemainingLessFee then some sqrtRatioTargetX96
      else getNextSqrtPriceFromInput sqrtRatioCurrentX96 liquidity amountRemainingLessFee
        zeroForOne)
  let targetReached := sqrtRatioTargetX96 = sqrtRatioNextX96
  let actualIn ←
    (if targetReached then some amountIn
      else if zeroForOne then getAmount0Delta sqrtRatioNextX96 sqrtRatioCurrentX96 liquidity true
      else getAmount1Delta sqrtRatioCurrentX96 sqrtRatioNextX96 liquidity true)
  let actualOut ←
    (if zeroForOne then getAmount1Delta sqrtRatioNextX96 sqrtRatioCurrentX96 liquidity false
      else getAmount0Delta sqrtRatioCurrentX96 sqrtRatioNextX96 liquidity false)
  let feeAmount ←
    (if targetReached then mulDivRoundingUp actualIn feePips (feePipsScale - feePips)
      -- rounding can make `actualIn` exceed what remains
      else some (saturatingSub amountRemaining actualIn))
  some ⟨sqrtRatioNextX96, actualIn, actualOut, feeAmount⟩

/-! ## The two kinds of step -/

/-- The input left after the fee, as a natural. -/
def lessFee (feePips r : U256) : ℕ := r.toNat * (1000000 - feePips.toNat) / 1000000

/-- The input that reaches the target. -/
def stepAmountIn (p t l : U256) : ℕ :=
  if t.toNat ≤ p.toNat then amount0Ceil l t p else amount1Ceil l p t

/-- The output of moving from `p` to `q`, downward or upward. -/
def stepAmountOut (down : Bool) (p q l : U256) : ℕ :=
  if down then amount1Floor l q p else amount0Floor l p q

/-- The price an input `a` short of the target stops at. -/
def stepPrice (down : Bool) (p l : U256) (a : ℕ) : ℕ :=
  if down then nextPrice0 (numerator l) p.toNat a else p.toNat + a * 2 ^ 96 / l.toNat

variable {p t l fee r : U256}

lemma toNat_feePipsScale : feePipsScale.toNat = 1000000 := by rfl

lemma toNat_feePipsScale_sub (hfee : fee.toNat < 1000000) :
    (feePipsScale - fee).toNat = 1000000 - fee.toNat := by
  rw [toNat_sub_of_le (by rw [toNat_feePipsScale]; exact hfee.le), toNat_feePipsScale]

lemma lessFee_mono {r' : U256} (h : r.toNat ≤ r'.toNat) : lessFee fee r ≤ lessFee fee r' :=
  Nat.div_le_div_right (Nat.mul_le_mul_right _ h)

/-- The fee split succeeds exactly when something is left after the fee. -/
lemma mulDiv_lessFee (hfee : fee.toNat < 1000000) (hr : r ≠ 0) {c : U256} :
    mulDiv r (feePipsScale - fee) feePipsScale = some c ↔
      c.toNat = lessFee fee r ∧ 0 < c.toNat := by
  have hscale : feePipsScale ≠ 0 := by decide
  have hsub : feePipsScale - fee ≠ 0 := fun h => by
    have := toNat_feePipsScale_sub hfee
    rw [h] at this
    simp only [BitVec.ofNat_eq_ofNat, BitVec.toNat_ofNat] at this
    omega
  rw [mulDiv_eq_some, toNat_feePipsScale_sub hfee, toNat_feePipsScale, eq_zero_iff]
  unfold lessFee
  constructor
  · rintro ⟨-, hc, h0⟩
    exact ⟨hc, Nat.pos_of_ne_zero fun h => h0 ⟨h, hr, hsub⟩⟩
  · rintro ⟨hc, h0⟩
    exact ⟨hscale, hc, fun h => h0.ne' h.1⟩

lemma exists_lessFee (hfee : fee.toNat < 1000000) (hr : r ≠ 0) (h : 0 < lessFee fee r) :
    ∃ c, mulDiv r (feePipsScale - fee) feePipsScale = some c ∧ c.toNat = lessFee fee r := by
  have hle : lessFee fee r ≤ r.toNat := by
    apply Nat.div_le_of_le_mul
    rw [Nat.mul_comm]
    exact Nat.mul_le_mul_right _ (Nat.sub_le _ _)
  obtain ⟨c, hc⟩ := exists_toNat_eq (hle.trans_lt (toNat_lt r))
  exact ⟨c, (mulDiv_lessFee hfee hr).mpr ⟨hc, by rw [hc]; exact h⟩, hc⟩

/-- A longer move in the same direction gives at least as much. -/
lemma stepAmountOut_mono {down : Bool} {q q' : U256} (hp : InRange p)
    (h : if down then q'.toNat ≤ q.toNat else p.toNat ≤ q.toNat ∧ q.toNat ≤ q'.toNat) :
    stepAmountOut down p q l ≤ stepAmountOut down p q' l := by
  cases down with
  | true => exact amount1Floor_anti h
  | false => exact amount0Floor_mono hp h.1 h.2

/-- The fee of a reached step fits a word. -/
lemma exists_stepFee {a : U256} (hfee : fee.toNat < 1000000) (ha : a.toNat < 2 ^ 225) :
    ∃ c, mulDivRoundingUp a fee (feePipsScale - fee) = some c := by
  have hsub := toNat_feePipsScale_sub hfee
  have hne : feePipsScale - fee ≠ 0 := fun h => by
    rw [eq_zero_iff.mp h] at hsub
    omega
  have hprod : a.toNat * fee.toNat < 2 ^ 225 * 1000000 :=
    Nat.mul_lt_mul_of_lt_of_le ha hfee.le (by norm_num)
  have hfit : (a.toNat * fee.toNat) ⌈/⌉ (feePipsScale - fee).toNat < 2 ^ 256 := by
    have hle : (a.toNat * fee.toNat) ⌈/⌉ (feePipsScale - fee).toNat ≤ a.toNat * fee.toNat := by
      rw [ceilDiv_le_iff_le_mul (by omega)]
      exact Nat.le_mul_of_pos_left _ (by omega)
    omega
  obtain ⟨c, hc, -⟩ := exists_mulDivCeil hne hfit
  exact ⟨c, by rw [mulDivRoundingUp_eq_mulDivCeil, hc]⟩

/-- The amount that reaches the target, as the step computes it. -/
lemma exists_stepAmountIn (hl : LiquidityInRange l) (hp : InRange p) (ht : InRange t) :
    ∃ c : U256, (if t ≤ p then getAmount0Delta t p l true else getAmount1Delta p t l true) = some c ∧
      c.toNat = stepAmountIn p t l ∧ c.toNat < 2 ^ 225 := by
  simp only [stepAmountIn, le_iff]
  split_ifs with h
  · obtain ⟨c, hc, hcv⟩ := getAmount0Delta_up hl ht hp h
    have := amount0Ceil_le (l := l) ht.1 hp.1
    have := numerator_lt hl
    exact ⟨c, hc, hcv, by omega⟩
  · obtain ⟨c, hc, hcv⟩ := getAmount1Delta_up hl ht (not_le.mp h).le
    have := amount1Ceil_lt hl p ht
    exact ⟨c, hc, hcv, by omega⟩

/-- The output of a move that stays on the target's side, as the step computes it. -/
lemma exists_stepAmountOut {q : U256} (hl : LiquidityInRange l) (hp : InRange p) (hq : InRange q)
    (h : if t ≤ p then q.toNat ≤ p.toNat else p.toNat ≤ q.toNat) :
    ∃ c : U256, (if t ≤ p then getAmount1Delta q p l false else getAmount0Delta p q l false) = some c ∧
      c.toNat = stepAmountOut (t ≤ p) p q l := by
  simp only [stepAmountOut, decide_eq_true_eq]
  split_ifs at h ⊢ with hd
  · exact getAmount1Delta_down hl hp h
  · exact getAmount0Delta_down hl hp hq h

/-- With enough left after the fee the step reaches the target, and what it costs and gives does
not depend on how much was left. -/
theorem computeSwapStep_reached (hl : LiquidityInRange l) (hp : InRange p) (ht : InRange t)
    (hfee : fee.toNat < 1000000) :
    ∃ st : SwapStepResult, st.sqrtRatioNextX96 = t ∧
      st.amountOut.toNat = stepAmountOut (t ≤ p) p t l ∧
      ∀ r : U256, r ≠ 0 → 0 < lessFee fee r → stepAmountIn p t l ≤ lessFee fee r →
        computeSwapStep p t l r fee = some st := by
  obtain ⟨a, ha, hav, hlt⟩ := exists_stepAmountIn hl hp ht
  obtain ⟨o, ho, hov⟩ := exists_stepAmountOut (t := t) (q := t) hl hp ht
    (by split_ifs with h <;> rw [le_iff] at h <;> omega)
  obtain ⟨f, hf⟩ := exists_stepFee hfee hlt
  refine ⟨⟨t, a, o, f⟩, rfl, hov, ?_⟩
  intro r hr hpos hreach
  obtain ⟨c, hc, hcv⟩ := exists_lessFee hfee hr hpos
  have hle : a ≤ c := by rw [le_iff]; omega
  simp only [computeSwapStep, Option.bind_eq_bind]
  rw [hc, Option.bind_some, ha, Option.bind_some, if_pos hle, Option.bind_some, if_pos rfl,
    Option.bind_some, ho, Option.bind_some, if_pos rfl, hf, Option.bind_some]

/-- With too little left the step stops strictly short of the target and spends everything. -/
theorem computeSwapStep_short (hl : LiquidityInRange l) (hp : InRange p) (ht : InRange t)
    (hfee : fee.toNat < 1000000) (hr : r ≠ 0) (hpos : 0 < lessFee fee r)
    (hshort : lessFee fee r < stepAmountIn p t l) :
    ∃ st : SwapStepResult, computeSwapStep p t l r fee = some st ∧
      st.sqrtRatioNextX96.toNat = stepPrice (t ≤ p) p l (lessFee fee r) ∧
      (if t ≤ p then t.toNat < st.sqrtRatioNextX96.toNat ∧ st.sqrtRatioNextX96.toNat ≤ p.toNat
        else p.toNat ≤ st.sqrtRatioNextX96.toNat ∧ st.sqrtRatioNextX96.toNat < t.toNat) ∧
      st.amountOut.toNat = stepAmountOut (t ≤ p) p st.sqrtRatioNextX96 l ∧
      r.toNat ≤ st.amountIn.toNat + st.feeAmount.toNat := by
  obtain ⟨a, ha, hav, -⟩ := exists_stepAmountIn hl hp ht
  obtain ⟨c, hc, hcv⟩ := exists_lessFee hfee hr hpos
  have hnle : ¬ a ≤ c := by rw [le_iff]; omega
  obtain ⟨q, hq, hqv, hqb⟩ : ∃ q, getNextSqrtPriceFromInput p l c (t ≤ p) = some q ∧
      q.toNat = stepPrice (t ≤ p) p l (lessFee fee r) ∧
      (if t ≤ p then t.toNat < q.toNat ∧ q.toNat ≤ p.toNat
        else p.toNat ≤ q.toNat ∧ q.toNat < t.toNat) := by
    rw [← hcv] at hshort hpos ⊢
    simp only [stepAmountIn, ← le_iff] at hshort
    by_cases hd : t ≤ p
    · rw [if_pos hd] at hshort
      simp only [hd, decide_true, if_true, stepPrice]
      rw [le_iff] at hd
      obtain ⟨q, hq, hqv⟩ := getNextSqrtPriceFromInput_zeroForOne hl hp ht hd hpos hshort
      refine ⟨q, hq, hqv, ?_, ?_⟩
      · rw [hqv]
        exact lt_nextPrice0 hpos hd ((lt_amount0Ceil_iff ht.1 hp.1).mp hshort)
      · rw [hqv]
        exact nextPrice0_le (numerator_pos hl) hp.1 hpos
    · rw [if_neg hd] at hshort
      simp only [hd, decide_false, if_false, stepPrice, Bool.false_eq_true]
      rw [le_iff] at hd
      obtain ⟨q, hq, hqv, hlt⟩ := getNextSqrtPriceFromInput_oneForZero hl hp (by omega) hshort
      exact ⟨q, hq, hqv, by rw [hqv]; exact Nat.le_add_right _ _, hlt⟩
  have hqr : InRange q := by
    have := hp.1; have := hp.2; have := ht.1; have := ht.2
    split_ifs at hqb <;> exact ⟨by omega, by omega⟩
  have hne : ¬ t = q := by
    rintro rfl
    split_ifs at hqb <;> omega
  have hside : if t ≤ p then q.toNat ≤ p.toNat else p.toNat ≤ q.toNat := by
    split_ifs at hqb ⊢
    · exact hqb.2
    · exact hqb.1
  obtain ⟨o, ho, hov⟩ := exists_stepAmountOut hl hp hqr hside
  obtain ⟨i, hi⟩ : ∃ i, (if t ≤ p then getAmount0Delta q p l true
      else getAmount1Delta p q l true) = some i := by
    split_ifs at hside ⊢
    · obtain ⟨i, hi, -⟩ := getAmount0Delta_up hl hqr hp hside
      exact ⟨i, hi⟩
    · obtain ⟨i, hi, -⟩ := getAmount1Delta_up hl hqr hside
      exact ⟨i, hi⟩
  refine ⟨⟨q, i, o, saturatingSub r i⟩, ?_, hqv, hqb, hov, ?_⟩
  · simp only [computeSwapStep, Option.bind_eq_bind]
    rw [hc, Option.bind_some, ha, Option.bind_some, if_neg hnle, hq, Option.bind_some, if_neg hne,
      hi, Option.bind_some, ho, Option.bind_some, if_neg hne, Option.bind_some]
  · simp only [toNat_saturatingSub]
    omega

/-- More input stops at least as far from `p`. -/
lemma stepPrice_mono (down : Bool) {a b : ℕ} (hl : LiquidityInRange l) (hp : InRange p) (ha : 0 < a)
    (hab : a ≤ b) :
    if down then stepPrice down p l b ≤ stepPrice down p l a
      else stepPrice down p l a ≤ stepPrice down p l b := by
  cases down with
  | true =>
      simp only [stepPrice, if_true]
      exact nextPrice0_antitone (numerator_pos hl) hp.1 ha hab
  | false =>
      simp only [stepPrice, Bool.false_eq_true, if_false]
      exact Nat.add_le_add_left (Nat.div_le_div_right (Nat.mul_le_mul_right _ hab)) _

/-- `q` lies on the way from `p` to `t`. -/
def OnTheWay (p q t : U256) : Prop :=
  if t ≤ p then t.toNat ≤ q.toNat ∧ q.toNat ≤ p.toNat else p.toNat ≤ q.toNat ∧ q.toNat ≤ t.toNat

lemma lessFee_pos (hfee : fee.toNat < 1000000) (hr : r ≠ 0) {st : SwapStepResult}
    (h : computeSwapStep p t l r fee = some st) : 0 < lessFee fee r := by
  rw [computeSwapStep, Option.bind_eq_bind, Option.bind_eq_some_iff] at h
  obtain ⟨c, hc, -⟩ := h
  obtain ⟨hcv, hc0⟩ := (mulDiv_lessFee hfee hr).mp hc
  omega

/-- A step never passes its target and never moves away from it. -/
theorem computeSwapStep_onTheWay (hl : LiquidityInRange l) (hp : InRange p) (ht : InRange t)
    (hfee : fee.toNat < 1000000) (hr : r ≠ 0) {st : SwapStepResult}
    (h : computeSwapStep p t l r fee = some st) : OnTheWay p st.sqrtRatioNextX96 t := by
  have hpos := lessFee_pos hfee hr h
  rcases Nat.lt_or_ge (lessFee fee r) (stepAmountIn p t l) with hshort | hreach
  · obtain ⟨st', h', -, hb, -⟩ := computeSwapStep_short hl hp ht hfee hr hpos hshort
    obtain rfl := Option.some.inj (h.symm.trans h')
    simp only [OnTheWay]
    split_ifs at hb ⊢
    · exact ⟨hb.1.le, hb.2⟩
    · exact ⟨hb.1, hb.2.le⟩
  · obtain ⟨st', hnext, -, hall⟩ := computeSwapStep_reached hl hp ht hfee
    obtain rfl := Option.some.inj (h.symm.trans (hall r hr hpos hreach))
    simp only [OnTheWay, hnext]
    split_ifs with hd <;> rw [le_iff] at hd <;> omega

/-- The steps of two inputs from the same price.  Either both reach the target, in the same way,
or the smaller one spends everything and the larger one gets at least as much, at least as far. -/
theorem computeSwapStep_mono {r' : U256} (hl : LiquidityInRange l) (hp : InRange p)
    (ht : InRange t) (hfee : fee.toNat < 1000000) (hr : r ≠ 0) (hle : r.toNat ≤ r'.toNat)
    {st : SwapStepResult} (h : computeSwapStep p t l r fee = some st) :
    ∃ st', computeSwapStep p t l r' fee = some st' ∧
      (st' = st ∨
        (r.toNat ≤ st.amountIn.toNat + st.feeAmount.toNat ∧
          st.amountOut.toNat ≤ st'.amountOut.toNat ∧
          if t ≤ p then st'.sqrtRatioNextX96.toNat ≤ st.sqrtRatioNextX96.toNat
            else st.sqrtRatioNextX96.toNat ≤ st'.sqrtRatioNextX96.toNat)) := by
  have hpos := lessFee_pos hfee hr h
  have hless : lessFee fee r ≤ lessFee fee r' := lessFee_mono hle
  have hr' : r' ≠ 0 := fun h0 => by
    rw [eq_zero_iff.mp h0] at hle
    exact hr (eq_zero_iff.mpr (Nat.le_zero.mp hle))
  obtain ⟨full, hnext, hout, hall⟩ := computeSwapStep_reached hl hp ht hfee
  rcases Nat.lt_or_ge (lessFee fee r) (stepAmountIn p t l) with hshort | hreach
  · obtain ⟨st₁, h₁, hq, hb, ho, hspent⟩ := computeSwapStep_short hl hp ht hfee hr hpos hshort
    obtain rfl := Option.some.inj (h.symm.trans h₁)
    rcases Nat.lt_or_ge (lessFee fee r') (stepAmountIn p t l) with hshort' | hreach'
    · -- both stop inside the step
      obtain ⟨st', h', hq', hb', ho', -⟩ :=
        computeSwapStep_short hl hp ht hfee hr' (hpos.trans_le hless) hshort'
      have hmono := stepPrice_mono (decide (t ≤ p)) hl hp hpos hless
      rw [← hq, ← hq'] at hmono
      simp only [decide_eq_true_eq] at hmono
      refine ⟨st', h', Or.inr ⟨hspent, ?_, hmono⟩⟩
      rw [ho, ho']
      apply stepAmountOut_mono hp
      simp only [decide_eq_true_eq]
      split_ifs at hmono hb ⊢
      · exact hmono
      · exact ⟨hb.1, hmono⟩
    · -- the larger input reaches the target
      refine ⟨full, hall r' hr' (hpos.trans_le hless) hreach', Or.inr ⟨hspent, ?_, ?_⟩⟩
      · rw [ho, hout]
        apply stepAmountOut_mono hp
        simp only [decide_eq_true_eq]
        split_ifs at hb ⊢
        · exact hb.1.le
        · exact ⟨hb.1, hb.2.le⟩
      · rw [hnext]
        split_ifs at hb ⊢
        · exact hb.1.le
        · exact hb.2.le
  · obtain rfl := Option.some.inj (h.symm.trans (hall r hr hpos hreach))
    exact ⟨st, hall r' hr' (hpos.trans_le hless) (hreach.trans hless), Or.inl rfl⟩

end PolygonArb

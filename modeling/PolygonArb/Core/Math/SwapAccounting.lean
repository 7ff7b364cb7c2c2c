import PolygonArb.Core.Math.SwapMath

/-!
# What one step spends and pays

`computeSwapStep` rounds the fee split down, the input up, the price toward the start and the output
down.  The bounds of `SwapMath` are about prices a pool can have; here the prices are any nonzero words,
and a step that succeeds is taken apart.

* `getAmount0Delta_eq_some`, `getAmount1Delta_eq_some`, `nextPrice_eq_some`: what the word functions
  have computed when they have not failed.
* `amount0Ceil_nextPrice0_le`, `amount1Ceil_add_le`: moving to the price an amount buys costs at most
  that amount, on the overflow path too.

`computeSwapStep_accounted` puts them together: the caller is never charged more than it had.
-/

namespace PolygonArb

open Word

variable {p t q l fee r : U256}

/-! ## What has been computed -/

lemma toNat_pos_of_ne_zero {a : U256} (h : a ≠ 0) : 0 < a.toNat :=
  Nat.pos_of_ne_zero fun h0 => h (eq_zero_iff.mpr h0)

lemma getAmount0Delta_eq_some {lo hi c : U256} {roundUp : Bool} (hle : lo.toNat ≤ hi.toNat)
    (h : getAmount0Delta lo hi l roundUp = some c) :
    0 < lo.toNat ∧ c.toNat = if roundUp then amount0Ceil l lo hi else amount0Floor l lo hi := by
  have hsub : (hi - lo).toNat = hi.toNat - lo.toNat := toNat_sub_of_le hle
  have hord : ¬ hi < lo := by rw [lt_iff]; omega
  simp only [getAmount0Delta, if_neg hord] at h
  by_cases hzero : lo = 0
  · rw [if_pos hzero] at h
    cases h
  rw [if_neg hzero] at h
  rcases Option.bind_eq_some_iff.mp h with ⟨n, hn, h⟩
  have hnv : n.toNat = numerator l := checkedShl_eq_some.mp hn
  refine ⟨toNat_pos_of_ne_zero hzero, ?_⟩
  cases roundUp with
  | true =>
      simp only [if_true] at h ⊢
      rcases Option.bind_eq_some_iff.mp h with ⟨inner, hinner, h⟩
      rw [(divRoundingUp_eq_some.mp h).2, (mulDivCeil_eq_some.mp hinner).2, hnv, hsub, amount0Ceil]
  | false =>
      simp only [Bool.false_eq_true, if_false] at h ⊢
      rcases Option.bind_eq_some_iff.mp h with ⟨inner, hinner, h⟩
      cases h
      rw [BitVec.toNat_udiv, (mulDivFloor_eq_some.mp hinner).2, hnv, hsub, amount0Floor]

lemma getAmount1Delta_eq_some {lo hi c : U256} {roundUp : Bool} (hle : lo.toNat ≤ hi.toNat)
    (h : getAmount1Delta lo hi l roundUp = some c) :
    c.toNat = if roundUp then amount1Ceil l lo hi else amount1Floor l lo hi := by
  have hsub : (hi - lo).toNat = hi.toNat - lo.toNat := toNat_sub_of_le hle
  have hord : ¬ hi < lo := by rw [lt_iff]; omega
  simp only [getAmount1Delta, if_neg hord] at h
  cases roundUp with
  | true =>
      simp only [if_true] at h ⊢
      rw [(mulDivCeil_eq_some.mp h).2, hsub, toNat_q96, amount1Ceil]
  | false =>
      simp only [Bool.false_eq_true, if_false] at h ⊢
      rw [(mulDivFloor_eq_some.mp h).2, hsub, toNat_q96, amount1Floor]

lemma nextPrice0_zero {n p : ℕ} (hn : 0 < n) (hlt : n < 2 ^ 256) : nextPrice0 n p 0 = p := by
  rw [nextPrice0, if_pos (by omega), Nat.zero_mul, Nat.add_zero, ceilDiv_eq_ite _ hn,
    Nat.mul_div_cancel_left p hn, if_pos (Nat.mul_mod_right n p), Nat.add_zero]

/-- The price an input of token 0 buys, as long as the overflow path does not wrap. -/
lemma nextPrice0_eq_some {a : U256} (hpos : 0 < l.toNat) (hl : l.toNat < 2 ^ 128)
    (ha : a.toNat < 2 ^ 255)
    (h : getNextSqrtPriceFromAmount0RoundingUp p l a true = some q) :
    q.toNat = nextPrice0 (numerator l) p.toNat a.toNat := by
  have hnlt : numerator l < 2 ^ 224 := numerator_lt ⟨hpos, hl⟩
  rw [getNextSqrtPriceFromAmount0RoundingUp] at h
  by_cases hzero : a = 0
  · rw [if_pos hzero] at h
    cases h
    rw [eq_zero_iff.mp hzero, nextPrice0_zero (numerator_pos ⟨hpos, hl⟩) (by omega)]
  rw [if_neg hzero] at h
  rcases Option.bind_eq_some_iff.mp h with ⟨n, hn, h⟩
  have hnv : n.toNat = numerator l := checkedShl_eq_some.mp hn
  have hnext : ∀ {x : Option U256}, (x.bind fun next => if next = 0 then none else some next) = some q →
      x = some q := by
    intro x hx
    rcases Option.bind_eq_some_iff.mp hx with ⟨next, hnext, hx⟩
    split_ifs at hx
    cases hx
    exact hnext
  simp only [if_true] at h
  rw [nextPrice0]
  cases hden : (checkedMul a p).bind (checkedAdd n) with
  | some den =>
      rw [hden] at h
      rcases Option.bind_eq_some_iff.mp hden with ⟨product, hproduct, hsum⟩
      have hdenv : den.toNat = numerator l + a.toNat * p.toNat := by
        rw [checkedAdd_eq_some.mp hsum, checkedMul_eq_some.mp hproduct, hnv]
      have hlt := toNat_lt den
      rw [(mulDivCeil_eq_some.mp (hnext h)).2, hnv, hdenv, if_pos (by omega)]
  | none =>
      rw [hden] at h
      have hge : 2 ^ 256 ≤ numerator l + a.toNat * p.toNat := by
        cases hproduct : checkedMul a p with
        | none =>
            have hover := checkedMul_eq_none.mp hproduct
            omega
        | some product =>
            rw [hproduct, Option.bind_some] at hden
            have hover := checkedAdd_eq_none.mp hden
            rwa [checkedMul_eq_some.mp hproduct, hnv] at hover
      have hdiv : numerator l / p.toNat ≤ numerator l := Nat.div_le_self _ _
      have hsum : (n / p + a).toNat = numerator l / p.toNat + a.toNat := by
        rw [BitVec.toNat_add, BitVec.toNat_udiv, hnv, Nat.mod_eq_of_lt (by omega)]
      rw [(divRoundingUp_eq_some.mp (hnext h)).2, hnv, hsum, if_neg (by omega)]

/-- The price an input buys, in either direction. -/
lemma stepPrice_eq_some {a : U256} {down : Bool} (hl : l.toNat < 2 ^ 128)
    (ha : down = true → a.toNat < 2 ^ 255)
    (h : getNextSqrtPriceFromInput p l a down = some q) :
    0 < p.toNat ∧ 0 < l.toNat ∧ q.toNat = stepPrice down p l a.toNat := by
  rw [getNextSqrtPriceFromInput] at h
  by_cases hzero : p = 0 ∨ l = 0
  · rw [if_pos hzero] at h
    cases h
  rw [if_neg hzero] at h
  rw [not_or] at hzero
  have hpos := toNat_pos_of_ne_zero hzero.2
  refine ⟨toNat_pos_of_ne_zero hzero.1, hpos, ?_⟩
  cases down with
  | true =>
      simp only [if_true] at h
      simp only [stepPrice, if_true]
      exact nextPrice0_eq_some hpos hl (ha rfl) h
  | false =>
      simp only [Bool.false_eq_true, if_false, getNextSqrtPriceFromAmount1RoundingDown, if_true,
        if_neg hzero.2] at h
      rcases Option.bind_eq_some_iff.mp h with ⟨quotient, hquotient, h⟩
      simp only [stepPrice, Bool.false_eq_true, if_false]
      rw [checkedAdd_eq_some.mp h, (mulDivFloor_eq_some.mp hquotient).2, toNat_q96]

/-! ## What the price costs -/

/-- The price after an input is at least the exact one, on both paths. -/
lemma mul_le_nextPrice0_mul {n p a : ℕ} (hn : 0 < n) (hlt : n < 2 ^ 256) :
    n * p ≤ nextPrice0 n p a * (n + a * p) := by
  unfold nextPrice0
  split_ifs with hfit
  · rw [Nat.mul_comm (_ ⌈/⌉ _)]
    exact le_smul_ceilDiv (Nat.add_pos_left hn _)
  · have ha : 0 < a := by
      rcases Nat.eq_zero_or_pos a with rfl | ha
      · omega
      · exact ha
    have hceil : n ≤ (n / p + a) * (n ⌈/⌉ (n / p + a)) := le_smul_ceilDiv (Nat.add_pos_right _ ha)
    have hden : (n / p + a) * p ≤ n + a * p := by
      rw [Nat.add_mul]
      exact Nat.add_le_add_right (Nat.div_mul_le_self n p) _
    calc n * p ≤ (n / p + a) * (n ⌈/⌉ (n / p + a)) * p := Nat.mul_le_mul_right _ hceil
      _ = n ⌈/⌉ (n / p + a) * ((n / p + a) * p) := by ring
      _ ≤ n ⌈/⌉ (n / p + a) * (n + a * p) := Nat.mul_le_mul_left _ hden

/-- Moving down to the price an amount buys costs at most that amount. -/
lemma amount0Ceil_le_of_price {a : ℕ} (hq : 0 < q.toNat) (hp : 0 < p.toNat)
    (hle : q.toNat ≤ p.toNat) (h : numerator l * p.toNat ≤ q.toNat * (numerator l + a * p.toNat)) :
    amount0Ceil l q p ≤ a := by
  unfold amount0Ceil
  rw [ceilDiv_le_iff_le_mul hq, ceilDiv_le_iff_le_mul hp]
  have hexp : numerator l * (p.toNat - q.toNat) + numerator l * q.toNat = numerator l * p.toNat := by
    rw [← Nat.mul_add, Nat.sub_add_cancel hle]
  have hsplit : q.toNat * (numerator l + a * p.toNat) =
      p.toNat * (q.toNat * a) + numerator l * q.toNat := by ring
  omega

/-- Moving up by what an amount buys costs at most that amount. -/
lemma amount1Ceil_le_of_price {a : ℕ} (h : q.toNat = p.toNat + a * 2 ^ 96 / l.toNat) :
    amount1Ceil l p q ≤ a := by
  unfold amount1Ceil
  rw [ceilDiv_le_iff_le_mul (by norm_num), h, Nat.add_sub_cancel_left, Nat.mul_comm (2 ^ 96)]
  exact Nat.mul_div_le _ _

/-! ## One step -/

/-- The input of moving from `p` to `q`, rounded up. -/
def stepCost (down : Bool) (p q l : U256) : ℕ := if down then amount0Ceil l q p else amount1Ceil l p q

/-- An amount of token 0 short of the target stops strictly above it, and pays for the way. -/
lemma short_down {a : ℕ} (hp : 0 < p.toNat) (ht : 0 < t.toNat) (hle : t.toNat ≤ p.toNat)
    (hl : LiquidityInRange l) (hshort : a < amount0Ceil l t p)
    (hq : q.toNat = nextPrice0 (numerator l) p.toNat a) :
    t.toNat < q.toNat ∧ q.toNat ≤ p.toNat ∧ amount0Ceil l q p ≤ a := by
  have hn := numerator_pos hl
  have hlt := numerator_lt hl
  have hmul := (lt_amount0Ceil_iff ht hp).mp hshort
  have hcost := mul_le_nextPrice0_mul (p := p.toNat) (a := a) hn (by omega)
  rw [← hq] at hcost
  have hbetween : t.toNat < q.toNat ∧ q.toNat ≤ p.toNat := by
    rcases Nat.eq_zero_or_pos a with rfl | ha
    · rw [hq, nextPrice0_zero hn (by omega)]
      refine ⟨?_, le_refl _⟩
      rcases Nat.lt_or_ge t.toNat p.toNat with h | h
      · exact h
      · rw [Nat.sub_eq_zero_of_le h] at hmul
        omega
    · rw [hq]
      exact ⟨lt_nextPrice0 ha hle hmul, nextPrice0_le hn hp ha⟩
  refine ⟨hbetween.1, hbetween.2, amount0Ceil_le_of_price (by omega) hp hbetween.2 hcost⟩

/-- An amount of token 1 short of the target stops strictly below it, and pays for the way. -/
lemma short_up {a : ℕ} (hle : p.toNat ≤ t.toNat) (hl : 0 < l.toNat)
    (hshort : a < amount1Ceil l p t) (hq : q.toNat = p.toNat + a * 2 ^ 96 / l.toNat) :
    p.toNat ≤ q.toNat ∧ q.toNat < t.toNat ∧ amount1Ceil l p q ≤ a := by
  have hquot : a * 2 ^ 96 / l.toNat < t.toNat - p.toNat := by
    rw [Nat.div_lt_iff_lt_mul hl, Nat.mul_comm (_ - _)]
    exact lt_amount1Ceil_iff.mp hshort
  have hle' : p.toNat ≤ q.toNat := by
    rw [hq]
    exact Nat.le_add_right _ _
  exact ⟨hle', by omega, amount1Ceil_le_of_price hq⟩

/-- The exact amount of the output token between two prices, as a real number. -/
noncomputable def exactAmountOut (down : Bool) (p q l : U256) : ℝ :=
  if down then l.toNat * ((p.toNat - q.toNat) / 2 ^ 96)
  else l.toNat * (2 ^ 96 / p.toNat - 2 ^ 96 / q.toNat)

lemma amount1Floor_le_exact (hle : q.toNat ≤ p.toNat) :
    (amount1Floor l q p : ℝ) ≤ exactAmountOut true p q l := by
  have hfloor : ((l.toNat * (p.toNat - q.toNat) / 2 ^ 96 : ℕ) : ℝ) ≤
      ((l.toNat * (p.toNat - q.toNat) : ℕ) : ℝ) / ((2 ^ 96 : ℕ) : ℝ) := Nat.cast_div_le
  rw [amount1Floor, exactAmountOut, if_pos rfl]
  refine hfloor.trans (le_of_eq ?_)
  push_cast [Nat.cast_sub hle]
  ring

lemma amount0Floor_le_exact (hp : 0 < p.toNat) (hle : p.toNat ≤ q.toNat) :
    (amount0Floor l p q : ℝ) ≤ exactAmountOut false p q l := by
  have hpr : (0 : ℝ) < p.toNat := by exact_mod_cast hp
  have hqr : (0 : ℝ) < q.toNat := by exact_mod_cast lt_of_lt_of_le hp hle
  have hinner : ((numerator l * (q.toNat - p.toNat) / q.toNat : ℕ) : ℝ) ≤
      ((numerator l * (q.toNat - p.toNat) : ℕ) : ℝ) / (q.toNat : ℝ) := Nat.cast_div_le
  have houter : (amount0Floor l p q : ℝ) ≤
      ((numerator l * (q.toNat - p.toNat) / q.toNat : ℕ) : ℝ) / (p.toNat : ℝ) := Nat.cast_div_le
  calc (amount0Floor l p q : ℝ)
      ≤ ((numerator l * (q.toNat - p.toNat) / q.toNat : ℕ) : ℝ) / (p.toNat : ℝ) := houter
    _ ≤ ((numerator l * (q.toNat - p.toNat) : ℕ) : ℝ) / (q.toNat : ℝ) / (p.toNat : ℝ) :=
        div_le_div_of_nonneg_right hinner hpr.le
    _ = exactAmountOut false p q l := by
        rw [exactAmountOut, if_neg (by simp), numerator]
        push_cast [Nat.cast_sub hle]
        field_simp
        ring

/-- What a step may do with `r` on the way from `p` to `t`. -/
structure StepAccounted (p t l r : U256) (st : SwapStepResult) : Prop where
  spent : st.amountIn.toNat + st.feeAmount.toNat ≤ r.toNat
  exhausted : st.sqrtRatioNextX96 ≠ t → st.amountIn.toNat + st.feeAmount.toNat = r.toNat
  onTheWay : OnTheWay p st.sqrtRatioNextX96 t
  out_le : (st.amountOut.toNat : ℝ) ≤ exactAmountOut (t ≤ p) p st.sqrtRatioNextX96 l

lemma lessFee_le : lessFee fee r ≤ r.toNat := by
  apply Nat.div_le_of_le_mul
  rw [Nat.mul_comm]
  exact Nat.mul_le_mul_right _ (Nat.sub_le _ _)

/-- An input that is left after the fee leaves room for the fee on it. -/
lemma add_fee_le {a c : ℕ} (hfee : fee.toNat < 1000000) (ha : a ≤ lessFee fee r)
    (hc : c = (a * fee.toNat) ⌈/⌉ (1000000 - fee.toNat)) : a + c ≤ r.toNat := by
  have har : a * 1000000 ≤ r.toNat * (1000000 - fee.toNat) :=
    (Nat.mul_le_mul_right _ ha).trans (Nat.div_mul_le_self _ _)
  have hle : a ≤ r.toNat := ha.trans lessFee_le
  have hcle : c ≤ r.toNat - a := by
    rw [hc, ceilDiv_le_iff_le_mul (by omega), Nat.mul_sub]
    have hsplit : (1000000 - fee.toNat) * a + a * fee.toNat = a * 1000000 := by
      rw [Nat.mul_comm _ a, ← Nat.mul_add, Nat.sub_add_cancel hfee.le]
    rw [Nat.mul_comm (1000000 - fee.toNat) r.toNat]
    omega
  omega

lemma stepCost_eq_some {c : U256} (hside : if t ≤ p then q.toNat ≤ p.toNat else p.toNat ≤ q.toNat)
    (h : (if t ≤ p then getAmount0Delta q p l true else getAmount1Delta p q l true) = some c) :
    c.toNat = stepCost (t ≤ p) p q l := by
  by_cases hd : t ≤ p
  · simp only [if_pos hd] at hside h
    simpa only [stepCost, hd, decide_true, if_true] using (getAmount0Delta_eq_some hside h).2
  · simp only [if_neg hd] at hside h
    simpa only [stepCost, hd, decide_false, Bool.false_eq_true, if_false, if_true] using
      getAmount1Delta_eq_some hside h

/-- The output of a step is rounded down from the exact amount. -/
lemma stepOut_le {c : U256} (hp : 0 < p.toNat)
    (hside : if t ≤ p then q.toNat ≤ p.toNat else p.toNat ≤ q.toNat)
    (h : (if t ≤ p then getAmount1Delta q p l false else getAmount0Delta p q l false) = some c) :
    (c.toNat : ℝ) ≤ exactAmountOut (t ≤ p) p q l := by
  by_cases hd : t ≤ p
  · simp only [if_pos hd] at hside h
    rw [getAmount1Delta_eq_some hside h]
    simp only [hd, decide_true, Bool.false_eq_true, if_false]
    exact amount1Floor_le_exact hside
  · simp only [if_neg hd] at hside h
    rw [(getAmount0Delta_eq_some hside h).2]
    simp only [hd, decide_false, Bool.false_eq_true, if_false]
    exact amount0Floor_le_exact hp hside

/-- The price of a step that stops short of the target. -/
lemma stepShort {a : U256} (hp : p ≠ 0) (ht : t ≠ 0) (hl : l.toNat < 2 ^ 128)
    (hshort : a.toNat < stepCost (t ≤ p) p t l)
    (h : getNextSqrtPriceFromInput p l a (t ≤ p) = some q) :
    q ≠ t ∧ OnTheWay p q t ∧ stepCost (t ≤ p) p q l ≤ a.toNat := by
  have hp := toNat_pos_of_ne_zero hp
  have ht := toNat_pos_of_ne_zero ht
  by_cases hd : t ≤ p
  · simp only [hd, decide_true, stepCost, if_true, OnTheWay] at hshort h ⊢
    have hlpos : 0 < l.toNat := by
      rcases Nat.eq_zero_or_pos l.toNat with hzero | hpos
      · have hle := amount0Ceil_le (l := l) ht hp
        rw [numerator, hzero] at hle
        omega
      · exact hpos
    have hbound : a.toNat < 2 ^ 255 := by
      have hle := amount0Ceil_le (l := l) ht hp
      have hlt := numerator_lt ⟨hlpos, hl⟩
      omega
    rcases stepPrice_eq_some hl (fun _ => hbound) h with ⟨-, -, hq⟩
    simp only [stepPrice, if_true] at hq
    rcases short_down hp ht (le_iff.mp hd) ⟨hlpos, hl⟩ hshort hq with ⟨hlt, hle, hcost⟩
    refine ⟨?_, ⟨hlt.le, hle⟩, hcost⟩
    rintro rfl
    exact lt_irrefl _ hlt
  · simp only [hd, decide_false, stepCost, Bool.false_eq_true, if_false, OnTheWay] at hshort h ⊢
    rcases stepPrice_eq_some hl (fun hfalse => by cases hfalse) h with ⟨-, hlpos, hq⟩
    simp only [stepPrice, Bool.false_eq_true, if_false] at hq
    rw [le_iff] at hd
    rcases short_up (by omega) hlpos hshort hq with ⟨hle, hlt, hcost⟩
    refine ⟨?_, ⟨hle, hlt.le⟩, hcost⟩
    rintro rfl
    exact lt_irrefl _ hlt

/-- A step that succeeds never charges more than it was given, and everything when it stops short of
its target; it stays on the way, and pays at most the exact amount. -/
theorem computeSwapStep_accounted (p t l r fee : U256) (hp : p ≠ 0) (ht : t ≠ 0)
    (hl : l.toNat < 2 ^ 128) (hfee : fee.toNat < 1000000) (st : SwapStepResult)
    (h : computeSwapStep p t l r fee = some st) : StepAccounted p t l r st := by
  simp only [computeSwapStep, Option.bind_eq_bind, Option.bind_eq_some_iff] at h
  obtain ⟨a, ha, full, hfull, next, hnext, spent, hspent, out, hout, charged, hcharged, h⟩ := h
  cases h
  have hav : a.toNat = lessFee fee r := by
    rw [(mulDiv_eq_some.mp ha).2.1, toNat_feePipsScale_sub hfee, toNat_feePipsScale, lessFee]
  have htarget : if t ≤ p then t.toNat ≤ p.toNat else p.toNat ≤ t.toNat := by
    split_ifs with hd <;> rw [le_iff] at hd <;> omega
  have hfullv := stepCost_eq_some htarget hfull
  by_cases hreach : full ≤ a
  · -- the target is reached
    rw [if_pos hreach] at hnext
    cases hnext
    rw [if_pos rfl] at hspent hcharged
    cases hspent
    rw [mulDivRoundingUp_eq_mulDivCeil, mulDivCeil_eq_some, toNat_feePipsScale_sub hfee] at hcharged
    have hleft := le_iff.mp hreach
    rw [hav] at hleft
    have hsum := add_fee_le hfee hleft hcharged.2
    refine ⟨hsum, fun hne => absurd rfl hne, ?_, stepOut_le (toNat_pos_of_ne_zero hp) htarget hout⟩
    simp only [OnTheWay]
    split_ifs with hd <;> rw [le_iff] at hd <;> omega
  · rw [if_neg hreach] at hnext
    rw [le_iff, hfullv] at hreach
    rcases stepShort hp ht hl (not_le.mp hreach) hnext with ⟨hne, hway, hcost⟩
    rw [if_neg (Ne.symm hne)] at hspent hcharged
    cases hcharged
    have hside : if t ≤ p then next.toNat ≤ p.toNat else p.toNat ≤ next.toNat := by
      simp only [OnTheWay] at hway
      split_ifs at hway ⊢
      · exact hway.2
      · exact hway.1
    have hspentv := stepCost_eq_some hside hspent
    have hle : spent.toNat ≤ r.toNat := by
      have hless : lessFee fee r ≤ r.toNat := lessFee_le
      omega
    have hsum : spent.toNat + (saturatingSub r spent).toNat = r.toNat := by
      rw [toNat_saturatingSub]
      omega
    exact ⟨hsum.le, fun _ => hsum, hway, stepOut_le (toNat_pos_of_ne_zero hp) hside hout⟩

/-- A thousandth of the liquidity at price one, with a fee of 0.3 percent. -/
theorem computeSwapStep_accounted_unitPrice :
    ∃ st, computeSwapStep q96 (q96 / 2#256) 1000000#256 1000#256 3000#256 = some st ∧
      StepAccounted q96 (q96 / 2#256) 1000000#256 1000#256 st := by
  have hsome : (computeSwapStep q96 (q96 / 2#256) 1000000#256 1000#256 3000#256).isSome = true := by
    decide
  cases h : computeSwapStep q96 (q96 / 2#256) 1000000#256 1000#256 3000#256 with
  | none =>
      rw [h] at hsome
      cases hsome
  | some st =>
      refine ⟨st, rfl, computeSwapStep_accounted q96 (q96 / 2#256) 1000000#256 1000#256 3000#256
        (by decide) (by decide) (by decide) (by decide) st h⟩

end PolygonArb

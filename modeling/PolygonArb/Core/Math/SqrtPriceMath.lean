import PolygonArb.Core.Math.MulDiv

/-!
# Amounts between two square-root prices

`core/math/sqrt_price_math.rs`.  Between prices `a < b` at liquidity `L`, token 1 moves by
`L * (b - a) / 2^96` and token 0 by `L * 2^96 * (b - a) / (a * b)`; the price functions invert
these, rounding against the trader.

All facts are stated over the naturals.  `numerator L` is `L << 96`.  Prices are below `2^160` and
liquidity below `2^128`, which is what keeps every intermediate inside a word
(`InRange`, `LiquidityInRange`).
-/

namespace PolygonArb

open Word

/-- `FixedPoint96.Q96`. -/
def q96 : U256 := fromLimbs 0 4294967296 0 0

def getNextSqrtPriceFromAmount0RoundingUp (sqrtPx96 liquidity amount : U256) (add : Bool) :
    Option U256 :=
  if amount = 0 then some sqrtPx96
  else do
    let numerator1 ← checkedShl liquidity 96
    let nonZero (next : U256) : Option U256 := if next = 0 then none else some next
    if add then
      match (checkedMul amount sqrtPx96).bind (checkedAdd numerator1) with
      | some denominator => (mulDivCeil numerator1 sqrtPx96 denominator).bind nonZero
      -- the product overflows, so the price is nonzero and the quotient is defined
      | none => (divRoundingUp numerator1 (numerator1 / sqrtPx96 + amount)).bind nonZero
    else do
      let product ← checkedMul amount sqrtPx96
      let denominator ← checkedSub numerator1 product
      (mulDivCeil numerator1 sqrtPx96 denominator).bind nonZero

def getNextSqrtPriceFromAmount1RoundingDown (sqrtPx96 liquidity amount : U256) (add : Bool) :
    Option U256 :=
  if liquidity = 0 then none
  else if add then do
    let quotient ← mulDivFloor amount q96 liquidity
    checkedAdd sqrtPx96 quotient
  else do
    let quotient ← mulDivCeil amount q96 liquidity
    checkedSub sqrtPx96 quotient

def getNextSqrtPriceFromInput (sqrtPx96 liquidity amountIn : U256) (zeroForOne : Bool) :
    Option U256 :=
  if sqrtPx96 = 0 ∨ liquidity = 0 then none
  else if zeroForOne then
    getNextSqrtPriceFromAmount0RoundingUp sqrtPx96 liquidity amountIn true
  else
    getNextSqrtPriceFromAmount1RoundingDown sqrtPx96 liquidity amountIn true

def getAmount0Delta (sqrtRatioA sqrtRatioB liquidity : U256) (roundUp : Bool) : Option U256 :=
  let (lo, hi) := if sqrtRatioB < sqrtRatioA then (sqrtRatioB, sqrtRatioA)
    else (sqrtRatioA, sqrtRatioB)
  if lo = 0 then none
  else do
    let numerator1 ← checkedShl liquidity 96
    let numerator2 := hi - lo
    if roundUp then do
      let inner ← mulDivCeil numerator1 numerator2 hi
      divRoundingUp inner lo
    else do
      let inner ← mulDivFloor numerator1 numerator2 hi
      some (inner / lo)

def getAmount1Delta (sqrtRatioA sqrtRatioB liquidity : U256) (roundUp : Bool) : Option U256 :=
  let (lo, hi) := if sqrtRatioB < sqrtRatioA then (sqrtRatioB, sqrtRatioA)
    else (sqrtRatioA, sqrtRatioB)
  let delta := hi - lo
  if roundUp then mulDivCeil liquidity delta q96 else mulDivFloor liquidity delta q96

/-! ## Exact values over the naturals -/

/-- A price a pool can have: nonzero and inside `uint160`. -/
def InRange (p : U256) : Prop := 0 < p.toNat ∧ p.toNat < 2 ^ 160

/-- A liquidity a pool can have: nonzero and inside `uint128`. -/
def LiquidityInRange (l : U256) : Prop := 0 < l.toNat ∧ l.toNat < 2 ^ 128

/-- `liquidity << 96` as a natural. -/
def numerator (l : U256) : ℕ := l.toNat * 2 ^ 96

/-- Token-0 amount between `lo ≤ hi`, rounded up. -/
def amount0Ceil (l lo hi : U256) : ℕ :=
  ((numerator l * (hi.toNat - lo.toNat)) ⌈/⌉ hi.toNat) ⌈/⌉ lo.toNat

/-- Token-0 amount between `lo ≤ hi`, rounded down. -/
def amount0Floor (l lo hi : U256) : ℕ :=
  numerator l * (hi.toNat - lo.toNat) / hi.toNat / lo.toNat

/-- Token-1 amount between `lo ≤ hi`, rounded up. -/
def amount1Ceil (l lo hi : U256) : ℕ := (l.toNat * (hi.toNat - lo.toNat)) ⌈/⌉ 2 ^ 96

/-- Token-1 amount between `lo ≤ hi`, rounded down. -/
def amount1Floor (l lo hi : U256) : ℕ := l.toNat * (hi.toNat - lo.toNat) / 2 ^ 96

variable {l lo hi p t : U256}

lemma toNat_q96 : q96.toNat = 2 ^ 96 := by decide

lemma q96_ne_zero : q96 ≠ 0 := by decide

lemma InRange.ne_zero (h : InRange p) : p ≠ 0 := fun h0 => by
  have := h.1
  rw [eq_zero_iff.mp h0] at this
  exact absurd this (lt_irrefl 0)

lemma LiquidityInRange.ne_zero (h : LiquidityInRange l) : l ≠ 0 := fun h0 => by
  have := h.1
  rw [eq_zero_iff.mp h0] at this
  exact absurd this (lt_irrefl 0)

lemma numerator_lt (hl : LiquidityInRange l) : numerator l < 2 ^ 224 := by
  have := hl.2
  unfold numerator
  omega

lemma numerator_pos (hl : LiquidityInRange l) : 0 < numerator l :=
  Nat.mul_pos hl.1 (by norm_num)

lemma checkedShl_numerator (hl : LiquidityInRange l) :
    ∃ n : U256, checkedShl l 96 = some n ∧ n.toNat = numerator l := by
  have h : l.toNat * 2 ^ 96 < 2 ^ 256 := (numerator_lt hl).trans (by norm_num)
  obtain ⟨n, hn⟩ := exists_toNat_eq h
  exact ⟨n, checkedShl_eq_some.mpr hn, hn⟩

lemma ceilDiv_le_self_of_le {n d k : ℕ} (hd : 0 < d) (hk : k ≤ d) : (n * k) ⌈/⌉ d ≤ n := by
  rw [ceilDiv_le_iff_le_mul hd, Nat.mul_comm]
  exact Nat.mul_le_mul_right _ hk

/-- The rounded-up token-0 amount never exceeds the numerator. -/
lemma amount0Ceil_le (hlo : 0 < lo.toNat) (hhi : 0 < hi.toNat) : amount0Ceil l lo hi ≤ numerator l := by
  unfold amount0Ceil
  rw [ceilDiv_le_iff_le_mul hlo]
  have h1 := ceilDiv_le_self_of_le (n := numerator l) hhi (Nat.sub_le hi.toNat lo.toNat)
  have h2 : numerator l ≤ lo.toNat * numerator l := Nat.le_mul_of_pos_left _ hlo
  exact h1.trans h2

lemma amount1Ceil_lt (hl : LiquidityInRange l) (lo : U256) (hhi : InRange hi) :
    amount1Ceil l lo hi < 2 ^ 193 := by
  have h : amount1Ceil l lo hi ≤ 2 ^ 192 := by
    unfold amount1Ceil
    rw [ceilDiv_le_iff_le_mul (by norm_num)]
    calc l.toNat * (hi.toNat - lo.toNat)
        ≤ 2 ^ 128 * 2 ^ 160 := Nat.mul_le_mul hl.2.le ((Nat.sub_le _ _).trans hhi.2.le)
      _ = 2 ^ 96 * 2 ^ 192 := by norm_num
  omega

/-- A longer way down moves at least as much token 1. -/
lemma amount1Floor_anti {lo' : U256} (h : lo'.toNat ≤ lo.toNat) :
    amount1Floor l lo hi ≤ amount1Floor l lo' hi :=
  Nat.div_le_div_right (Nat.mul_le_mul_left _ (by omega))

/-- A longer way up moves at least as much token 0. -/
lemma amount0Floor_mono {hi' : U256} (hlo : InRange lo) (h0 : lo.toNat ≤ hi.toNat)
    (h : hi.toNat ≤ hi'.toNat) : amount0Floor l lo hi ≤ amount0Floor l lo hi' := by
  unfold amount0Floor
  apply Nat.div_le_div_right
  have hpos : 0 < hi.toNat := hlo.1.trans_le h0
  rw [Nat.le_div_iff_mul_le (hpos.trans_le h)]
  set x := numerator l * (hi.toNat - lo.toNat) / hi.toNat with hx
  have hxle : x * hi.toNat ≤ numerator l * (hi.toNat - lo.toNat) := Nat.div_mul_le_self _ _
  have hcross : (hi.toNat - lo.toNat) * hi'.toNat ≤ (hi'.toNat - lo.toNat) * hi.toNat := by
    rw [Nat.sub_mul, Nat.sub_mul, Nat.mul_comm hi'.toNat]
    exact Nat.sub_le_sub_left (Nat.mul_le_mul_left _ h) _
  apply Nat.le_of_mul_le_mul_right _ hpos
  calc x * hi'.toNat * hi.toNat = x * hi.toNat * hi'.toNat := by ring
    _ ≤ numerator l * (hi.toNat - lo.toNat) * hi'.toNat := Nat.mul_le_mul_right _ hxle
    _ = numerator l * ((hi.toNat - lo.toNat) * hi'.toNat) := by ring
    _ ≤ numerator l * ((hi'.toNat - lo.toNat) * hi.toNat) := Nat.mul_le_mul_left _ hcross
    _ = numerator l * (hi'.toNat - lo.toNat) * hi.toNat := by ring

/-! ## The word functions compute them -/

lemma getAmount0Delta_up (hl : LiquidityInRange l) (hlo : InRange lo) (hhi : InRange hi)
    (h : lo.toNat ≤ hi.toNat) :
    ∃ c : U256, getAmount0Delta lo hi l true = some c ∧ c.toNat = amount0Ceil l lo hi := by
  obtain ⟨n, hn, hnv⟩ := checkedShl_numerator hl
  have hsub : (hi - lo).toNat = hi.toNat - lo.toNat := toNat_sub_of_le h
  have hle := ceilDiv_le_self_of_le (n := numerator l) hhi.1 (Nat.sub_le hi.toNat lo.toNat)
  have hfit := hle.trans_lt ((numerator_lt hl).trans (by norm_num : 2 ^ 224 < 2 ^ 256))
  rw [← hnv, ← hsub] at hfit
  obtain ⟨inner, hinner, hinnerv⟩ := exists_mulDivCeil hhi.ne_zero hfit
  obtain ⟨c, hc, hcv⟩ := exists_divRoundingUp inner hlo.ne_zero
  refine ⟨c, ?_, ?_⟩
  · unfold getAmount0Delta
    rw [if_neg (by rw [lt_iff]; omega)]
    simp only [if_neg hlo.ne_zero, hn, if_true, Option.bind_eq_bind, Option.bind_some, hinner, hc]
  · rw [hcv, hinnerv, hnv, hsub, amount0Ceil]

lemma getAmount0Delta_down (hl : LiquidityInRange l) (hlo : InRange lo) (hhi : InRange hi)
    (h : lo.toNat ≤ hi.toNat) :
    ∃ c : U256, getAmount0Delta lo hi l false = some c ∧ c.toNat = amount0Floor l lo hi := by
  obtain ⟨n, hn, hnv⟩ := checkedShl_numerator hl
  have hsub : (hi - lo).toNat = hi.toNat - lo.toNat := toNat_sub_of_le h
  have hle : numerator l * (hi.toNat - lo.toNat) / hi.toNat ≤ numerator l := by
    apply Nat.div_le_of_le_mul
    rw [Nat.mul_comm]
    exact Nat.mul_le_mul_right _ (Nat.sub_le _ _)
  have hfit := hle.trans_lt ((numerator_lt hl).trans (by norm_num : 2 ^ 224 < 2 ^ 256))
  rw [← hnv, ← hsub] at hfit
  obtain ⟨inner, hinner, hinnerv⟩ := exists_mulDivFloor hhi.ne_zero hfit
  refine ⟨inner / lo, ?_, ?_⟩
  · unfold getAmount0Delta
    rw [if_neg (by rw [lt_iff]; omega)]
    simp only [if_neg hlo.ne_zero, hn, if_false, Bool.false_eq_true, Option.bind_eq_bind,
      Option.bind_some, hinner]
  · rw [BitVec.toNat_udiv, hinnerv, hnv, hsub, amount0Floor]

lemma getAmount1Delta_up (hl : LiquidityInRange l) (hhi : InRange hi) (h : lo.toNat ≤ hi.toNat) :
    ∃ c : U256, getAmount1Delta lo hi l true = some c ∧ c.toNat = amount1Ceil l lo hi := by
  have hsub : (hi - lo).toNat = hi.toNat - lo.toNat := toNat_sub_of_le h
  have hfit := (amount1Ceil_lt hl lo hhi).trans (by norm_num : 2 ^ 193 < 2 ^ 256)
  unfold amount1Ceil at *
  rw [← toNat_q96, ← hsub] at *
  obtain ⟨c, hc, hcv⟩ := exists_mulDivCeil q96_ne_zero hfit
  refine ⟨c, ?_, hcv⟩
  unfold getAmount1Delta
  rw [if_neg (by rw [lt_iff]; omega)]
  exact hc

lemma getAmount1Delta_down (hl : LiquidityInRange l) (hhi : InRange hi)
    (h : lo.toNat ≤ hi.toNat) :
    ∃ c : U256, getAmount1Delta lo hi l false = some c ∧ c.toNat = amount1Floor l lo hi := by
  have hsub : (hi - lo).toNat = hi.toNat - lo.toNat := toNat_sub_of_le h
  have hfit : amount1Floor l lo hi < 2 ^ 256 := by
    unfold amount1Floor
    rw [Nat.div_lt_iff_lt_mul (by norm_num)]
    calc l.toNat * (hi.toNat - lo.toNat)
        ≤ 2 ^ 128 * 2 ^ 160 := Nat.mul_le_mul hl.2.le ((Nat.sub_le _ _).trans hhi.2.le)
      _ < 2 ^ 256 * 2 ^ 96 := by norm_num
  unfold amount1Floor at *
  rw [← toNat_q96, ← hsub] at *
  obtain ⟨c, hc, hcv⟩ := exists_mulDivFloor q96_ne_zero hfit
  refine ⟨c, ?_, hcv⟩
  unfold getAmount1Delta
  rw [if_neg (by rw [lt_iff]; omega)]
  exact hc

/-! ## The next price -/

/-- Price after adding `a` of token 0 at price `p`, as a natural: the exact quotient, or the
overflow path once `n + a * p` leaves a word. -/
def nextPrice0 (n p a : ℕ) : ℕ :=
  if n + a * p < 2 ^ 256 then (n * p) ⌈/⌉ (n + a * p) else n ⌈/⌉ (n / p + a)

/-- The overflow path divides by strictly more than the exact path did one unit earlier. -/
lemma lt_overflow_denominator {n p a : ℕ} (hp : 0 < p) : n + a * p < (n / p + (a + 1)) * p := by
  have h := Nat.lt_div_mul_add (a := n) hp
  calc n + a * p < n / p * p + p + a * p := Nat.add_lt_add_right h _
    _ = (n / p + (a + 1)) * p := by ring

/-- More token 0 in, lower price out, also across the two paths. -/
lemma nextPrice0_antitone {n p a b : ℕ} (hn : 0 < n) (hp : 0 < p) (ha : 0 < a) (hab : a ≤ b) :
    nextPrice0 n p b ≤ nextPrice0 n p a := by
  have hmul : a * p ≤ b * p := Nat.mul_le_mul_right _ hab
  have hexact : ∀ x, 0 < n + x * p := fun x => Nat.add_pos_left hn _
  have hover : 0 < n / p + b := Nat.add_pos_right _ (ha.trans_le hab)
  have hle : n * p ≤ (n + a * p) * ((n * p) ⌈/⌉ (n + a * p)) := le_smul_ceilDiv (hexact a)
  unfold nextPrice0
  split_ifs with hb ha' ha'
  · rw [ceilDiv_le_iff_le_mul (hexact b)]
    exact hle.trans (Nat.mul_le_mul_right _ (Nat.add_le_add_left hmul n))
  · omega
  · -- the two amounts take different paths, so they differ by at least one unit
    have hlt : a + 1 ≤ b := by
      rcases Nat.lt_or_ge a b with h | h
      · exact h
      · rw [Nat.le_antisymm hab h] at ha'
        exact absurd ha' hb
    have hden : n + a * p ≤ (n / p + b) * p :=
      (lt_overflow_denominator hp).le.trans (Nat.mul_le_mul_right _ (Nat.add_le_add_left hlt _))
    rw [ceilDiv_le_iff_le_mul hover]
    apply Nat.le_of_mul_le_mul_right _ hp
    calc n * p ≤ (n + a * p) * ((n * p) ⌈/⌉ (n + a * p)) := hle
      _ ≤ (n / p + b) * p * ((n * p) ⌈/⌉ (n + a * p)) := Nat.mul_le_mul_right _ hden
      _ = (n / p + b) * ((n * p) ⌈/⌉ (n + a * p)) * p := by ring
  · rw [ceilDiv_le_iff_le_mul hover]
    have h : n ≤ (n / p + a) * (n ⌈/⌉ (n / p + a)) := le_smul_ceilDiv (Nat.add_pos_right _ ha)
    exact h.trans (Nat.mul_le_mul_right _ (Nat.add_le_add_left hab _))

lemma nextPrice0_le {n p a : ℕ} (hn : 0 < n) (hp : 0 < p) (ha : 0 < a) : nextPrice0 n p a ≤ p := by
  unfold nextPrice0
  split_ifs with h
  · rw [ceilDiv_le_iff_le_mul (Nat.add_pos_left hn _)]
    exact Nat.mul_le_mul_right _ (Nat.le_add_right _ _)
  · rw [ceilDiv_le_iff_le_mul (Nat.add_pos_right _ ha)]
    calc n ≤ (n / p + (0 + 1)) * p := by
          have := lt_overflow_denominator (n := n) (a := 0) hp
          omega
      _ ≤ (n / p + a) * p := Nat.mul_le_mul_right _ (Nat.add_le_add_left ha _)

/-- An input short of the amount to `t` stops strictly above `t`. -/
lemma lt_nextPrice0 {n p t a : ℕ} (ha : 0 < a) (htp : t ≤ p)
    (h : a * t * p < n * (p - t)) : t < nextPrice0 n p a := by
  have hkey : t * (n + a * p) < n * p := by
    have hexp : n * (p - t) + n * t = n * p := by rw [← Nat.mul_add, Nat.sub_add_cancel htp]
    calc t * (n + a * p) = a * t * p + n * t := by ring
      _ < n * (p - t) + n * t := Nat.add_lt_add_right h _
      _ = n * p := hexp
  have hn : 0 < n := by
    rcases Nat.eq_zero_or_pos n with rfl | hn
    · simp at h
    · exact hn
  unfold nextPrice0
  split_ifs with hfit
  · rw [← not_le, ceilDiv_le_iff_le_mul (Nat.add_pos_left hn _), not_le, Nat.mul_comm]
    exact hkey
  · rw [← not_le, ceilDiv_le_iff_le_mul (Nat.add_pos_right _ ha), not_le]
    have hdiv : n / p * p ≤ n := Nat.div_mul_le_self n p
    apply Nat.lt_of_mul_lt_mul_right (a := p)
    calc (n / p + a) * t * p = t * (n / p * p + a * p) := by ring
      _ ≤ t * (n + a * p) := Nat.mul_le_mul_left _ (by omega)
      _ < n * p := hkey

/-- `amount < amount0Ceil`, cleared of both roundings. -/
lemma lt_amount0Ceil_iff {a : ℕ} (hlo : 0 < lo.toNat) (hhi : 0 < hi.toNat) :
    a < amount0Ceil l lo hi ↔
      a * lo.toNat * hi.toNat < numerator l * (hi.toNat - lo.toNat) := by
  unfold amount0Ceil
  rw [← not_le, ceilDiv_le_iff_le_mul hlo, ceilDiv_le_iff_le_mul hhi, not_le]
  rw [show hi.toNat * (lo.toNat * a) = a * lo.toNat * hi.toNat by ring]

lemma lt_amount1Ceil_iff {a : ℕ} :
    a < amount1Ceil l lo hi ↔ a * 2 ^ 96 < l.toNat * (hi.toNat - lo.toNat) := by
  unfold amount1Ceil
  rw [← not_le, ceilDiv_le_iff_le_mul (by norm_num), not_le, Nat.mul_comm]

/-- The zero-for-one price function computes `nextPrice0` on inputs that stop short of `t`. -/
lemma getNextSqrtPriceFromInput_zeroForOne {a : U256} (hl : LiquidityInRange l) (hp : InRange p)
    (ht : InRange t) (htp : t.toNat ≤ p.toNat) (ha : 0 < a.toNat)
    (hshort : a.toNat < amount0Ceil l t p) :
    ∃ q, getNextSqrtPriceFromInput p l a true = some q ∧
      q.toNat = nextPrice0 (numerator l) p.toNat a.toNat := by
  obtain ⟨n, hn, hnv⟩ := checkedShl_numerator hl
  have hnpos := numerator_pos hl
  have hnlt := numerator_lt hl
  have hlt := lt_nextPrice0 ha htp ((lt_amount0Ceil_iff ht.1 hp.1).mp hshort)
  have hle := nextPrice0_le (n := numerator l) hnpos hp.1 ha
  have hapos : a ≠ 0 := fun h => by rw [eq_zero_iff.mp h] at ha; exact absurd ha (lt_irrefl 0)
  have halt : a.toNat < 2 ^ 224 := (hshort.trans_le (amount0Ceil_le ht.1 hp.1)).trans hnlt
  obtain ⟨q, hq⟩ := exists_toNat_eq (hle.trans_lt (toNat_lt p))
  have hq0 : q ≠ 0 := fun h => by rw [eq_zero_iff.mp h] at hq; omega
  refine ⟨q, ?_, hq⟩
  unfold getNextSqrtPriceFromInput getNextSqrtPriceFromAmount0RoundingUp
  rw [if_neg (by rintro (h | h); exacts [hp.ne_zero h, hl.ne_zero h]), if_pos rfl, if_neg hapos, hn]
  simp only [Option.bind_eq_bind, Option.bind_some, if_true]
  unfold nextPrice0 at hq
  split_ifs at hq with hfit
  · obtain ⟨prod, hprod⟩ := exists_toNat_eq (n := a.toNat * p.toNat) (by omega)
    obtain ⟨den, hden⟩ := exists_toNat_eq hfit
    have h1 : (checkedMul a p).bind (checkedAdd n) = some den := by
      rw [checkedMul_eq_some.mpr hprod, Option.bind_some, checkedAdd_eq_some, hnv, hprod, hden]
    have h2 : mulDivCeil n p den = some q := by
      refine mulDivCeil_eq_some.mpr ⟨fun h => ?_, by rw [hq, hnv, hden]⟩
      rw [eq_zero_iff.mp h] at hden
      omega
    simp only [h1, h2, Option.bind_some, if_neg hq0]
  · have h1 : (checkedMul a p).bind (checkedAdd n) = none := by
      cases hm : checkedMul a p with
      | none => rfl
      | some prod =>
          rw [Option.bind_some, checkedAdd_eq_none, hnv, checkedMul_eq_some.mp hm]
          omega
    have hdiv : numerator l / p.toNat ≤ numerator l := Nat.div_le_self _ _
    have hden : (n / p + a).toNat = numerator l / p.toNat + a.toNat := by
      rw [BitVec.toNat_add, BitVec.toNat_udiv, hnv, Nat.mod_eq_of_lt (by omega)]
    have h2 : divRoundingUp n (n / p + a) = some q := by
      refine divRoundingUp_eq_some.mpr ⟨fun h => ?_, by rw [hq, hnv, hden]⟩
      rw [eq_zero_iff.mp h] at hden
      exact absurd hden (Nat.add_pos_right _ ha).ne
    simp only [h1, h2, Option.bind_some, if_neg hq0]

/-- The one-for-zero price function, on inputs that stop short of `t`. -/
lemma getNextSqrtPriceFromInput_oneForZero {a : U256} (hl : LiquidityInRange l) (hp : InRange p)
    (hpt : p.toNat ≤ t.toNat) (hshort : a.toNat < amount1Ceil l p t) :
    ∃ q, getNextSqrtPriceFromInput p l a false = some q ∧
      q.toNat = p.toNat + a.toNat * 2 ^ 96 / l.toNat ∧ q.toNat < t.toNat := by
  have hquot : a.toNat * 2 ^ 96 / l.toNat < t.toNat - p.toNat := by
    rw [Nat.div_lt_iff_lt_mul hl.1, Nat.mul_comm (_ - _)]
    exact lt_amount1Ceil_iff.mp hshort
  have htlt := toNat_lt t
  rw [← toNat_q96] at hquot
  obtain ⟨d, hd, hdv⟩ := exists_mulDivFloor (a := a) (b := q96) hl.ne_zero (by omega)
  obtain ⟨q, hq⟩ := exists_toNat_eq (n := p.toNat + d.toNat) (by omega)
  refine ⟨q, ?_, by rw [hq, hdv, toNat_q96], by omega⟩
  unfold getNextSqrtPriceFromInput getNextSqrtPriceFromAmount1RoundingDown
  rw [if_neg (by rintro (h | h); exacts [hp.ne_zero h, hl.ne_zero h]),
    if_neg (by simp), if_neg hl.ne_zero]
  simp only [if_true, hd, Option.bind_eq_bind, Option.bind_some]
  exact checkedAdd_eq_some.mpr hq

end PolygonArb

import PolygonArb.Core.Math.Woofi

/-!
# A WooFi round trip creates no value

The two formulas invert each other at the oracle price, and every step of either only takes away: a floor,
the swap factor `ONE - gamma - spread`, the fee, and, where a product wraps, the wrap as well.  So neither leg
pays more than the price says (`calcQuoteAmountSellBase_le`, `calcBaseAmountSellQuote_le`), and the prices of
the two legs cancel.

The one product that must not wrap is `ONE * dec`, the divisor of a leg.
-/

namespace PolygonArb

open Word

/-- The divisors `ONE * dec` of both legs fit a word. -/
structure WoofiBaseTokenState.ScalesFit (base : WoofiBaseTokenState) : Prop where
  baseFits : one18.toNat * base.baseDec.toNat < 2 ^ 256
  quoteFits : one18.toNat * base.quoteDec.toNat < 2 ^ 256

/-- `mulDivTriple` is below the exact quotient, also where it wraps or gives up with zero. -/
lemma mulDivTriple_le {a b c d e q : U256} (h : mulDivTriple a b c d e = some q) :
    q.toNat * (d.toNat * e.toNat) ≤ a.toNat * b.toNat * c.toNat := by
  rw [mulDivTriple] at h
  split at h
  · rename_i q' hnarrow
    obtain rfl := Option.some.inj h
    rcases Option.bind_eq_some_iff.mp hnarrow with ⟨ab, hab, hrest⟩
    rcases Option.bind_eq_some_iff.mp hrest with ⟨abc, habc, hrest⟩
    rcases Option.bind_eq_some_iff.mp hrest with ⟨de, hde, hquotient⟩
    split_ifs at hquotient with hzero
    obtain rfl := Option.some.inj hquotient
    rw [← checkedMul_eq_some.mp hde, ← checkedMul_eq_some.mp hab, ← checkedMul_eq_some.mp habc,
      BitVec.toNat_udiv]
    exact Nat.div_mul_le_self _ _
  · split_ifs at h with hzero
    obtain rfl := Option.some.inj h
    cases hfits : ofNatChecked
        (wrap512 (a.toNat * b.toNat * c.toNat) / (d.toNat * e.toNat)) with
    | none => simp
    | some q =>
        rw [Option.getD_some, ofNatChecked_eq_some.mp hfits]
        exact (Nat.div_mul_le_self _ _).trans (Nat.mod_le _ _)

/-- The last step of a leg: a factor of at most `ONE` comes off, and then the input's decimals. -/
lemma scaledBySwapFactor_le {amount gamma spread dec out : U256}
    (hfactor : hasPositiveSwapFactor gamma spread = true)
    (hfit : one18.toNat * dec.toNat < 2 ^ 256)
    (h : checkedDiv (amount * (one18 - gamma - spread)) (one18 * dec) = some out) :
    out.toNat * dec.toNat ≤ amount.toNat := by
  rcases checkedDiv_eq_some.mp h with ⟨hpos, rfl⟩
  have hone : 0 < one18.toNat := by decide
  have hle : (one18 - gamma - spread).toNat ≤ one18.toNat := by
    simp only [hasPositiveSwapFactor, Bool.and_eq_true, decide_eq_true_eq, le_iff, lt_iff] at hfactor
    rcases hfactor with ⟨⟨hgamma, hspread⟩, hsum⟩
    have hsmall : one18.toNat < 2 ^ 255 := by decide
    rw [toNat_add_of_lt (by omega)] at hsum
    have hrest := toNat_sub_of_le hgamma
    rw [toNat_sub_of_le (by omega), hrest]
    omega
  have hdivisor : (one18 * dec).toNat = one18.toNat * dec.toNat := toNat_mul_of_lt hfit
  rw [BitVec.toNat_udiv, hdivisor, ← Nat.div_div_eq_div_mul]
  calc (amount * (one18 - gamma - spread)).toNat / one18.toNat / dec.toNat * dec.toNat
      ≤ (amount * (one18 - gamma - spread)).toNat / one18.toNat := Nat.div_mul_le_self _ _
    _ ≤ amount.toNat * one18.toNat / one18.toNat :=
        Nat.div_le_div_right ((toNat_mul_le _ _).trans (Nat.mul_le_mul_left _ hle))
    _ = amount.toNat := Nat.mul_div_cancel _ hone

section Legs

variable {base : WoofiBaseTokenState} {amount out : U256} {spread : Option U256}

/-- Selling base pays at most the oracle price. -/
lemma calcQuoteAmountSellBase_le (hfit : base.ScalesFit)
    (h : calcQuoteAmountSellBase base amount spread = some out) :
    out.toNat * base.baseDec.toNat * base.priceDec.toNat ≤
      amount.toNat * base.price.toNat * base.quoteDec.toNat := by
  rw [calcQuoteAmountSellBase] at h
  split_ifs at h with hzero
  · obtain rfl := Option.some.inj h
    simp
  rcases Option.bind_eq_some_iff.mp h with ⟨notionalSwap, -, h⟩
  split_ifs at h with hnotional
  · obtain rfl := Option.some.inj h
    simp
  rcases Option.bind_eq_some_iff.mp h with ⟨gamma, -, h⟩
  split_ifs at h with hgamma hfactor
  · obtain rfl := Option.some.inj h
    simp
  · obtain rfl := Option.some.inj h
    simp
  rcases Option.bind_eq_some_iff.mp h with ⟨quoteNoSpread, hquote, h⟩
  have hprice := mulDivTriple_le hquote
  have hlast := scaledBySwapFactor_le (Bool.eq_true_of_not_eq_false hfactor) hfit.baseFits h
  calc out.toNat * base.baseDec.toNat * base.priceDec.toNat
      ≤ quoteNoSpread.toNat * base.priceDec.toNat := Nat.mul_le_mul_right _ hlast
    _ ≤ amount.toNat * base.price.toNat * base.quoteDec.toNat := by simpa using hprice

/-- Buying base pays at most the oracle price. -/
lemma calcBaseAmountSellQuote_le (hfit : base.ScalesFit)
    (h : calcBaseAmountSellQuote base amount spread = some out) :
    out.toNat * base.quoteDec.toNat * base.price.toNat ≤
      amount.toNat * base.baseDec.toNat * base.priceDec.toNat := by
  rw [calcBaseAmountSellQuote] at h
  dsimp only at h
  split_ifs at h with hzero hnotional hgamma hfactor
  · obtain rfl := Option.some.inj h
    simp
  · obtain rfl := Option.some.inj h
    simp
  · obtain rfl := Option.some.inj h
    simp
  · obtain rfl := Option.some.inj h
    simp
  rcases Option.bind_eq_some_iff.mp h with ⟨baseNoSpread, hbase, h⟩
  have hprice := mulDivTriple_le hbase
  have hlast := scaledBySwapFactor_le (Bool.eq_true_of_not_eq_false hfactor) hfit.quoteFits h
  calc out.toNat * base.quoteDec.toNat * base.price.toNat
      ≤ baseNoSpread.toNat * base.price.toNat := Nat.mul_le_mul_right _ hlast
    _ ≤ amount.toNat * base.baseDec.toNat * base.priceDec.toNat := by simpa using hprice

/-- A leg that pays anything has a price and both decimals. -/
lemma calcBaseAmountSellQuote_pos (h : calcBaseAmountSellQuote base amount spread = some out)
    (hout : out ≠ 0) : 0 < base.quoteDec.toNat * base.price.toNat := by
  rw [calcBaseAmountSellQuote] at h
  dsimp only at h
  split_ifs at h with hzero
  · exact absurd (Option.some.inj h).symm hout
  all_goals
    refine Nat.mul_pos (Nat.pos_of_ne_zero fun h0 => hzero ?_) (Nat.pos_of_ne_zero fun h0 => hzero ?_)
    · exact .inr (.inr (.inr (.inl (eq_zero_iff.mpr h0))))
    · exact .inr (.inl (eq_zero_iff.mpr h0))

/-- The fee only takes away, wrapped or not. -/
lemma applyWoofiFee_le (amount feeRate : U256) :
    (applyWoofiFee amount feeRate).toNat ≤ amount.toNat := by
  rw [applyWoofiFee]
  split_ifs with hzero
  · simp
  have hrate : feeRate.toNat < woofiFeeDenominator.toNat :=
    not_le.mp fun hle => hzero (.inr (le_iff.mpr hle))
  have hfee : (amount * feeRate / woofiFeeDenominator).toNat ≤ amount.toNat := by
    rw [BitVec.toNat_udiv]
    refine Nat.div_le_of_le_mul ((toNat_mul_le _ _).trans ?_)
    rw [Nat.mul_comm woofiFeeDenominator.toNat]
    exact Nat.mul_le_mul_left _ hrate.le
  rw [toNat_sub_of_le hfee]
  exact Nat.sub_le _ _

lemma withinReserve_le_amount (reserve amount : U256) :
    (withinReserve reserve amount).toNat ≤ amount.toNat := by
  rw [withinReserve]
  split_ifs
  · simp
  · exact le_rfl

/-- The price of the way out is the price of the way back. -/
lemma roundTrip_le {gross paid back : U256} (hfit : base.ScalesFit)
    (hsell : calcQuoteAmountSellBase base amount none = some gross) (hpaid : paid.toNat ≤ gross.toNat)
    (hbuy : calcBaseAmountSellQuote base paid none = some back) : back.toNat ≤ amount.toNat := by
  by_cases hback : back = 0
  · simp [hback]
  have hout := calcQuoteAmountSellBase_le hfit hsell
  have hreturn := calcBaseAmountSellQuote_le hfit hbuy
  refine Nat.le_of_mul_le_mul_right ?_ (calcBaseAmountSellQuote_pos hbuy hback)
  calc back.toNat * (base.quoteDec.toNat * base.price.toNat)
      = back.toNat * base.quoteDec.toNat * base.price.toNat := by ring
    _ ≤ paid.toNat * base.baseDec.toNat * base.priceDec.toNat := hreturn
    _ ≤ gross.toNat * base.baseDec.toNat * base.priceDec.toNat := by gcongr
    _ ≤ amount.toNat * base.price.toNat * base.quoteDec.toNat := hout
    _ = amount.toNat * (base.quoteDec.toNat * base.price.toNat) := by ring

end Legs

/-- Selling base and buying it back with the whole proceeds, at one state, returns at most what was
sold. -/
theorem woofi_roundTrip_le {state : WoofiPoolState} {base : WoofiBaseTokenState} {idx : ℕ}
    {amount proceeds back : U256} (hbase : state.baseStates[idx]? = some base)
    (hfit : base.ScalesFit)
    (hsell : getWoofiAmountOut state amount false true (some idx) none = some proceeds)
    (hbuy : getWoofiAmountOut state proceeds true false none (some idx) = some back) :
    back.toNat ≤ amount.toNat := by
  rw [getWoofiAmountOut] at hsell hbuy
  simp only [Option.bind_some, hbase, if_true, Bool.false_eq_true, if_false] at hsell hbuy
  split_ifs at hsell with hamount
  · obtain rfl := Option.some.inj hsell
    simp only [if_true] at hbuy
    obtain rfl := Option.some.inj hbuy
    simp
  rcases Option.bind_eq_some_iff.mp hsell with ⟨gross, hgross, hproceeds⟩
  obtain rfl := Option.some.inj hproceeds
  split_ifs at hbuy with hnone
  · obtain rfl := Option.some.inj hbuy
    simp
  rcases Option.bind_eq_some_iff.mp hbuy with ⟨baseOut, hback, hwithin⟩
  obtain rfl := Option.some.inj hwithin
  refine (withinReserve_le_amount _ _).trans (roundTrip_le hfit hgross ?_ hback)
  exact (applyWoofiFee_le _ _).trans ((withinReserve_le_amount _ _).trans (applyWoofiFee_le _ _))

/-- One unit of an eighteen-decimal base at a price of two thousand, and back. -/
theorem woofi_roundTrip_le_unit :
    let base : WoofiBaseTokenState :=
      { price := 200000000000, spread := 250000000000000, coeff := 1000000000,
        reserve := 1000000000000000000000, baseDec := 1000000000000000000, quoteDec := 1000000,
        priceDec := 100000000, feeRate := 25, maxGamma := 3000000000000000,
        maxNotionalSwap := 1000000000000 }
    let state : WoofiPoolState :=
      { tokens := [1, 2], quoteReserve := 1000000000000, baseStates := [base], fee := 0 }
    getWoofiAmountOut state 1000000000000000000 false true (some 0) none = some 1998996126 ∧
      getWoofiAmountOut state 1998996126 true false none (some 0) = some 998996379458990558 ∧
      (998996379458990558 : U256).toNat ≤ (1000000000000000000 : U256).toNat := by
  intro base state
  have hsell : getWoofiAmountOut state 1000000000000000000 false true (some 0) none =
      some 1998996126 := by decide
  have hbuy : getWoofiAmountOut state 1998996126 true false none (some 0) =
      some 998996379458990558 := by decide
  exact ⟨hsell, hbuy,
    woofi_roundTrip_le rfl ⟨by decide, by decide⟩ hsell hbuy⟩

end PolygonArb

import PolygonArb.Pipeline.HopSim

/-!
# A quote is paid from the pool's own balance

For the families that hold one balance per token, `outputBalance` is what the pool holds of the token
a hop buys.  Curve scales balances by a rate and scales the output back; Balancer and WooFi compare
the quote with the balance; the DODO curve never pays more than it starts from.  All of that also
holds when products wrap, because a wrapped product is only smaller.

The constant product is different: its denominator is a sum, and a sum that wraps may end up below
the numerator's share.  `FeeTermsFit` says that it does not, and the fee fractions discovery stores
always fit.
-/

namespace PolygonArb

open Word

/-- What a WooFi pool holds of leg `idx`: a base reserve, or past the base tokens the quote. -/
def woofiReserve (s : WoofiPoolState) (idx : ℕ) : U256 :=
  match s.baseStates[idx]? with
  | some base => base.reserve
  | none => s.quoteReserve

/-- What the pool holds of the token the hop buys; concentrated liquidity has no such balance. -/
def outputBalance (state : PoolState) (edge : Edge) : Option U256 :=
  match state with
  | .v2 s => some (if edge.zeroForOne then s.reserve1 else s.reserve0)
  | .curve s => some (s.balances.getD edge.tokenOutIdx 0)
  | .balancer s => some (s.balances.getD edge.tokenOutIdx 0)
  | .dodo s => some (if edge.tokenInIdx = 0 then s.quoteReserve else s.baseReserve)
  | .woofi s => some (woofiReserve s edge.tokenOutIdx)
  | _ => none

/-- The targets of a DODO pool are consistent with its side of the peg. -/
def DodoTargetsOk (s : DodoPoolState) : Prop :=
  match s.rState with
  | .one => s.baseTarget ≤ s.baseReserve ∧ s.quoteTarget ≤ s.quoteReserve
  | .aboveOne => s.quoteTarget ≤ s.quoteReserve
  | .belowOne => s.baseTarget ≤ s.baseReserve

/-! ## Constant product -/

/-- The two terms of the denominator, as the code computes them, add up within the word it uses: 256
bits when all amounts fit 128, 512 bits otherwise. -/
def FeeTermsFit (amountIn reserveIn reserveOut feeNumerator feeDenom : U256) : Prop :=
  if amountIn.toNat < 2 ^ 128 ∧ reserveIn.toNat < 2 ^ 128 ∧ reserveOut.toNat < 2 ^ 128 then
    (reserveIn * feeDenom).toNat + (amountIn * feeNumerator).toNat < 2 ^ 256
  else reserveIn.toNat * feeDenom.toNat + amountIn.toNat * feeNumerator.toNat < 2 ^ 512

/-- A share of the output reserve is at most the reserve. -/
lemma share_le (part rest reserve : ℕ) : part * reserve / (rest + part) ≤ reserve := by
  refine Nat.div_le_of_le_mul ?_
  exact Nat.mul_le_mul_right reserve (Nat.le_add_left part rest)

lemma getAmountOut_le {amountIn reserveIn reserveOut feeNumerator feeDenom out : U256}
    (hfit : FeeTermsFit amountIn reserveIn reserveOut feeNumerator feeDenom)
    (h : getAmountOut amountIn reserveIn reserveOut feeNumerator feeDenom = some out) :
    out.toNat ≤ reserveOut.toNat := by
  rw [FeeTermsFit] at hfit
  rw [getAmountOut] at h
  split at h
  · rw [← Option.some.inj h]
    exact Nat.zero_le _
  split at h
  · rename_i hsmall
    rw [if_pos hsmall] at hfit
    rcases checkedDiv_eq_some.mp h with ⟨-, rfl⟩
    rw [BitVec.toNat_udiv, toNat_add_of_lt hfit]
    refine le_trans (Nat.div_le_div_right (toNat_mul_le _ _)) ?_
    exact share_le _ _ _
  · rename_i hlarge
    rw [if_neg hlarge] at hfit
    have hden : wrap512 (reserveIn.toNat * feeDenom.toNat + amountIn.toNat * feeNumerator.toNat) =
        reserveIn.toNat * feeDenom.toNat + amountIn.toNat * feeNumerator.toNat :=
      Nat.mod_eq_of_lt hfit
    dsimp only at h
    rw [hden] at h
    split at h
    · rw [← Option.some.inj h]
      exact Nat.zero_le _
    · have hshare := share_le (amountIn.toNat * feeNumerator.toNat)
        (reserveIn.toNat * feeDenom.toNat) reserveOut.toNat
      have hquot : wrap512 (amountIn.toNat * feeNumerator.toNat * reserveOut.toNat) /
          (reserveIn.toNat * feeDenom.toNat + amountIn.toNat * feeNumerator.toNat) ≤
            reserveOut.toNat :=
        le_trans (Nat.div_le_div_right (Nat.mod_le _ _)) hshare
      have hlt := toNat_lt reserveOut
      rw [← Option.some.inj h, truncate256, BitVec.toNat_ofNat, Nat.mod_eq_of_lt (by omega)]
      exact hquot

/-- Fee fractions up to ten thousandths, the ones discovery stores, always fit. -/
lemma feeTermsFit_of_le {amountIn reserveIn reserveOut feeNumerator feeDenom : U256}
    (hfee : feeNumerator.toNat ≤ feeDenom.toNat) (hdenom : feeDenom.toNat ≤ 10000) :
    FeeTermsFit amountIn reserveIn reserveOut feeNumerator feeDenom := by
  have hproduct : ∀ (a b : U256) (n : ℕ), a.toNat < n → b.toNat ≤ 10000 →
      a.toNat * b.toNat ≤ n * 10000 := fun a b n ha hb => Nat.mul_le_mul ha.le hb
  rw [FeeTermsFit]
  split
  · rename_i hsmall
    have hreserve := hproduct reserveIn feeDenom _ hsmall.2.1 hdenom
    have hamount := hproduct amountIn feeNumerator _ hsmall.1 (hfee.trans hdenom)
    rw [toNat_mul_of_lt (by omega), toNat_mul_of_lt (by omega)]
    omega
  · have hreserve := hproduct reserveIn feeDenom _ (toNat_lt _) hdenom
    have hamount := hproduct amountIn feeNumerator _ (toNat_lt _) (hfee.trans hdenom)
    omega

/-- The fee terms of a V2 hop. -/
def V2FeeTermsFit (s : V2PoolState) (edge : Edge) (amountIn : U256) : Prop :=
  let (numerator, denominator) := resolveV2FeeWithEdge s (some edge.feeBps)
  let (reserveIn, reserveOut) :=
    if edge.zeroForOne then (s.reserve0, s.reserve1) else (s.reserve1, s.reserve0)
  FeeTermsFit amountIn reserveIn reserveOut numerator denominator

lemma simulateV2Swap_le {s : V2PoolState} {edge : Edge} {amountIn out : U256}
    (hfit : V2FeeTermsFit s edge amountIn)
    (h : simulateV2Swap s amountIn edge.zeroForOne (some edge.feeBps) = some out) :
    out.toNat ≤ (if edge.zeroForOne then s.reserve1 else s.reserve0).toNat := by
  rw [V2FeeTermsFit] at hfit
  rw [simulateV2Swap] at h
  cases hdir : edge.zeroForOne with
  | true =>
      rw [hdir] at hfit h
      exact getAmountOut_le hfit h
  | false =>
      rw [hdir] at hfit h
      exact getAmountOut_le hfit h

/-! ## Curve -/

/-- Scaling back by the rate undoes the scaling, wrapped or not. -/
lemma unscale_le {balance rate dy : U256} (h : dy.toNat ≤ (balance * rate / one18).toNat)
    (hrate : rate ≠ 0) : (dy * one18 / rate).toNat ≤ balance.toNat := by
  have hpos : 0 < rate.toNat := Nat.pos_of_ne_zero fun h0 => hrate (eq_zero_iff.mpr h0)
  rw [BitVec.toNat_udiv, BitVec.toNat_mul] at h
  have hmul := Nat.mul_le_of_le_div _ _ _ h
  rw [BitVec.toNat_udiv, BitVec.toNat_mul]
  refine Nat.div_le_of_le_mul ?_
  calc dy.toNat * one18.toNat % 2 ^ 256 ≤ dy.toNat * one18.toNat := Nat.mod_le _ _
    _ ≤ balance.toNat * rate.toNat % 2 ^ 256 := hmul
    _ ≤ balance.toNat * rate.toNat := Nat.mod_le _ _
    _ = rate.toNat * balance.toNat := Nat.mul_comm _ _

lemma unscale_one_le {balance dy : U256} (h : dy.toNat ≤ balance.toNat) :
    (dy * one18 / one18).toNat ≤ balance.toNat := by
  rw [BitVec.toNat_udiv, BitVec.toNat_mul]
  refine le_trans (Nat.div_le_of_le_mul ?_) h
  rw [Nat.mul_comm one18.toNat]
  exact Nat.mod_le _ _

lemma saturatingSub_le {a b c : U256} (h : a.toNat ≤ c.toNat) :
    (saturatingSub a b).toNat ≤ c.toNat := by
  rw [toNat_saturatingSub]
  exact le_trans (Nat.sub_le _ _) h

/-- A quote that is not refused has passed its guard. -/
lemma passed_guard {ε : Type} {c : Prop} [Decidable c] {rest : Run (Except ε U256)} {e : ε} {out : U256}
    (h : (if c then some (.error e) else rest) = some (.ok out)) : ¬ c ∧ rest = some (.ok out) := by
  by_cases hc : c
  · rw [if_pos hc] at h
    cases h
  · rw [if_neg hc] at h
    exact ⟨hc, h⟩

lemma tryCurveStableAmountOut_le {s : CurvePoolState} {amountIn out : U256} {i j : ℕ}
    (h : tryCurveStableAmountOut s amountIn i j = some (.ok out)) :
    out.toNat ≤ (s.balances.getD j 0).toNat := by
  rw [tryCurveStableAmountOut] at h
  rcases passed_guard h with ⟨-, h⟩
  rcases passed_guard h with ⟨hindices, h⟩
  rcases passed_guard h with ⟨-, h⟩
  cases hxp : toXp s.balances s.rates with
  | none =>
      rw [hxp] at h
      cases h
  | some xp =>
  rw [hxp] at h
  dsimp only at h
  split at h
  · cases h
  rename_i d _
  rw [Option.bind_eq_bind, Option.bind_eq_some_iff] at h
  rcases h with ⟨y, -, h⟩
  cases y with
  | none => cases h
  | some y =>
      rcases passed_guard h with ⟨-, h⟩
      rcases passed_guard h with ⟨-, h⟩
      rcases passed_guard h with ⟨hrate, h⟩
      rw [← Except.ok.inj (Option.some.inj h)]
      -- What is paid is part of the scaled output balance.
      have hdy : ∀ fee buffer : U256, (saturatingSub (saturatingSub
          (saturatingSub (saturatingSub (xp.getD j 0) y) 1) fee) buffer).toNat ≤
            (xp.getD j 0).toNat := fun fee buffer =>
        saturatingSub_le (saturatingSub_le (saturatingSub_le (saturatingSub_le le_rfl)))
      rw [toXp] at hxp
      split at hxp
      · cases hxp
      rename_i hlen
      split at hxp
      · rename_i hnil
        rw [hnil]
        rw [← Option.some.inj hxp] at hdy ⊢
        exact unscale_one_le (hdy _ _)
      · rename_i hrates
        have hlength : s.rates.length = s.balances.length := by
          by_contra hne
          exact hlen ⟨hrates, hne⟩
        have hj : j < s.balances.length := by
          rcases not_or.mp hindices with ⟨-, hrest⟩
          rcases not_or.mp hrest with ⟨-, hrest⟩
          rcases not_or.mp hrest with ⟨-, hj⟩
          omega
        have hslot : xp.getD j 0 = s.balances.getD j 0 * s.rates.getD j one18 / one18 := by
          rw [← Option.some.inj hxp]
          simp [List.getD, List.getElem?_zipWith, List.getElem?_eq_getElem hj,
            List.getElem?_eq_getElem (hlength ▸ hj)]
        refine unscale_le ?_ hrate
        rw [← hslot]
        exact hdy _ _

/-- The crypto quote pays a part of the scaled balance, whatever the solver returned. -/
lemma tryCurveCryptoAmountOut_le {s : CurvePoolState} {amountIn out : U256} {i j : ℕ}
    (h : tryCurveCryptoAmountOut s amountIn i j = some (.ok out)) :
    out.toNat ≤ (s.balances.getD j 0).toNat := by
  rw [tryCurveCryptoAmountOut] at h
  rcases passed_guard h with ⟨-, h⟩
  rcases passed_guard h with ⟨hindices, h⟩
  rcases passed_guard h with ⟨-, h⟩
  dsimp only at h
  generalize (if s.rates = [] then List.replicate s.nCoins one18 else s.rates) = rates at h
  rcases passed_guard h with ⟨hxp, h⟩
  rw [Option.bind_eq_bind, Option.bind_eq_some_iff] at h
  rcases h with ⟨d, -, h⟩
  cases d with
  | none => cases h
  | some d =>
      dsimp only at h
      rw [Option.bind_eq_bind, Option.bind_eq_some_iff] at h
      rcases h with ⟨y, -, h⟩
      rcases passed_guard h with ⟨-, h⟩
      rcases passed_guard h with ⟨-, h⟩
      rcases passed_guard h with ⟨hrate, h⟩
      rcases passed_guard h with ⟨-, h⟩
      rw [← Except.ok.inj (Option.some.inj h)]
      rcases not_or.mp hxp with ⟨-, hj⟩
      rcases not_or.mp hindices with ⟨-, hne⟩
      have hij : i ≠ j := fun heq => hne (Or.inr heq)
      rw [not_le, List.length_zipWith, lt_min_iff] at hj
      -- The input leg is another slot, so the output slot is still the scaled balance.
      have hslot : (List.zipWith (fun b r => b * r / one18) s.balances rates).getD j 0 =
          s.balances.getD j 0 * rates.getD j 0 / one18 := by
        simp [List.getD, List.getElem?_zipWith, List.getElem?_eq_getElem hj.1,
          List.getElem?_eq_getElem hj.2]
      refine saturatingSub_le (saturatingSub_le (unscale_le ?_ hrate))
      rw [List.getD_eq_getElem?_getD, List.getElem?_set_ne hij, ← List.getD_eq_getElem?_getD,
        hslot]
      exact saturatingSub_le le_rfl

lemma curveHopAmountOut_le {s : CurvePoolState} {protocol : ProtocolType} {amountIn out : U256}
    {i j : ℕ} (h : curveHopAmountOut s protocol amountIn i j = some (some out)) :
    out.toNat ≤ (s.balances.getD j 0).toNat := by
  have hkept : ∀ {q : U256}, (some (if q ≠ 0 then some q else none) : Run (Option U256)) =
      some (some out) → q = out := by
    intro q hq
    split at hq
    · exact Option.some.inj (Option.some.inj hq)
    · cases hq
  rw [curveHopAmountOut.eq_def] at h
  split at h
  · rw [Option.bind_eq_bind, Option.bind_eq_some_iff] at h
    rcases h with ⟨quote, hquote, h⟩
    cases quote with
    | error => cases h
    | ok q =>
        rw [hkept h] at hquote
        exact tryCurveStableAmountOut_le hquote
  · rw [Option.bind_eq_bind, Option.bind_eq_some_iff] at h
    rcases h with ⟨quote, hquote, h⟩
    cases quote with
    | error => cases h
    | ok q =>
        rw [hkept h] at hquote
        exact tryCurveCryptoAmountOut_le hquote
  · cases h

/-! ## Balancer and WooFi: compared with the balance -/

lemma capAtBalance_le (amountOut balance : U256) :
    (capAtBalance amountOut balance).toNat ≤ balance.toNat := by
  rw [capAtBalance]
  split
  · exact Nat.zero_le _
  · rename_i h
    rw [not_or, lt_iff] at h
    exact Nat.le_of_not_lt h.2

lemma withinReserve_le (reserve amount : U256) :
    (withinReserve reserve amount).toNat ≤ reserve.toNat := by
  rw [withinReserve]
  split
  · exact Nat.zero_le _
  · rename_i h
    rw [not_or, lt_iff] at h
    exact Nat.le_of_not_lt h.2

lemma weightedQuote_le (amountIn balIn balOut wIn wOut scaleIn scaleOut fee : U256) :
    ((weightedQuote amountIn balIn balOut wIn wOut scaleIn scaleOut fee).getD 0).toNat ≤
      balOut.toNat := by
  cases h : weightedQuote amountIn balIn balOut wIn wOut scaleIn scaleOut fee with
  | none => exact Nat.zero_le _
  | some out =>
      simp only [weightedQuote, Option.bind_eq_bind, Option.bind_eq_some_iff] at h
      rcases h with ⟨_, -, _, -, h⟩
      split at h
      · cases h
      simp only [Option.bind_eq_some_iff] at h
      rcases h with ⟨_, -, _, -, h⟩
      split at h
      · cases h
      split at h
      · cases h
      split at h
      · cases h
      simp only [Option.bind_eq_some_iff] at h
      rcases h with ⟨_, -, h⟩
      split at h
      · cases h
      rw [Option.getD_some, ← Option.some.inj h]
      exact capAtBalance_le _ _

lemma getBalancerWeightedAmountOut_le (s : BalancerPoolState) (amountIn : U256) (i j : ℕ) :
    (getBalancerWeightedAmountOut s amountIn i j).toNat ≤ (s.balances.getD j 0).toNat := by
  rw [getBalancerWeightedAmountOut]
  dsimp only
  repeat' split
  any_goals exact Nat.zero_le _
  exact weightedQuote_le _ _ _ _ _ _ _ _

/-- A guard that answers zero keeps any bound. -/
lemma le_of_guard {c : Prop} [Decidable c] {rest : Run U256} {out balance : U256}
    (hrest : rest = some out → out.toNat ≤ balance.toNat)
    (h : (if c then some 0 else rest) = some out) : out.toNat ≤ balance.toNat := by
  split at h
  · rw [← Option.some.inj h]
    exact Nat.zero_le _
  · exact hrest h

lemma getBalancerStableAmountOut_le {s : BalancerPoolState} {amountIn out : U256} {i j : ℕ}
    (h : getBalancerStableAmountOut s amountIn i j = some out) :
    out.toNat ≤ (s.balances.getD j 0).toNat := by
  rw [getBalancerStableAmountOut] at h
  -- Seven guards on the pool and the input, then the invariant.
  refine le_of_guard (le_of_guard (le_of_guard (le_of_guard (le_of_guard (le_of_guard
    (le_of_guard ?_)))))) h
  intro h
  rw [Option.bind_eq_bind, Option.bind_eq_some_iff] at h
  rcases h with ⟨invariant, -, h⟩
  refine le_of_guard (le_of_guard (le_of_guard ?_)) h
  intro h
  rw [← Option.some.inj h]
  exact capAtBalance_le _ _

lemma getBalancerLinearAmountOut_le (s : BalancerPoolState) (amountIn : U256) (i j : ℕ) :
    (getBalancerLinearAmountOut s amountIn i j).toNat ≤ (s.balances.getD j 0).toNat := by
  rw [getBalancerLinearAmountOut.eq_def]
  split
  · exact Nat.zero_le _
  dsimp only
  split
  · exact Nat.zero_le _
  split
  · exact Nat.zero_le _
  split
  · exact Nat.zero_le _
  split
  · exact Nat.zero_le _
  · rename_i hle
    exact Nat.le_of_not_lt (lt_iff.not.mp hle)

lemma simulateBalancerSwap_le {s : BalancerPoolState} {amountIn out : U256} {i j : ℕ}
    (h : simulateBalancerSwap s amountIn i j = some out) :
    out.toNat ≤ (s.balances.getD j 0).toNat := by
  rw [simulateBalancerSwap.eq_def] at h
  refine le_of_guard (le_of_guard ?_) h
  intro h
  split at h
  · rw [← Option.some.inj h]
    exact getBalancerWeightedAmountOut_le s amountIn i j
  · exact getBalancerStableAmountOut_le h
  · rw [← Option.some.inj h]
    exact getBalancerLinearAmountOut_le s amountIn i j

lemma woofiBaseToBase_le {s : WoofiPoolState} {sell buy : WoofiBaseTokenState}
    {amountIn out : U256} (h : woofiBaseToBase s sell buy amountIn = some out) :
    out.toNat ≤ buy.reserve.toNat := by
  rw [woofiBaseToBase] at h
  refine le_of_guard ?_ h
  intro h
  rw [Option.bind_eq_bind, Option.bind_eq_some_iff] at h
  rcases h with ⟨gross, -, h⟩
  refine le_of_guard ?_ h
  intro h
  rcases Option.bind_eq_some_iff.mp h with ⟨baseOut, -, h⟩
  rw [← Option.some.inj h]
  exact withinReserve_le _ _

lemma woofiBaseIdx_bind (s : WoofiPoolState) (idx : ℕ) :
    (woofiBaseIdx s idx).bind (s.baseStates[·]?) = s.baseStates[idx]? := by
  rw [woofiBaseIdx]
  split
  · rename_i hlen
    rw [List.getElem?_eq_none hlen]
    rfl
  · rfl

lemma woofiBaseIdx_isNone (s : WoofiPoolState) (idx : ℕ) :
    (woofiBaseIdx s idx).isNone = s.baseStates[idx]?.isNone := by
  rw [woofiBaseIdx]
  split
  · rename_i hlen
    rw [List.getElem?_eq_none hlen]
    rfl
  · rename_i hlen
    rw [List.getElem?_eq_getElem (not_le.mp hlen)]
    rfl

lemma getWoofiAmountOut_le {s : WoofiPoolState} {amountIn out : U256} {i j : ℕ}
    (h : getWoofiAmountOut s amountIn (woofiBaseIdx s i).isNone (woofiBaseIdx s j).isNone
      (woofiBaseIdx s i) (woofiBaseIdx s j) = some out) :
    out.toNat ≤ (woofiReserve s j).toNat := by
  rw [getWoofiAmountOut, woofiBaseIdx_bind, woofiBaseIdx_bind, woofiBaseIdx_isNone,
    woofiBaseIdx_isNone] at h
  rw [woofiReserve]
  refine le_of_guard ?_ h
  intro h
  cases hout : s.baseStates[j]? with
  | none =>
      -- The quote token is bought.
      cases hin : s.baseStates[i]? with
      | none =>
          simp only [hout, hin, Option.isNone_none, if_true] at h
          rw [← Option.some.inj h]
          exact Nat.zero_le _
      | some base =>
          simp only [hout, hin, Option.isNone_none, if_true] at h
          rcases Option.bind_eq_some_iff.mp h with ⟨gross, -, h⟩
          rw [← Option.some.inj h]
          exact withinReserve_le _ _
  | some buy =>
      cases hin : s.baseStates[i]? with
      | none =>
          simp only [hout, hin, Option.isNone_none, Option.isNone_some, if_true,
            Bool.false_eq_true, if_false] at h
          rcases Option.bind_eq_some_iff.mp h with ⟨baseOut, -, h⟩
          rw [← Option.some.inj h]
          exact withinReserve_le _ _
      | some sell =>
          simp only [hout, hin, Option.isNone_some, Bool.false_eq_true, if_false] at h
          exact woofiBaseToBase_le h

/-! ## DODO -/

lemma getD_zero_le {result : Option U256} {n : ℕ}
    (h : ∀ out, result = some out → out.toNat ≤ n) : (result.getD 0).toNat ≤ n := by
  cases hresult : result with
  | none => exact Nat.zero_le _
  | some out => exact h out hresult

lemma solveQuadraticAtOne_le (v0 v1 delta i : U256) :
    (solveQuadraticAtOne v0 v1 delta i).toNat ≤ v1.toNat := by
  rw [solveQuadraticAtOne.eq_def]
  dsimp only
  split
  · exact Nat.zero_le _
  rename_i temp _
  split
  · exact Nat.zero_le _
  · refine getD_zero_le ?_
    intro out hout
    rw [ofNatChecked_eq_some.mp hout]
    refine Nat.div_le_of_le_mul ?_
    rw [Nat.mul_comm]
    exact Nat.mul_le_mul_right _ (Nat.le_add_right _ _)

/-- The trade solver never asks for more than it starts from. -/
lemma solveQuadraticFunctionForTrade_le (v0 v1 delta i k : U256) :
    (solveQuadraticFunctionForTrade v0 v1 delta i k).toNat ≤ v1.toNat := by
  rw [solveQuadraticFunctionForTrade]
  split
  · exact Nat.zero_le _
  split
  · dsimp only
    split
    · exact le_rfl
    · rename_i hle
      exact Nat.le_of_not_lt (lt_iff.not.mp hle)
  split
  · exact solveQuadraticAtOne_le v0 v1 delta i
  refine getD_zero_le ?_
  intro out hresult
  simp only [Option.bind_eq_bind, Option.bind_eq_some_iff] at hresult
  rcases hresult with ⟨_, -, _, -, _, -, _, -, hout⟩
  rw [← Option.some.inj hout]
  split
  · exact Nat.zero_le _
  · rename_i hle
    rw [toNat_sub_of_le (Nat.le_of_not_lt (lt_iff.not.mp hle))]
    exact Nat.sub_le _ _

/-- Trading back to the target and past it pays the surplus, then part of the target. -/
lemma dodoTradeBack_le {backIn amountIn integral beyond reserve target : U256}
    (htarget : target.toNat ≤ reserve.toNat) (hbeyond : beyond.toNat ≤ target.toNat) :
    (dodoTradeBack backIn (saturatingSub reserve target) amountIn integral beyond).toNat ≤
      reserve.toNat := by
  have hsurplus : (saturatingSub reserve target).toNat = reserve.toNat - target.toNat :=
    toNat_saturatingSub reserve target
  rw [dodoTradeBack]
  split
  · rw [toNat_min]
    omega
  split
  · omega
  · have hlt := toNat_lt reserve
    rw [BitVec.toNat_add, hsurplus, Nat.mod_eq_of_lt (by omega)]
    omega

lemma getDodoGrossAmountOut_le {s : DodoPoolState} (hs : DodoTargetsOk s) (amountIn : U256)
    (baseToQuote : Bool) : (getDodoGrossAmountOut s amountIn baseToQuote).toNat ≤
      (if baseToQuote = true then s.quoteReserve else s.baseReserve).toNat := by
  rw [DodoTargetsOk] at hs
  rw [getDodoGrossAmountOut.eq_def]
  dsimp only
  split
  · exact Nat.zero_le _
  split
  · exact Nat.zero_le _
  cases hr : s.rState with
  | one =>
      rw [hr] at hs
      cases baseToQuote with
      | true => exact le_trans (solveQuadraticFunctionForTrade_le _ _ _ _ _) (le_iff.mp hs.2)
      | false => exact le_trans (solveQuadraticFunctionForTrade_le _ _ _ _ _) (le_iff.mp hs.1)
  | aboveOne =>
      rw [hr] at hs
      cases baseToQuote with
      | true => exact dodoTradeBack_le (le_iff.mp hs) (solveQuadraticFunctionForTrade_le _ _ _ _ _)
      | false => exact solveQuadraticFunctionForTrade_le _ _ _ _ _
  | belowOne =>
      rw [hr] at hs
      cases baseToQuote with
      | true => exact solveQuadraticFunctionForTrade_le _ _ _ _ _
      | false => exact dodoTradeBack_le (le_iff.mp hs) (solveQuadraticFunctionForTrade_le _ _ _ _ _)

lemma mulDown_le (a b : U256) : (mulDown a b).toNat ≤ a.toNat * b.toNat / one18.toNat := by
  rw [mulDown.eq_def]
  split
  · rename_i product hproduct
    rw [BitVec.toNat_udiv, checkedMul_eq_some.mp hproduct]
  · rw [truncate256, BitVec.toNat_ofNat]
    exact Nat.mod_le _ _

/-- Two fee shares that add up to less than the whole leave something of the gross amount. -/
lemma feeShares_le (gross : ℕ) {lp mt one : ℕ} (h : lp + mt < one) :
    gross * lp / one + gross * mt / one ≤ gross := by
  have hone : 0 < one := Nat.lt_of_le_of_lt (Nat.zero_le _) h
  calc gross * lp / one + gross * mt / one ≤ (gross * lp + gross * mt) / one :=
        Nat.div_add_div_le_add_div
    _ = gross * (lp + mt) / one := by rw [Nat.mul_add]
    _ ≤ gross * one / one := Nat.div_le_div_right (Nat.mul_le_mul_left gross h.le)
    _ = gross := Nat.mul_div_cancel gross hone

lemma getDodoAmountOut_le {s : DodoPoolState} (hs : DodoTargetsOk s) (amountIn : U256)
    (baseToQuote : Bool) : (getDodoAmountOut s amountIn baseToQuote).toNat ≤
      (if baseToQuote = true then s.quoteReserve else s.baseReserve).toNat := by
  have hgross := getDodoGrossAmountOut_le hs amountIn baseToQuote
  rw [getDodoAmountOut]
  generalize getDodoGrossAmountOut s amountIn baseToQuote = gross at hgross ⊢
  refine le_trans ?_ hgross
  split
  · exact Nat.zero_le _
  split
  · exact Nat.zero_le _
  · rename_i hfees
    rcases not_or.mp hfees with ⟨-, hfees⟩
    rcases not_or.mp hfees with ⟨-, hsum⟩
    rw [le_iff, toNat_saturatingAdd, toNat_one18] at hsum
    have hshares := feeShares_le gross.toNat
      (show s.lpFeeRate.toNat + s.mtFeeRate.toNat < one18.toNat by rw [toNat_one18]; omega)
    have hlp := mulDown_le gross s.lpFeeRate
    have hmt := mulDown_le gross s.mtFeeRate
    rw [toNat_sub_of_le, toNat_sub_of_le]
    · omega
    · omega
    · rw [toNat_sub_of_le] <;> omega

/-! ## The hop -/

lemma nonzeroHop_eq_ok {gas : ℕ} {out : U256} {r : HopResult} (h : nonzeroHop gas out = .ok r) :
    r.amountOut = out := by
  rw [nonzeroHop] at h
  split at h
  · cases h
  · cases h
    rfl

section Hop

variable {state : PoolState} {edge : Edge} {amountIn cap : U256} {r : HopResult} {balance : U256}

lemma simulateHopByFamily_le (hbalance : outputBalance state edge = some balance)
    (hv2 : ∀ s, state = .v2 s → V2FeeTermsFit s edge amountIn)
    (hdodo : ∀ s, state = .dodo s → DodoTargetsOk s)
    (h : simulateHopByFamily state edge amountIn cap = some (.ok r)) :
    r.amountOut.toNat ≤ balance.toNat := by
  rw [simulateHopByFamily.eq_def] at h
  split at h
  · rename_i s _
    split at h
    · cases h
    rcases Option.map_eq_some_iff.mp h with ⟨out, hout, hr⟩
    cases hr
    rw [← Option.some.inj hbalance]
    exact simulateV2Swap_le (hv2 s rfl) hout
  · cases hbalance
  · cases hbalance
  · rcases Option.map_eq_some_iff.mp h with ⟨out, hout, hr⟩
    cases out with
    | none => cases hr
    | some out =>
        cases hr
        rw [← Option.some.inj hbalance]
        exact curveHopAmountOut_le hout
  · rcases Option.map_eq_some_iff.mp h with ⟨out, hout, hr⟩
    cases out with
    | none => cases hr
    | some out =>
        cases hr
        rw [← Option.some.inj hbalance]
        exact curveHopAmountOut_le hout
  · rcases Option.map_eq_some_iff.mp h with ⟨out, hout, hr⟩
    rw [nonzeroHop_eq_ok hr, ← Option.some.inj hbalance]
    exact simulateBalancerSwap_le hout
  · rename_i s _
    rw [nonzeroHop_eq_ok (Option.some.inj h), ← Option.some.inj hbalance]
    have hle := getDodoAmountOut_le (hdodo s rfl) amountIn (edge.tokenInIdx = 0)
    simpa only [decide_eq_true_eq] using hle
  · rcases Option.map_eq_some_iff.mp h with ⟨out, hout, hr⟩
    rw [nonzeroHop_eq_ok hr, ← Option.some.inj hbalance]
    exact getWoofiAmountOut_le hout
  · cases h

/-- A quote is at most what the pool holds of the token it buys. -/
theorem simulateHop_le_outputBalance (hbalance : outputBalance state edge = some balance)
    (hv2 : ∀ s, state = .v2 s → V2FeeTermsFit s edge amountIn)
    (hdodo : ∀ s, state = .dodo s → DodoTargetsOk s)
    (h : simulateHop state edge amountIn cap = some (.ok r)) : r.amountOut ≤ balance := by
  rw [le_iff]
  rw [simulateHop] at h
  split at h
  · cases h
    exact Nat.zero_le _
  split at h
  · cases h
  · exact simulateHopByFamily_le hbalance hv2 hdodo h

/-- A V2 pool at the usual fee pays less than its reserve. -/
theorem simulateHop_le_outputBalance_v2 :
    ∃ r, simulateHop (.v2 ⟨1000, 1000, 997, 1000, 0⟩) ⟨0, 0, 1, 0, 1, .uniswapV2, 30, true⟩ 100
        maxValue = some (.ok r) ∧ r.amountOut ≤ 1000 := by
  refine ⟨⟨90, gasV2Hop⟩, by decide, ?_⟩
  refine @simulateHop_le_outputBalance (.v2 ⟨1000, 1000, 997, 1000, 0⟩)
    ⟨0, 0, 1, 0, 1, .uniswapV2, 30, true⟩ 100 maxValue _ _ rfl ?_ ?_ ?_
  · rintro s ⟨⟩
    exact feeTermsFit_of_le (by decide) (by decide)
  · rintro s ⟨⟩
  · decide

/-- One third of the word as the fee denominator: three times it carries out of the denominator, and
a reserve of one is quoted a twelfth of the word. -/
theorem simulateHop_v2_carry :
    let pool : V2PoolState := ⟨2, 1, maxValue / 3 + 1, maxValue / 3 + 2, 0⟩
    let edge : Edge := ⟨0, 0, 1, 0, 1, .uniswapV2, 30, true⟩
    ¬ ∀ r balance, outputBalance (.v2 pool) edge = some balance →
      simulateHop (.v2 pool) edge 1 maxValue = some (.ok r) → r.amountOut ≤ balance := by
  intro pool edge hbound
  have hquote : simulateHop (.v2 pool) edge 1 maxValue =
      some (.ok ⟨(maxValue / 3 + 1) / 4, gasV2Hop⟩) := by decide
  exact absurd (hbound _ _ rfl hquote) (by decide)

end Hop

end PolygonArb

import PolygonArb.Pipeline.SimSanity
import PolygonArb.Services.ProfitExact

/-!
# The sanity checks over the unbounded integers

What `check_sim_sanity` and `check_sim_sanity_for_dispatch` let through, as naturals
(`checkSimSanity_eq_ok`, `checkSimSanityForDispatch_eq_ok`).

The ratio check fails closed: a bound that overflows rejects.  The MATIC check does not: when the
product of profit and rate overflows there is nothing to compare, and the input passes.  So an
insane profit is rejected except where that product overflows and no other check rejects
(`simSanity_failsClosed_iff`).
-/

namespace PolygonArb

open Word

section Limits

variable (input : SimSanityInput)

/-- The profit is above the largest believable multiple of the amount. -/
def ExceedsRatio : Prop :=
  input.amountIn.toNat * maxSaneProfitRatioBps.toNat / 10000 < input.grossProfit.toNat

/-- The rate is usable and the profit in MATIC is beyond belief. -/
def ExceedsMatic : Prop :=
  minTokenToMaticRate ≤ input.tokenToMaticRate ∧
    maxSaneProfitMaticWei.toNat <
      input.grossProfit.toNat * input.tokenToMaticRate.toNat / 10 ^ input.tokenDecimals.toNat

/-- The amount is below the economic floor and is not a probe of a pool without ticks. -/
def BelowFloor : Prop :=
  input.amountIn < minEconomicAmountIn input.tokenDecimals input.tokenToMaticRate ∧
    input.amountIn < spotProbeForDecimals input.tokenDecimals.toNat

instance decidableBelowFloor : Decidable (BelowFloor input) := inferInstanceAs (Decidable (_ ∧ _))

/-- Both checks return an error whenever one of the two limits is exceeded. -/
def SanityFailsClosed : Prop :=
  ExceedsRatio input ∨ ExceedsMatic input →
    (∃ reason, checkSimSanity input = .error reason) ∧
      ∃ reason, checkSimSanityForDispatch input = .error reason

/-- The conversion to MATIC overflows, at a usable rate. -/
def MaticOverflows : Prop :=
  minTokenToMaticRate ≤ input.tokenToMaticRate ∧
    2 ^ 256 ≤ input.grossProfit.toNat * input.tokenToMaticRate.toNat

/-- A check before the conversion rejects the input: decimals, amount, ratio or floor. -/
def RejectedBefore : Prop :=
  maxSupportedTokenDecimals < input.tokenDecimals.toNat ∨ input.amountIn = 0 ∨
    2 ^ 256 ≤ input.amountIn.toNat * maxSaneProfitRatioBps.toNat ∨ ExceedsRatio input ∨
      BelowFloor input

end Limits

/-! ## What passes -/

section Passes

variable {input : SimSanityInput}

lemma exists_error_iff {ε : Type} {x : Except ε Unit} : (∃ reason, x = .error reason) ↔ ¬ x = .ok () := by
  cases x <;> simp

lemma checkSimSanityFast_eq_ok :
    checkSimSanityFast input = .ok () ↔
      input.tokenDecimals.toNat ≤ maxSupportedTokenDecimals ∧ input.amountIn ≠ 0 ∧
        input.amountIn.toNat * maxSaneProfitRatioBps.toNat < 2 ^ 256 ∧ ¬ ExceedsRatio input := by
  rw [checkSimSanityFast]
  split_ifs with hd h0
  · simp [hd]
  · simp [h0]
  · cases hmul : checkedMul input.amountIn maxSaneProfitRatioBps with
    | none =>
        have := checkedMul_eq_none.1 hmul
        simp only [reduceCtorEq, false_iff]
        omega
    | some value =>
        have hvalue := checkedMul_eq_some.1 hmul
        have hlt := toNat_lt value
        have hratio : value / bpsScale < input.grossProfit ↔ ExceedsRatio input := by
          rw [ExceedsRatio, lt_iff, BitVec.toNat_udiv, hvalue, toNat_bpsScale]
        rw [hvalue] at hlt
        simp only [hratio, hlt, h0, not_lt.mp hd, ite_eq_right_iff, reduceCtorEq, imp_false, ne_eq,
          not_false_eq_true, true_and]

/-- The MATIC check passes a profit within the limit, and one it cannot convert. -/
lemma insaneProfitMatic_eq_false (hd : input.tokenDecimals.toNat ≤ maxSupportedTokenDecimals) :
    insaneProfitMatic input = false ↔ (ExceedsMatic input → MaticOverflows input) := by
  rw [insaneProfitMatic]
  split_ifs with hrate
  · have hrate' : ¬ minTokenToMaticRate ≤ input.tokenToMaticRate := by
      rw [le_iff, not_le]
      exact lt_iff.1 hrate
    simp [ExceedsMatic, hrate']
  · have hrate' : minTokenToMaticRate ≤ input.tokenToMaticRate := by
      rw [le_iff, ← not_lt]
      exact fun h => hrate (lt_iff.2 h)
    simp only [ExceedsMatic, MaticOverflows, hrate', true_and]
    cases hmul : checkedMul input.grossProfit input.tokenToMaticRate with
    | none => exact iff_of_true rfl fun _ => checkedMul_eq_none.1 hmul
    | some v =>
        have hv := checkedMul_eq_some.1 hmul
        have hlt := toNat_lt v
        rw [hv] at hlt
        rw [decide_eq_false_iff_not, lt_iff, BitVec.toNat_udiv, hv, toNat_tenPowU256 hd]
        omega

lemma not_rejectedBefore (h : ¬ RejectedBefore input) :
    checkSimSanityFast input = .ok () ∧ ¬ BelowFloor input := by
  simp only [RejectedBefore, not_or, not_lt, not_le] at h
  exact ⟨checkSimSanityFast_eq_ok.mpr ⟨h.1, h.2.1, h.2.2.1, h.2.2.2.1⟩, h.2.2.2.2⟩

/-- The checks after the fast ones. -/
lemma checkSimSanity_of_fast (h : checkSimSanityFast input = .ok ()) :
    checkSimSanity input =
      if BelowFloor input then .error .amountBelowEconomicFloor
      else if insaneProfitMatic input then .error .insaneProfitMatic
      else if minEconomicAmountIn input.tokenDecimals input.tokenToMaticRate ≤ input.amountIn ∧
          optimizerPinnedAtFloor input = true then .error .optimizerPinnedAtFloor
      else .ok () := by
  rw [checkSimSanity, h]
  by_cases hfloor : input.amountIn < minEconomicAmountIn input.tokenDecimals input.tokenToMaticRate
  · have hle : ¬ minEconomicAmountIn input.tokenDecimals input.tokenToMaticRate ≤ input.amountIn := by
      rwa [BitVec.not_le]
    by_cases hprobe : input.amountIn < spotProbeForDecimals input.tokenDecimals.toNat
    · have hprobe' : ¬ spotProbeForDecimals input.tokenDecimals.toNat ≤ input.amountIn := by
        rwa [BitVec.not_le]
      simp [BelowFloor, hfloor, hprobe, hprobe', bind, Except.bind]
    · have hprobe' : spotProbeForDecimals input.tokenDecimals.toNat ≤ input.amountIn := by
        rwa [BitVec.not_lt] at hprobe
      simp [BelowFloor, hfloor, hprobe, hprobe', hle, bind, Except.bind]
  · have hle : minEconomicAmountIn input.tokenDecimals input.tokenToMaticRate ≤ input.amountIn := by
      rwa [BitVec.not_lt] at hfloor
    simp [BelowFloor, hfloor, hle, bind, Except.bind]

/-- Past the other checks, only the pin is left. -/
lemma checkSimSanity_of_passed (h : ¬ RejectedBefore input) (hm : insaneProfitMatic input = false) :
    checkSimSanity input =
      if minEconomicAmountIn input.tokenDecimals input.tokenToMaticRate ≤ input.amountIn ∧
          optimizerPinnedAtFloor input = true then .error .optimizerPinnedAtFloor
      else .ok () := by
  rcases not_rejectedBefore h with ⟨hfast, hfloor⟩
  rw [checkSimSanity_of_fast hfast, if_neg hfloor, hm]
  rfl

/-- What another check rejects is not reported as pinned. -/
lemma checkSimSanity_of_rejected (h : RejectedBefore input ∨ insaneProfitMatic input = true) :
    ∃ reason, checkSimSanity input = .error reason ∧ reason ≠ .optimizerPinnedAtFloor := by
  cases hfast : checkSimSanityFast input with
  | error reason =>
      refine ⟨reason, by rw [checkSimSanity, hfast]; rfl, ?_⟩
      rintro rfl
      revert hfast
      rw [checkSimSanityFast]
      cases checkedMul input.amountIn maxSaneProfitRatioBps <;> dsimp only <;> split_ifs <;> simp
  | ok u =>
      rw [checkSimSanity_of_fast hfast]
      by_cases hfloor : BelowFloor input
      · exact ⟨_, if_pos hfloor, by simp⟩
      · rcases h with hbefore | hm
        · rcases checkSimSanityFast_eq_ok.mp hfast with ⟨hd, h0, hmul, hratio⟩
          exfalso
          rcases hbefore with h | h | h | h | h
          · omega
          · exact h0 h
          · omega
          · exact hratio h
          · exact hfloor h
        · rw [if_neg hfloor, if_pos hm]
          exact ⟨_, rfl, by simp⟩

lemma checkSimSanity_eq_ok :
    checkSimSanity input = .ok () ↔
      ¬ RejectedBefore input ∧ insaneProfitMatic input = false ∧
        (minEconomicAmountIn input.tokenDecimals input.tokenToMaticRate ≤ input.amountIn →
          optimizerPinnedAtFloor input = false) := by
  by_cases h : RejectedBefore input ∨ insaneProfitMatic input = true
  · rcases checkSimSanity_of_rejected h with ⟨reason, hreason, -⟩
    rw [hreason]
    simp only [reduceCtorEq, false_iff]
    rintro ⟨hbefore, hm, -⟩
    simp [hbefore, hm] at h
  · simp only [not_or, Bool.not_eq_true] at h
    rw [checkSimSanity_of_passed h.1 h.2]
    simp [h.1, h.2]

/-- The retry drops the pin and nothing else. -/
lemma checkSimSanityForDispatch_eq_ok :
    checkSimSanityForDispatch input = .ok () ↔
      ¬ RejectedBefore input ∧ insaneProfitMatic input = false := by
  rw [checkSimSanityForDispatch]
  by_cases h : RejectedBefore input ∨ insaneProfitMatic input = true
  · rcases checkSimSanity_of_rejected h with ⟨reason, hreason, hne⟩
    rw [hreason]
    cases reason <;> first | exact absurd rfl hne | skip
    all_goals
      simp only [reduceCtorEq, false_iff]
      rintro ⟨hbefore, hm⟩
      simp [hbefore, hm] at h
  · simp only [not_or, Bool.not_eq_true] at h
    have hretry : checkSimSanity { input with searchLow := 0 } = .ok () :=
      checkSimSanity_eq_ok.mpr ⟨h.1, h.2, fun _ => rfl⟩
    rw [checkSimSanity_of_passed h.1 h.2]
    split_ifs with hpin
    · exact iff_of_true hretry h
    · exact iff_of_true rfl h

/-- A product beyond 256 bits is beyond belief at every supported precision. -/
lemma exceedsMatic_of_overflows (hd : input.tokenDecimals.toNat ≤ maxSupportedTokenDecimals)
    (h : MaticOverflows input) : ExceedsMatic input := by
  refine ⟨h.1, ?_⟩
  have hpow : 10 ^ input.tokenDecimals.toNat ≤ 10 ^ 30 := Nat.pow_le_pow_right (by norm_num) hd
  rw [Nat.lt_iff_add_one_le, Nat.le_div_iff_mul_le (by positivity)]
  calc (maxSaneProfitMaticWei.toNat + 1) * 10 ^ input.tokenDecimals.toNat
      ≤ (maxSaneProfitMaticWei.toNat + 1) * 10 ^ 30 := Nat.mul_le_mul_left _ hpow
    _ ≤ 2 ^ 256 := by decide
    _ ≤ input.grossProfit.toNat * input.tokenToMaticRate.toNat := h.2

/-- A limit is exceeded and an input passes only where the conversion overflows and no check before
it rejects. -/
theorem simSanity_failsClosed_iff (input : SimSanityInput) :
    SanityFailsClosed input ↔ ¬ MaticOverflows input ∨ RejectedBefore input := by
  rw [SanityFailsClosed, exists_error_iff, exists_error_iff, checkSimSanity_eq_ok,
    checkSimSanityForDispatch_eq_ok]
  by_cases hbefore : RejectedBefore input
  · simp [hbefore]
  have hd : input.tokenDecimals.toNat ≤ maxSupportedTokenDecimals :=
    not_lt.mp fun h => hbefore (.inl h)
  have hratio : ¬ ExceedsRatio input := fun h => hbefore (.inr (.inr (.inr (.inl h))))
  simp only [hbefore, hratio, false_or, or_false, not_false_eq_true, true_and,
    insaneProfitMatic_eq_false hd]
  constructor
  · intro h hover
    exact (h (exceedsMatic_of_overflows hd hover)).2 fun _ => hover
  · rintro hover hmatic
    exact ⟨fun h => hover (h.1 hmatic), fun h => hover (h hmatic)⟩

/-- A profit of `2 ^ 200` wei on the same amount, at one MATIC a token. -/
def vastProfit : SimSanityInput where
  amountIn := 1#256 <<< 200
  grossProfit := 1#256 <<< 200
  searchLow := 0
  tokenDecimals := 18#8
  tokenToMaticRate := one18

/-- It is far above the limit, and both checks let it pass. -/
theorem simSanity_vastProfit :
    ExceedsMatic vastProfit ∧ checkSimSanity vastProfit = .ok () ∧
      checkSimSanityForDispatch vastProfit = .ok () :=
  ⟨by rw [ExceedsMatic]; decide, by rfl, by rfl⟩

end Passes

end PolygonArb

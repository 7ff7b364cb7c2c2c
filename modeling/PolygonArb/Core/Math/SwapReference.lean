import PolygonArb.Core.Math.UniswapV3

/-!
# The exact-input loop the swap walk stands for

The reference is the pool's own loop: the step lets a product of the fee split round to nothing, no sum
saturates, no round is skipped for want of liquidity and no bound is put on their number.  It fails where the
pool would revert, and where the loaded ticks end.  `ReferenceFills` says that it consumes an input, and
which rounds it takes.

`simulate_v3_swap` declines three kinds of round on purpose: one whose remainder is all fee (`mul_div` takes
a zero product of nonzero factors for a failure), one with no liquidity or more than an `i128` holds, and the
five hundred and first.  Each leaves a remainder and so the shallow flag.  On every other round it agrees
with the reference (`walkStep_of_reference`).

Selling token zero, the walk looks for the next tick strictly below its own; a run that stands on an
initialised tick is left out.
-/

namespace PolygonArb

open Word Loop

/-- A swap step whose fee split may round to nothing, and whose fee is the exact rest. -/
def referenceSwapStep (sqrtRatioCurrentX96 sqrtRatioTargetX96 liquidity amountRemaining
    feePips : U256) : Option SwapStepResult := do
  let zeroForOne := sqrtRatioTargetX96 ≤ sqrtRatioCurrentX96
  let amountRemainingLessFee ← mulDivFloor amountRemaining (feePipsScale - feePips) feePipsScale
  let amountIn ←
    (if zeroForOne then getAmount0Delta sqrtRatioTargetX96 sqrtRatioCurrentX96 liquidity true
      else getAmount1Delta sqrtRatioCurrentX96 sqrtRatioTargetX96 liquidity true)
  let sqrtRatioNextX96 ←
    (if amountIn ≤ amountRemainingLessFee then some sqrtRatioTargetX96
      else getNextSqrtPriceFromInput sqrtRatioCurrentX96 liquidity amountRemainingLessFee
        zeroForOne)
  let targetReached := sqrtRatioTargetX96 = sqrtRatioNextX96
  let actualIn ←
    (if targetReached then some amountIn
      else if zeroForOne then getAmount0Delta sqrtRatioNextX96 sqrtRatioCurrentX96 liquidity true
      else getAmount1Delta sqrtRatioCurrentX96 sqrtRatioNextX96 liquidity true)
  let actualOut ←
    (if zeroForOne then getAmount1Delta sqrtRatioNextX96 sqrtRatioCurrentX96 liquidity false
      else getAmount0Delta sqrtRatioCurrentX96 sqrtRatioNextX96 liquidity false)
  let feeAmount ←
    (if targetReached then mulDivCeil actualIn feePips (feePipsScale - feePips)
      else checkedSub amountRemaining actualIn)
  some ⟨sqrtRatioNextX96, actualIn, actualOut, feeAmount⟩

/-- The state of the pool's loop. -/
structure ReferenceState where
  price : U256
  tick : ℤ
  liquidity : ℤ
  remaining : U256
  out : U256
  deriving DecidableEq

namespace V3SwapContext

variable (cx : V3SwapContext)

/-- The next initialised tick: at or below the current one, or above it. -/
def referenceNextTick (tick : ℤ) : Option V3Tick :=
  if cx.zeroForOne then (cx.ticks.filter fun t => t.tick ≤ tick).getLast?
  else cx.ticks.find? fun t => tick < t.tick

/-- Liquidity after crossing a tick. -/
def referenceLiquidity (liquidity : ℤ) (next : V3Tick) : ℤ :=
  if cx.zeroForOne then liquidity - next.liquidityNet else liquidity + next.liquidityNet

/-- Tick after crossing a tick. -/
def referenceTick (next : V3Tick) : ℤ := if cx.zeroForOne then next.tick - 1 else next.tick

/-- One round of the pool's loop; nothing where it reverts or has no next tick. -/
def referenceStep (s : ReferenceState) : Option ReferenceState := do
  let next ← cx.referenceNextTick s.tick
  let priceNext ← getSqrtRatioAtTick next.tick
  let target :=
    if cx.zeroForOne then max priceNext cx.sqrtPriceLimitX96 else min priceNext cx.sqrtPriceLimitX96
  let step ← referenceSwapStep s.price target (BitVec.ofNat 256 s.liquidity.toNat) s.remaining
    cx.feePips
  let spent ← checkedAdd step.amountIn step.feeAmount
  let remaining ← checkedSub s.remaining spent
  let out ← checkedAdd s.out step.amountOut
  if step.sqrtRatioNextX96 = priceNext then
    let liquidity := cx.referenceLiquidity s.liquidity next
    if 0 ≤ liquidity ∧ liquidity < 2 ^ 128 then
      some ⟨priceNext, cx.referenceTick next, liquidity, remaining, out⟩
    else none
  else do
    let tick ← getTickAtSqrtRatioInRange step.sqrtRatioNextX96 minTick maxTick
    some ⟨step.sqrtRatioNextX96, tick, s.liquidity, remaining, out⟩

/-- The pool's loop consumes the input from `s` on, by a round at each state of the list, and pays `out`. -/
inductive ReferenceFills : ReferenceState → List ReferenceState → U256 → Prop
  | done {s : ReferenceState} (hspent : s.remaining = 0) : ReferenceFills s [] s.out
  | round {s s' : ReferenceState} {rounds : List ReferenceState} {out : U256}
      (hleft : s.remaining ≠ 0) (hlimit : s.price ≠ cx.sqrtPriceLimitX96)
      (hstep : cx.referenceStep s = some s') (hrest : ReferenceFills s' rounds out) :
      ReferenceFills s (s :: rounds) out

/-- The rounds the simulation takes: something is left after the fee, and there is liquidity that an `i128`
holds. -/
def Accepted (s : ReferenceState) : Prop :=
  0 < lessFee cx.feePips s.remaining ∧ 0 < s.liquidity ∧ s.liquidity < 2 ^ 127

end V3SwapContext

/-- The pool's loop before its first round. -/
def referenceStart (s : ConcentratedLiquidityPoolState) (amountIn : U256) : ReferenceState :=
  ⟨s.sqrtPriceX96, s.tick, s.liquidity, amountIn, 0⟩

/-! ## One step -/

section Step

variable {p t l fee r : U256} {st : SwapStepResult}

/-- The fee split of the reference. -/
lemma mulDivFloor_lessFee (hfee : fee.toNat < 1000000) {c : U256}
    (h : mulDivFloor r (feePipsScale - fee) feePipsScale = some c) : c.toNat = lessFee fee r := by
  rw [(mulDivFloor_eq_some.mp h).2, toNat_feePipsScale_sub hfee, toNat_feePipsScale]
  rfl

/-- Where something is left after the fee the two steps are one. -/
lemma computeSwapStep_of_reference (hfee : fee.toNat < 1000000) (hr : r ≠ 0)
    (hpos : 0 < lessFee fee r) (h : referenceSwapStep p t l r fee = some st) :
    computeSwapStep p t l r fee = some st := by
  rw [referenceSwapStep] at h
  rcases Option.bind_eq_some_iff.mp h with ⟨c, hc, h⟩
  have hvalue := mulDivFloor_lessFee hfee hc
  have hsplit : mulDiv r (feePipsScale - fee) feePipsScale = some c :=
    (mulDiv_lessFee hfee hr).mpr ⟨hvalue, by omega⟩
  rcases Option.bind_eq_some_iff.mp h with ⟨amountIn, hamountIn, h⟩
  rcases Option.bind_eq_some_iff.mp h with ⟨next, hnext, h⟩
  rcases Option.bind_eq_some_iff.mp h with ⟨actualIn, hactualIn, h⟩
  rcases Option.bind_eq_some_iff.mp h with ⟨actualOut, hactualOut, h⟩
  rcases Option.bind_eq_some_iff.mp h with ⟨feeAmount, hfeeAmount, h⟩
  have hfeeStep : (if t = next then mulDivRoundingUp actualIn fee (feePipsScale - fee)
      else some (saturatingSub r actualIn)) = some feeAmount := by
    rw [← hfeeAmount, mulDivRoundingUp_eq_mulDivCeil]
    split_ifs at hfeeAmount ⊢ with hreached
    · rfl
    · rw [saturatingSub, hfeeAmount]
      rfl
  rw [computeSwapStep, hsplit]
  refine Option.bind_eq_some_iff.mpr ⟨c, rfl, ?_⟩
  refine Option.bind_eq_some_iff.mpr ⟨amountIn, hamountIn, ?_⟩
  refine Option.bind_eq_some_iff.mpr ⟨next, hnext, ?_⟩
  refine Option.bind_eq_some_iff.mpr ⟨actualIn, hactualIn, ?_⟩
  refine Option.bind_eq_some_iff.mpr ⟨actualOut, hactualOut, ?_⟩
  exact Option.bind_eq_some_iff.mpr ⟨feeAmount, hfeeStep, h⟩

/-- A remainder that is all fee is declined. -/
lemma computeSwapStep_of_dust (hfee : fee.toNat < 1000000) (hr : r ≠ 0)
    (hdust : lessFee fee r = 0) : computeSwapStep p t l r fee = none := by
  cases hstep : computeSwapStep p t l r fee with
  | none => rfl
  | some st => exact absurd (lessFee_pos hfee hr hstep) (by omega)

/-- A step that stops short of its target spends everything it was given. -/
lemma reference_spends (h : referenceSwapStep p t l r fee = some st)
    (hshort : st.sqrtRatioNextX96 ≠ t) :
    st.feeAmount.toNat + st.amountIn.toNat = r.toNat := by
  rw [referenceSwapStep] at h
  rcases Option.bind_eq_some_iff.mp h with ⟨c, -, h⟩
  rcases Option.bind_eq_some_iff.mp h with ⟨amountIn, -, h⟩
  rcases Option.bind_eq_some_iff.mp h with ⟨next, -, h⟩
  rcases Option.bind_eq_some_iff.mp h with ⟨actualIn, -, h⟩
  rcases Option.bind_eq_some_iff.mp h with ⟨actualOut, -, h⟩
  rcases Option.bind_eq_some_iff.mp h with ⟨feeAmount, hfeeAmount, h⟩
  obtain rfl := Option.some.inj h
  rw [if_neg fun heq => hshort heq.symm] at hfeeAmount
  exact checkedSub_eq_some.mp hfeeAmount

end Step

/-! ## The next tick -/

lemma findIdx_congr_mem {α : Type*} {p q : α → Bool} {l : List α} (h : ∀ a ∈ l, p a = q a) :
    l.findIdx p = l.findIdx q := by
  induction l with
  | nil => rfl
  | cons a l ih =>
      rw [List.findIdx_cons, List.findIdx_cons, h a List.mem_cons_self,
        ih fun b hb => h b (List.mem_cons_of_mem _ hb)]

/-- In sorted ticks the last one at or below `c` stands right before the first one above it. -/
lemma getLast?_filter_le {ticks : List V3Tick} (hsorted : ticks.Pairwise fun t u => t.tick ≤ u.tick)
    (c : ℤ) :
    (ticks.filter fun t => t.tick ≤ c).getLast? =
      if 0 < ticks.findIdx (fun t => c < t.tick) then
        ticks[ticks.findIdx (fun t => c < t.tick) - 1]?
      else none := by
  induction ticks with
  | nil => rfl
  | cons t ticks ih =>
      have htail := ih hsorted.of_cons
      rw [List.findIdx_cons]
      by_cases hbeyond : c < t.tick
      · have hempty : (t :: ticks).filter (fun t => t.tick ≤ c) = [] := by
          refine List.filter_eq_nil_iff.mpr fun u hu => ?_
          have hle : t.tick ≤ u.tick := by
            rcases List.mem_cons.mp hu with rfl | hu
            · exact le_rfl
            · exact List.rel_of_pairwise_cons hsorted hu
          simp only [decide_eq_true_eq, not_le]
          omega
        rw [hempty, decide_eq_true hbeyond]
        rfl
      · rw [List.filter_cons_of_pos (by simpa using not_lt.mp hbeyond), decide_eq_false hbeyond,
          List.getLast?_cons, htail]
        simp only [cond_false, Nat.succ_pos, if_true, Nat.add_sub_cancel]
        set i := ticks.findIdx fun t => c < t.tick with hi
        by_cases hfirst : 0 < i
        · have hlt : i - 1 < ticks.length := by
            have hle := @List.findIdx_le_length _ (fun t : V3Tick => decide (c < t.tick)) ticks
            omega
          rw [if_pos hfirst, List.getElem?_eq_getElem hlt, Option.getD_some,
            List.getElem?_cons, if_neg hfirst.ne', List.getElem?_eq_getElem hlt]
        · rw [if_neg hfirst, Nat.eq_zero_of_not_pos hfirst]
          rfl

namespace V3SwapContext

variable {cx : V3SwapContext} {tick : ℤ} {next : V3Tick}

lemma mem_of_referenceNextTick (h : cx.referenceNextTick tick = some next) : next ∈ cx.ticks := by
  rw [referenceNextTick] at h
  split_ifs at h
  · exact (List.mem_filter.mp (List.mem_of_getLast? h)).1
  · exact List.mem_of_find?_eq_some h

/-- Away from initialised ticks the walk's strict search finds the reference's tick. -/
lemma nextTick_of_reference (hsorted : cx.ticks.Pairwise fun t u => t.tick ≤ u.tick)
    (hword : -2 ^ 31 ≤ tick ∧ tick < 2 ^ 31)
    (hoff : cx.zeroForOne = true → ∀ t ∈ cx.ticks, t.tick ≠ tick)
    (h : cx.referenceNextTick tick = some next) :
    cx.nextTick tick = ((next.tick, next.liquidityNet), false) := by
  have hfound : nextInitializedTickWithNet cx.ticks
      (if cx.zeroForOne then saturateI32 (tick - 1) else tick) cx.zeroForOne =
        some (next.tick, next.liquidityNet) := by
    rw [nextInitializedTickWithNet]
    cases hz : cx.zeroForOne with
    | true =>
        -- the strict search and the search at or below part the ticks at the same place
        have hsplit : cx.ticks.findIdx (fun t => saturateI32 (tick - 1) < t.tick) =
            cx.ticks.findIdx fun t => tick < t.tick := by
          refine findIdx_congr_mem fun t ht => ?_
          have hne := hoff hz t ht
          rw [saturateI32, decide_eq_decide]
          omega
        rw [referenceNextTick, if_pos hz, getLast?_filter_le hsorted] at h
        simp only [if_true]
        rw [hsplit]
        split_ifs at h ⊢
        rw [h]
        rfl
    | false =>
        rw [referenceNextTick, hz, if_neg Bool.false_ne_true, List.find?_eq_getElem?_findIdx] at h
        simp only [Bool.false_eq_true, if_false]
        rw [h]
        rfl
  rw [nextTick, hfound]

/-! ## One round -/

/-- The walk stands where the reference stands. -/
structure Matches (w : V3Walk) (s : ReferenceState) : Prop where
  price : w.sqrtPriceX96 = s.price
  tick : w.tick = s.tick
  liquidity : w.liquidity = s.liquidity
  remaining : w.amountRemaining = s.remaining
  out : w.amountCalculated = s.out
  open_end : w.tickDataExhausted = false

variable {w : V3Walk} {s s' : ReferenceState}

lemma wrapI128_of_accepted {x : ℤ} (hpos : 0 < x) (hlt : x < 2 ^ 127) : wrapI128 x = x := by
  apply Int.bmod_eq_of_le <;> omega

lemma wrapI128_of_declined {x : ℤ} (h0 : 0 ≤ x) (hlt : x < 2 ^ 128)
    (hdeclined : ¬ (0 < x ∧ x < 2 ^ 127)) : wrapI128 x ≤ 0 := by
  have hmod := Int.bmod_def x (2 ^ 128)
  rw [wrapI128, hmod]
  split_ifs <;> omega

/-- What a round of the reference takes apart into. -/
structure RoundParts (cx : V3SwapContext) (s : ReferenceState) (next : V3Tick) (priceNext : U256)
    (step : SwapStepResult) (remaining out : U256) : Prop where
  hasNext : cx.referenceNextTick s.tick = some next
  hasPrice : getSqrtRatioAtTick next.tick = some priceNext
  hasStep : referenceSwapStep s.price (if cx.zeroForOne then max priceNext cx.sqrtPriceLimitX96
    else min priceNext cx.sqrtPriceLimitX96) (BitVec.ofNat 256 s.liquidity.toNat) s.remaining
    cx.feePips = some step
  spent : remaining.toNat + (step.amountIn.toNat + step.feeAmount.toNat) = s.remaining.toNat
  paid : out.toNat = s.out.toNat + step.amountOut.toNat

lemma roundParts_of_step (h : cx.referenceStep s = some s') :
    ∃ next priceNext step, RoundParts cx s next priceNext step s'.remaining s'.out ∧
      if step.sqrtRatioNextX96 = priceNext then
        (0 ≤ cx.referenceLiquidity s.liquidity next ∧
          cx.referenceLiquidity s.liquidity next < 2 ^ 128) ∧
        s'.price = priceNext ∧ s'.liquidity = cx.referenceLiquidity s.liquidity next ∧
        s'.tick = cx.referenceTick next
      else s'.price = step.sqrtRatioNextX96 := by
  rw [referenceStep] at h
  rcases Option.bind_eq_some_iff.mp h with ⟨next, hnext, h⟩
  rcases Option.bind_eq_some_iff.mp h with ⟨priceNext, hprice, h⟩
  rcases Option.bind_eq_some_iff.mp h with ⟨step, hstep, h⟩
  rcases Option.bind_eq_some_iff.mp h with ⟨spent, hspent, h⟩
  rcases Option.bind_eq_some_iff.mp h with ⟨remaining, hremaining, h⟩
  rcases Option.bind_eq_some_iff.mp h with ⟨out, hout, h⟩
  have hparts : RoundParts cx s next priceNext step remaining out := by
    refine ⟨hnext, hprice, hstep, ?_, checkedAdd_eq_some.mp hout⟩
    rw [← checkedAdd_eq_some.mp hspent]
    exact checkedSub_eq_some.mp hremaining
  refine ⟨next, priceNext, step, ?_⟩
  by_cases hcrossed : step.sqrtRatioNextX96 = priceNext
  · rw [if_pos hcrossed] at h ⊢
    dsimp only at h
    split_ifs at h with hliquidity
    obtain rfl := Option.some.inj h
    exact ⟨hparts, hliquidity, rfl, rfl, rfl⟩
  · rw [if_neg hcrossed] at h ⊢
    rcases Option.bind_eq_some_iff.mp h with ⟨tick, -, h⟩
    obtain rfl := Option.some.inj h
    exact ⟨hparts, rfl⟩

/-- The side conditions of a round the two loops share: sorted ticks, and a tick an `i32` holds that is not
itself initialised when token zero is sold. -/
structure Searchable (cx : V3SwapContext) (tick : ℤ) : Prop where
  sorted : cx.ticks.Pairwise fun t u => t.tick ≤ u.tick
  word : -2 ^ 31 ≤ tick ∧ tick < 2 ^ 31
  off_ticks : cx.zeroForOne = true → ∀ t ∈ cx.ticks, t.tick ≠ tick

section Round

variable {priceNext remaining out : U256} {step : SwapStepResult}

lemma RoundParts.sqrtPriceNext (h : RoundParts cx s next priceNext step remaining out)
    (hsearch : cx.Searchable s.tick) : cx.sqrtPriceNextTickX96 s.tick = priceNext := by
  rw [sqrtPriceNextTickX96, nextTick_of_reference hsearch.sorted hsearch.word hsearch.off_ticks
    h.hasNext, h.hasPrice]
  rfl

/-- The walk computes the reference's step. -/
lemma RoundParts.swapStep (h : RoundParts cx s next priceNext step remaining out)
    (hfee : cx.feePips.toNat < 1000000) (hsearch : cx.Searchable s.tick)
    (haccepted : cx.Accepted s) (hleft : s.remaining ≠ 0) (hm : Matches w s) :
    cx.swapStep w = some step := by
  rw [V3SwapContext.swapStep, hm.price, hm.tick, hm.liquidity, hm.remaining,
    max_eq_left haccepted.2.1.le, sqrtRatioTargetX96, h.sqrtPriceNext hsearch]
  exact computeSwapStep_of_reference hfee hleft haccepted.1 h.hasStep

lemma RoundParts.book_remaining (h : RoundParts cx s next priceNext step remaining out)
    (hm : Matches w s) : (cx.book w step).amountRemaining = remaining := by
  have hspent := h.spent
  have hlt := toNat_lt s.remaining
  rw [← BitVec.toNat_inj]
  simp only [book, toNat_saturatingSub, toNat_saturatingAdd, hm.remaining]
  omega

lemma RoundParts.book_out (h : RoundParts cx s next priceNext step remaining out)
    (hm : Matches w s) : (cx.book w step).amountCalculated = out := by
  have hpaid := h.paid
  have hlt := toNat_lt out
  rw [← BitVec.toNat_inj]
  simp only [book, toNat_saturatingAdd, hm.out]
  omega

lemma RoundParts.hasTicks (h : RoundParts cx s next priceNext step remaining out) :
    cx.hasTicks = true := by
  have hmem := mem_of_referenceNextTick h.hasNext
  rw [V3SwapContext.hasTicks]
  cases hticks : cx.ticks with
  | nil =>
      rw [hticks] at hmem
      cases hmem
  | cons => rfl

lemma RoundParts.crossedLiquidity (h : RoundParts cx s next priceNext step remaining out)
    (hsearch : cx.Searchable s.tick) (hm : Matches w s) :
    cx.crossedLiquidity w = wrapI128 (cx.referenceLiquidity s.liquidity next) := by
  rw [V3SwapContext.crossedLiquidity, hm.tick, hm.liquidity, nextTick_of_reference hsearch.sorted
    hsearch.word hsearch.off_ticks h.hasNext, h.hasTicks]
  rfl

/-- A priced tick is far from the bounds of an `i32`. -/
lemma RoundParts.tick_mem (h : RoundParts cx s next priceNext step remaining out) :
    minTick ≤ next.tick ∧ next.tick ≤ maxTick :=
  (getSqrtRatioAtTick_eq_some.mp h.hasPrice).1

lemma RoundParts.crossedTick (h : RoundParts cx s next priceNext step remaining out)
    (hsearch : cx.Searchable s.tick) (hm : Matches w s) :
    cx.crossedTick w = cx.referenceTick next := by
  have hmem := h.tick_mem
  rw [minTick, maxTick] at hmem
  rw [V3SwapContext.crossedTick, referenceTick, hm.tick, nextTick_of_reference hsearch.sorted
    hsearch.word hsearch.off_ticks h.hasNext]
  dsimp only
  split_ifs
  · exact wrapI32_of_mem (by omega) (by omega)
  · rfl

end Round

/-- A real tick that the walk does not go on from: what is left, if anything, is marked. -/
lemma afterStep_stops {step : SwapStepResult} (hreal : (cx.nextTick w.tick).2 = false)
    (hticks : cx.hasTicks = true) (hstop : ¬ GoesOn cx w step) :
    ∃ w₁, cx.afterStep w step = .break w₁ ∧
      w₁.amountRemaining = (cx.book w step).amountRemaining ∧
      w₁.amountCalculated = (cx.book w step).amountCalculated ∧
      w₁.tickDataExhausted =
        (w.tickDataExhausted || decide ((cx.book w step).amountRemaining ≠ 0)) := by
  have hmarked : ∃ w₁, cx.afterStep w step = .break w₁ ∧ w₁.tickDataExhausted =
      (w.tickDataExhausted || decide ((cx.book w step).amountRemaining ≠ 0)) := by
    rw [afterStep]
    by_cases hp : (cx.book w step).sqrtPriceX96 = cx.sqrtPriceNextTickX96 w.tick
    · by_cases hl : (cx.cross w step).liquidity ≤ 0
      · simp only [hp, hreal, hl, hticks, if_true, Bool.false_eq_true, if_false, Bool.true_and]
        exact ⟨_, rfl, rfl⟩
      · exact absurd ⟨hp, hreal, not_le.mp hl⟩ hstop
    · simp only [hp, hreal, hticks, if_false, Bool.or_true, Bool.true_and]
      exact ⟨_, rfl, rfl⟩
  rcases hmarked with ⟨w₁, hbreak, hexhausted⟩
  have hstate := afterStep_state cx w step
  rw [hbreak] at hstate
  exact ⟨w₁, hbreak, hstate.2.2, hstate.2.1, hexhausted⟩

lemma target_eq (zeroForOne : Bool) (priceNext limit : U256) :
    (if zeroForOne then max priceNext limit else min priceNext limit) = priceNext ∨
      (if zeroForOne then max priceNext limit else min priceNext limit) = limit := by
  cases zeroForOne with
  | true =>
      rw [if_pos rfl, ← BitVec.toNat_inj, ← BitVec.toNat_inj, toNat_max]
      exact max_choice _ _
  | false =>
      rw [if_neg Bool.false_ne_true, ← BitVec.toNat_inj, ← BitVec.toNat_inj, toNat_min]
      exact min_choice _ _

/-- A round both loops take.  The walk goes on where the reference stands then, or it stops with the
reference's amounts: there the input is used up, the price limit is reached, or the liquidity behind the tick
is declined. -/
lemma walkStep_of_reference (hfee : cx.feePips.toNat < 1000000) (hsearch : cx.Searchable s.tick)
    (haccepted : cx.Accepted s) (hleft : s.remaining ≠ 0) (hm : Matches w s)
    (hstep : cx.referenceStep s = some s') :
    (∃ w', cx.walkStep w = .continue w' ∧ Matches w' s' ∧ 0 < s'.liquidity ∧
      s'.liquidity < 2 ^ 127 ∧ -2 ^ 31 ≤ s'.tick ∧ s'.tick < 2 ^ 31) ∨
    ∃ w', cx.walkStep w = .break w' ∧ w'.amountRemaining = s'.remaining ∧
      w'.amountCalculated = s'.out ∧ w'.tickDataExhausted = decide (s'.remaining ≠ 0) ∧
      (s'.remaining ≠ 0 → s'.price = cx.sqrtPriceLimitX96 ∨
        ¬ (0 < s'.liquidity ∧ s'.liquidity < 2 ^ 127)) := by
  rcases roundParts_of_step hstep with ⟨next, priceNext, step, hparts, hcross⟩
  have hremaining := hparts.book_remaining hm
  have hout := hparts.book_out hm
  have hprice : cx.sqrtPriceNextTickX96 w.tick = priceNext := by
    rw [hm.tick]
    exact hparts.sqrtPriceNext hsearch
  have hreal : (cx.nextTick w.tick).2 = false := by
    rw [hm.tick, nextTick_of_reference hsearch.sorted hsearch.word hsearch.off_ticks hparts.hasNext]
  have hliquidity := hparts.crossedLiquidity hsearch hm
  rw [walkStep_of_some (hm.remaining ▸ hleft)
    (hparts.swapStep hfee hsearch haccepted hleft hm)]
  by_cases hgo : GoesOn cx w step
  · left
    have hcrossed : step.sqrtRatioNextX96 = priceNext := hgo.1.trans hprice
    rw [if_pos hcrossed] at hcross
    rcases hcross with ⟨hbounds, hprice', hliquidity', htick'⟩
    have hgood : 0 < s'.liquidity ∧ s'.liquidity < 2 ^ 127 := by
      by_contra hdeclined
      have hle := wrapI128_of_declined hbounds.1 hbounds.2 (hliquidity' ▸ hdeclined)
      have hpos := hgo.2.2
      omega
    have hwrap : cx.crossedLiquidity w = s'.liquidity := by
      rw [hliquidity, ← hliquidity']
      exact wrapI128_of_accepted hgood.1 hgood.2
    have hmem := hparts.tick_mem
    rw [minTick, maxTick] at hmem
    have htick : -2 ^ 31 ≤ s'.tick ∧ s'.tick < 2 ^ 31 := by
      rw [htick', referenceTick]
      split_ifs <;> omega
    refine ⟨_, afterStep_of_goesOn hgo, ?_, hgood.1, hgood.2, htick⟩
    refine ⟨?_, ?_, hwrap, hremaining, hout, hm.open_end⟩
    · rw [hprice', ← hcrossed]
      rfl
    · rw [htick', ← hparts.crossedTick hsearch hm]
      rfl
  · right
    rcases afterStep_stops hreal hparts.hasTicks hgo with
      ⟨w', hbreak, hremaining', hout', hexhausted⟩
    refine ⟨w', hbreak, hremaining'.trans hremaining, hout'.trans hout, ?_, fun hrest => ?_⟩
    · rw [hexhausted, hm.open_end, hremaining]
      rfl
    by_cases hcrossed : step.sqrtRatioNextX96 = priceNext
    · right
      rw [if_pos hcrossed] at hcross
      intro hgood
      refine hgo ⟨hcrossed.trans hprice.symm, hreal, ?_⟩
      rw [hliquidity, ← hcross.2.2.1, wrapI128_of_accepted hgood.1 hgood.2]
      exact hgood.1
    · left
      rw [if_neg hcrossed] at hcross
      -- with something left the step reached its target, and that is not the tick
      have htarget : step.sqrtRatioNextX96 = if cx.zeroForOne then
          max priceNext cx.sqrtPriceLimitX96 else min priceNext cx.sqrtPriceLimitX96 := by
        by_contra hshort
        have hspends := reference_spends hparts.hasStep hshort
        have hspent := hparts.spent
        exact hrest (eq_zero_iff.mpr (by omega))
      rcases target_eq cx.zeroForOne priceNext cx.sqrtPriceLimitX96 with heq | heq
      · exact absurd (htarget.trans heq) hcrossed
      · rw [hcross, htarget, heq]

/-- A declined step ends the walk with its remainder. -/
lemma walkStep_of_declined (hr : w.amountRemaining ≠ 0) (h : cx.swapStep w = none) :
    ∃ w₁, cx.walkStep w = .break w₁ ∧ w₁.amountRemaining = w.amountRemaining := by
  rw [walkStep, if_neg hr]
  simp only [V3SwapContext.swapStep] at h
  rw [h]
  exact ⟨_, rfl, rfl⟩

/-! ## Whole runs -/

/-- What the walk makes of a run of the reference: it fills the input if and only if it has a round for each
of the run's rounds and accepts every one of them, and then it pays the same. -/
lemma walk_of_fills (hfee : cx.feePips.toNat < 1000000)
    (hsorted : cx.ticks.Pairwise fun t u => t.tick ≤ u.tick) {rounds : List ReferenceState}
    {out : U256} (h : cx.ReferenceFills s rounds out) :
    ∀ (n : ℕ) (w : V3Walk), Matches w s → 0 < s.liquidity → s.liquidity < 2 ^ 127 →
      -2 ^ 31 ≤ s.tick ∧ s.tick < 2 ^ 31 →
      (cx.zeroForOne = true → ∀ v ∈ rounds, ∀ t ∈ cx.ticks, t.tick ≠ v.tick) →
      ((repeatLoop cx.walkStep n w).tickDataExhausted = false ∧
          (repeatLoop cx.walkStep n w).amountRemaining = 0 ↔
        rounds.length ≤ n ∧ ∀ v ∈ rounds, cx.Accepted v) ∧
      ((repeatLoop cx.walkStep n w).amountRemaining = 0 →
        (repeatLoop cx.walkStep n w).amountCalculated = out) := by
  induction h with
  | done hspent =>
      intro n w hm _ _ _ _
      have hstay : repeatLoop cx.walkStep n w = w := by
        cases n with
        | zero => rfl
        | succ n => exact repeatLoop_of_break (walkStep_of_zero (hm.remaining.trans hspent)) n
      rw [hstay]
      refine ⟨iff_of_true ⟨hm.open_end, hm.remaining.trans hspent⟩ ?_, fun _ => hm.out⟩
      exact ⟨Nat.zero_le _, fun v hv => absurd hv List.not_mem_nil⟩
  | @round s s' rounds out hleft hlimit hstep hrest ih =>
      intro n w hm hpos hlt hword hoff
      have hstart : w.amountRemaining ≠ 0 := hm.remaining ▸ hleft
      cases n with
      | zero =>
          refine ⟨iff_of_false (fun h0 => hstart h0.2) ?_, fun h0 => absurd h0 hstart⟩
          rintro ⟨hlen, -⟩
          exact absurd hlen (by simp)
      | succ n =>
          by_cases haccepted : cx.Accepted s
          swap
          · -- the remainder is all fee
            have hdust : lessFee cx.feePips s.remaining = 0 := by
              by_contra hne
              exact haccepted ⟨Nat.pos_of_ne_zero hne, hpos, hlt⟩
            have hnone : cx.swapStep w = none := by
              rw [V3SwapContext.swapStep, hm.remaining]
              exact computeSwapStep_of_dust hfee hleft hdust
            rcases walkStep_of_declined hstart hnone with ⟨w₁, hbreak, hremaining⟩
            rw [repeatLoop_of_break hbreak]
            refine ⟨iff_of_false (fun h0 => hstart (hremaining ▸ h0.2)) ?_,
              fun h0 => absurd (hremaining ▸ h0) hstart⟩
            exact fun h0 => haccepted (h0.2 s List.mem_cons_self)
          have hsearch : cx.Searchable s.tick :=
            ⟨hsorted, hword, fun hz => hoff hz s List.mem_cons_self⟩
          rcases walkStep_of_reference hfee hsearch haccepted hleft hm hstep with
            ⟨w', hgo, hm', hpos', hlt', hword'⟩ | ⟨w', hbreak, hremaining, hout, hexhausted, hstop⟩
          · rw [repeatLoop_of_continue hgo]
            rcases ih n w' hm' hpos' hlt' hword'
              (fun hz v hv => hoff hz v (List.mem_cons_of_mem _ hv)) with ⟨hiff, hpaid⟩
            refine ⟨hiff.trans ?_, hpaid⟩
            rw [List.length_cons, Nat.succ_le_succ_iff, List.forall_mem_cons]
            exact and_congr_right fun _ => (and_iff_right haccepted).symm
          · rw [repeatLoop_of_break hbreak, hremaining, hout, hexhausted]
            cases hrest with
            | done hspent =>
                refine ⟨iff_of_true ⟨by simp [hspent], hspent⟩ ⟨by simp, ?_⟩, fun _ => rfl⟩
                intro v hv
                rw [List.mem_singleton.mp hv]
                exact haccepted
            | round hleft' hlimit' _ _ =>
                refine ⟨iff_of_false (fun h0 => hleft' h0.2) ?_, fun h0 => absurd h0 hleft'⟩
                rintro ⟨-, hall⟩
                have hnext := hall s' (List.mem_cons_of_mem _ List.mem_cons_self)
                exact ((hstop hleft').resolve_left hlimit') ⟨hnext.2.1, hnext.2.2⟩

end V3SwapContext

section Simulation

variable {s : ConcentratedLiquidityPoolState} {zeroForOne : Bool} {feePips amountIn : U256}

lemma matches_start (s : ConcentratedLiquidityPoolState) (amountIn : U256) :
    V3SwapContext.Matches (initialWalk s amountIn) (referenceStart s amountIn) :=
  ⟨rfl, rfl, rfl, rfl, rfl, rfl⟩

/-- A run with a round has ticks. -/
lemma hasTicks_of_fills {cx : V3SwapContext} {v : ReferenceState} {rounds : List ReferenceState}
    {out : U256} (h : cx.ReferenceFills v rounds out) (hleft : v.remaining ≠ 0) :
    cx.hasTicks = true := by
  cases h with
  | done hspent => exact absurd hspent hleft
  | round _ _ hstep _ =>
      rcases V3SwapContext.roundParts_of_step hstep with ⟨next, priceNext, step, hparts, -⟩
      exact hparts.hasTicks

/-- On an enabled pool the simulation of an input that the pool's loop consumes is not shallow if and only
if the loop takes at most five hundred rounds and the simulation accepts each, and then the amounts agree. -/
theorem simulateV3Swap_reference (edgeFeeBps : Option ℕ) (allowZeroPoolFee : Bool)
    (hfee : swapFeePips s zeroForOne edgeFeeBps allowZeroPoolFee = some feePips)
    (henabled : swapDisabled s feePips = false)
    (hsorted : s.ticks.Pairwise fun t u => t.tick ≤ u.tick)
    (hword : -2 ^ 31 ≤ s.tick ∧ s.tick < 2 ^ 31) {rounds : List ReferenceState} {out : U256}
    (hfills : (swapContext s zeroForOne feePips).ReferenceFills (referenceStart s amountIn)
      rounds out)
    (hoff : zeroForOne = true → ∀ v ∈ rounds, ∀ t ∈ s.ticks, t.tick ≠ v.tick) :
    ∃ result, simulateV3Swap s amountIn zeroForOne edgeFeeBps allowZeroPoolFee = some result ∧
      (result.shallow = false ↔ rounds.length ≤ maxIterations ∧
        ∀ v ∈ rounds, (swapContext s zeroForOne feePips).Accepted v) ∧
      (result.shallow = false → result.amountOut = out) := by
  rw [simulateV3Swap, hfee, Option.bind_eq_bind, Option.bind_some, henabled]
  by_cases hzero : amountIn = 0
  · rw [if_pos (.inl hzero)]
    cases hfills with
    | done => exact ⟨_, rfl, by simp, fun _ => rfl⟩
    | round hleft => exact absurd hzero hleft
  rw [if_neg (by simpa using hzero)]
  have hvalid := valid_swapContext (z := zeroForOne) henabled
  have hok := walkOk_initialWalk (a := amountIn) henabled
  have hticks := hasTicks_of_fills hfills hzero
  have hwalk := V3SwapContext.walk_of_fills hvalid.fee hsorted hfills maxIterations
    (initialWalk s amountIn) (matches_start s amountIn) hok.liquidity_pos hok.liquidity_lt hword hoff
  refine ⟨_, rfl, ?_, ?_⟩
  · rw [← hwalk.1]
    simp [hticks]
  · intro hshallow
    refine hwalk.2 ?_
    have hfilled : (repeatLoop (swapContext s zeroForOne feePips).walkStep maxIterations
        (initialWalk s amountIn)).tickDataExhausted = false ∧
        (repeatLoop (swapContext s zeroForOne feePips).walkStep maxIterations
          (initialWalk s amountIn)).amountRemaining = 0 := by
      simpa [hticks] using hshallow
    exact hfilled.2

/-- Three ticks around price one. -/
def poolOfThreeTicks : ConcentratedLiquidityPoolState :=
  poolAtPriceOne 0 [⟨-60, 10, 10⟩, ⟨60, 10, -10⟩, ⟨120, 10, -10⟩]

/-- The pool's loop on two inputs that cross the tick at sixty. -/
lemma poolOfThreeTicks_rounds :
    (swapContext poolOfThreeTicks false 3000).referenceStep
        (referenceStart poolOfThreeTicks 5000000000) =
      some ⟨79466191966197645195421774833, 60, 999999999990, 1986605754, 2995354955⟩ ∧
    (swapContext poolOfThreeTicks false 3000).referenceStep
        ⟨79466191966197645195421774833, 60, 999999999990, 1986605754, 2995354955⟩ =
      some ⟨79623114904299839627087181622, 99, 999999999990, 0, 4960273036⟩ ∧
    (swapContext poolOfThreeTicks false 3000).referenceStep
        (referenceStart poolOfThreeTicks 3013394247) =
      some ⟨79466191966197645195421774833, 60, 999999999990, 1, 2995354955⟩ ∧
    (swapContext poolOfThreeTicks false 3000).referenceStep
        ⟨79466191966197645195421774833, 60, 999999999990, 1, 2995354955⟩ =
      some ⟨79466191966197645195421774833, 60, 999999999990, 0, 2995354955⟩ := by
  refine ⟨?_, ?_, ?_, ?_⟩ <;> decide

/-- A swap over one tick, filled in the second round. -/
theorem simulateV3Swap_reference_threeTicks :
    ∃ result, simulateV3Swap poolOfThreeTicks 5000000000 false none false = some result ∧
      result.shallow = false ∧ result.amountOut = 4960273036 := by
  rcases poolOfThreeTicks_rounds with ⟨hfirst, hsecond, -, -⟩
  rcases @simulateV3Swap_reference poolOfThreeTicks false 3000 5000000000 none false
      (by decide) (by decide) (by decide) (by decide) _ _
      (.round (by decide) (by decide) hfirst
        (.round (by decide) (by decide) hsecond (.done rfl)))
      (fun hz => absurd hz Bool.false_ne_true) with ⟨result, hresult, hiff, hpaid⟩
  have hfilled : result.shallow = false := by
    refine hiff.mpr ⟨by decide, ?_⟩
    intro v hv
    rw [V3SwapContext.Accepted]
    rcases List.mem_cons.mp hv with rfl | hv
    · decide
    · rw [List.mem_singleton.mp hv]
      decide
  exact ⟨result, hresult, hfilled, hpaid hfilled⟩

/-- One unit more than it takes to cross the tick: the pool's loop takes that unit as fee, and the
simulation leaves it and reports a shallow pool. -/
theorem simulateV3Swap_reference_dust :
    (∃ rounds, (swapContext poolOfThreeTicks false 3000).ReferenceFills
      (referenceStart poolOfThreeTicks 3013394247) rounds 2995354955) ∧
    ∃ result, simulateV3Swap poolOfThreeTicks 3013394247 false none false = some result ∧
      result.shallow = true := by
  constructor
  · rcases poolOfThreeTicks_rounds with ⟨-, -, hfirst, hsecond⟩
    exact ⟨_, .round (by decide) (by decide) hfirst
      (.round (by decide) (by decide) hsecond (.done rfl))⟩
  · refine ⟨(simulateV3Swap poolOfThreeTicks 3013394247 false none false).get
      (by decide), (Option.some_get _).symm, ?_⟩
    decide

end Simulation

end PolygonArb

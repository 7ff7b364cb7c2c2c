import PolygonArb.Lib.Loop
import PolygonArb.Core.Math.SwapMath
import PolygonArb.Core.Math.TickMath

/-!
# Concentrated-liquidity swap simulation

`core/math/uniswap_v3.rs`: the exact-input walk across initialised ticks, with a synthetic bound
where the hydrated tick window ends and a bounded step when no ticks are loaded at all.
`i32` and `i128` arithmetic wraps, as in the release build.

The state of the walk is `V3Walk`; `walkStep` is one iteration.  An iteration is split at the swap
step: `afterStep` is what the loop does once `compute_swap_step` has answered, and it looks at the
amounts only to set the `tickDataExhausted` flag.  That is why two inputs walk the same ticks until
the smaller one runs out.
-/

namespace PolygonArb

open Word Loop

def defaultV3FeePips : ℕ := 3000

/-- `MIN_SQRT_RATIO + 1`. -/
def sqrtPriceLimitZeroForOne : U256 := fromLimbs 4295128740 0 0 0

def maxCumulativeTickMove : ℤ := 500

def maxIterations : ℕ := 500

def gasV3Base : ℕ := 155000

def gasPerTickCrossed : ℕ := 20000

structure V3SwapResult where
  amountOut : U256
  sqrtPriceX96After : U256
  tickAfter : ℤ
  gasEstimate : ℕ
  shallow : Bool
  synthetic : Bool
  deriving DecidableEq

/-- Next initialised tick at or below (above) `currentTick`, with its net liquidity.  The ticks are
sorted, so `partition_point` is the index of the first one beyond `currentTick`. -/
def nextInitializedTickWithNet (ticks : List V3Tick) (currentTick : ℤ) (zeroForOne : Bool) :
    Option (ℤ × ℤ) :=
  let i := ticks.findIdx fun t => currentTick < t.tick
  if zeroForOne then
    if 0 < i then ticks[i - 1]?.map fun t => (t.tick, t.liquidityNet) else none
  else ticks[i]?.map fun t => (t.tick, t.liquidityNet)

def defaultNoTickStep (tickSpacing : ℤ) : ℤ := max (wrapI32 (tickSpacing * 2)) 1

/-- Fee in pips.  With `allowZeroPoolFee` a zero pool fee is authoritative. -/
def resolveV3FeePips (poolFee : U256) (edgeFeeBps : Option ℕ) (allowZeroPoolFee : Bool) : U256 :=
  if allowZeroPoolFee ∨ poolFee ≠ 0 then poolFee
  else
    match edgeFeeBps.filter (· < 10000) with
    | some bps => BitVec.ofNat 256 bps * 100#256
    | none => BitVec.ofNat 256 defaultV3FeePips

/-- The 12-bit directional half of a packed V4 protocol fee. -/
def v4DirectionProtocolFeePips (protocolFee : ℕ) (zeroForOne : Bool) : ℕ :=
  if zeroForOne then protocolFee % 4096 else protocolFee / 4096 % 4096

/-- `ProtocolFeeLibrary.calculateSwapFee`, truncated to `u32`. -/
def v4CombinedSwapFeePips (protocolFeePips lpFeePips : ℕ) : ℕ :=
  if protocolFeePips = 0 then lpFeePips
  else (protocolFeePips + lpFeePips - protocolFeePips * lpFeePips / 1000000) % 2 ^ 32

/-- The fee the trader pays.  `to::<u32>()` of an LP fee above `u32::MAX` panics. -/
def swapFeePips (s : ConcentratedLiquidityPoolState) (zeroForOne : Bool) (edgeFeeBps : Option ℕ)
    (allowZeroPoolFee : Bool) : Run U256 :=
  let feePips := resolveV3FeePips s.fee edgeFeeBps allowZeroPoolFee
  if allowZeroPoolFee ∧ s.feeProtocol ≠ 0 then
    if feePips.toNat < 2 ^ 32 then
      some (BitVec.ofNat 256 (v4CombinedSwapFeePips
        (v4DirectionProtocolFeePips s.feeProtocol zeroForOne) feePips.toNat))
    else none
  else some feePips

/-- What stays fixed during a walk. -/
structure V3SwapContext where
  ticks : List V3Tick
  zeroForOne : Bool
  feePips : U256
  sqrtPriceLimitX96 : U256
  noTickStep : ℤ
  initialTick : ℤ

/-- The mutable locals of the walk. -/
structure V3Walk where
  sqrtPriceX96 : U256
  tick : ℤ
  liquidity : ℤ
  amountRemaining : U256
  amountCalculated : U256
  ticksCrossed : ℕ
  tickDataExhausted : Bool
  usedSynthetic : Bool

namespace V3SwapContext

variable (cx : V3SwapContext)

def hasTicks : Bool := !cx.ticks.isEmpty

/-- The synthetic next tick of a pool without loaded ticks. -/
def ticklessBound (tick : ℤ) : ℤ :=
  let rawNext := wrapI32 (if cx.zeroForOne then tick - cx.noTickStep else tick + cx.noTickStep)
  let cumulative :=
    wrapI32 (if cx.zeroForOne then cx.initialTick - rawNext else rawNext - cx.initialTick)
  let bounded :=
    if maxCumulativeTickMove < cumulative then
      wrapI32 (if cx.zeroForOne then cx.initialTick - maxCumulativeTickMove
        else cx.initialTick + maxCumulativeTickMove)
    else rawNext
  max minTick (min bounded maxTick)

/-- The next tick with its net liquidity, and whether the bound is synthetic. -/
def nextTick (tick : ℤ) : (ℤ × ℤ) × Bool :=
  let tickSearch := if cx.zeroForOne then saturateI32 (tick - 1) else tick
  match nextInitializedTickWithNet cx.ticks tickSearch cx.zeroForOne with
  | some nt => (nt, false)
  | none =>
      if cx.hasTicks then ((if cx.zeroForOne then minTick else maxTick, 0), true)
      else ((cx.ticklessBound tick, 0), true)

def sqrtPriceNextTickX96 (tick : ℤ) : U256 :=
  (getSqrtRatioAtTick (cx.nextTick tick).1.1).getD cx.sqrtPriceLimitX96

def sqrtRatioTargetX96 (tick : ℤ) : U256 :=
  if cx.zeroForOne then max (cx.sqrtPriceNextTickX96 tick) cx.sqrtPriceLimitX96
  else min (cx.sqrtPriceNextTickX96 tick) cx.sqrtPriceLimitX96

/-- The locals right after the step's amounts are booked. -/
def book (w : V3Walk) (step : SwapStepResult) : V3Walk :=
  { w with
    sqrtPriceX96 := step.sqrtRatioNextX96
    amountRemaining :=
      saturatingSub w.amountRemaining (saturatingAdd step.amountIn step.feeAmount)
    amountCalculated := saturatingAdd w.amountCalculated step.amountOut
    usedSynthetic := w.usedSynthetic || (cx.nextTick w.tick).2 }

/-- Liquidity after crossing the next tick. -/
def crossedLiquidity (w : V3Walk) : ℤ :=
  let liquidityNet := (cx.nextTick w.tick).1.2
  if cx.hasTicks then
    wrapI128 (if cx.zeroForOne then w.liquidity - liquidityNet else w.liquidity + liquidityNet)
  else 0

/-- Tick after crossing the next tick. -/
def crossedTick (w : V3Walk) : ℤ :=
  let nt := (cx.nextTick w.tick).1.1
  if cx.zeroForOne then wrapI32 (nt - 1) else nt

/-- The locals right after the next tick is crossed. -/
def cross (w : V3Walk) (step : SwapStepResult) : V3Walk :=
  { cx.book w step with
    liquidity := cx.crossedLiquidity w
    ticksCrossed := w.ticksCrossed + cx.hasTicks.toNat
    tick := cx.crossedTick w }

/-- The rest of an iteration once the swap step succeeded. -/
def afterStep (w : V3Walk) (step : SwapStepResult) : LoopStep V3Walk :=
  let nt := (cx.nextTick w.tick).1.1
  let syntheticBound := (cx.nextTick w.tick).2
  let booked := cx.book w step
  let unfilled : Bool := booked.amountRemaining ≠ 0
  if booked.sqrtPriceX96 = cx.sqrtPriceNextTickX96 w.tick then
    if syntheticBound then
      .break { booked with
        tickDataExhausted := booked.tickDataExhausted || unfilled
        tick := if cx.zeroForOne then saturateI32 (nt - 1) else nt }
    else
      let crossed := cx.cross w step
      if crossed.liquidity ≤ 0 then
        .break { crossed with
          tickDataExhausted := crossed.tickDataExhausted || (cx.hasTicks && unfilled) }
      else .continue crossed
  else
    -- filled inside the step, or stopped at the price limit
    let minT := if cx.zeroForOne then nt else w.tick
    let maxT := if cx.zeroForOne then w.tick else wrapI32 (nt - 1)
    .break { booked with
      tick := (getTickAtSqrtRatioInRange booked.sqrtPriceX96 minT maxT).getD w.tick
      tickDataExhausted :=
        booked.tickDataExhausted || ((syntheticBound || cx.hasTicks) && unfilled) }

/-- One iteration of the walk. -/
def walkStep (w : V3Walk) : LoopStep V3Walk :=
  if w.amountRemaining = 0 then .break w
  else
    match computeSwapStep w.sqrtPriceX96 (cx.sqrtRatioTargetX96 w.tick)
        (BitVec.ofNat 256 (max w.liquidity 0).toNat) w.amountRemaining cx.feePips with
    | none => .break { w with usedSynthetic := w.usedSynthetic || (cx.nextTick w.tick).2 }
    | some step => cx.afterStep w step

end V3SwapContext

/-- The fixed data of a swap of `s`. -/
def swapContext (s : ConcentratedLiquidityPoolState) (zeroForOne : Bool) (feePips : U256) :
    V3SwapContext where
  ticks := s.ticks
  zeroForOne := zeroForOne
  feePips := feePips
  sqrtPriceLimitX96 := if zeroForOne then sqrtPriceLimitZeroForOne else maxSqrtRatioExclusive
  noTickStep := if s.ticks.isEmpty then defaultNoTickStep s.tickSpacing else 0
  initialTick := s.tick

/-- The locals before the first iteration. -/
def initialWalk (s : ConcentratedLiquidityPoolState) (amountIn : U256) : V3Walk where
  sqrtPriceX96 := s.sqrtPriceX96
  tick := s.tick
  liquidity := s.liquidity
  amountRemaining := amountIn
  amountCalculated := 0
  ticksCrossed := 0
  tickDataExhausted := false
  usedSynthetic := false

/-- The pool or the fee makes the swap return its input state at once. -/
def swapDisabled (s : ConcentratedLiquidityPoolState) (feePips : U256) : Bool :=
  !s.unlocked || s.sqrtPriceX96 < minSqrtRatio || maxSqrtRatio ≤ s.sqrtPriceX96
    || s.liquidity = 0 || 2 ^ 127 ≤ s.liquidity || feePipsScale ≤ feePips

def simulateV3Swap (s : ConcentratedLiquidityPoolState) (amountIn : U256) (zeroForOne : Bool)
    (edgeFeeBps : Option ℕ) (allowZeroPoolFee : Bool) : Run V3SwapResult := do
  let feePips ← swapFeePips s zeroForOne edgeFeeBps allowZeroPoolFee
  if amountIn = 0 ∨ swapDisabled s feePips then
    some ⟨0, s.sqrtPriceX96, s.tick, 0, false, false⟩
  else
    let cx := swapContext s zeroForOne feePips
    let w := repeatLoop cx.walkStep maxIterations (initialWalk s amountIn)
    some
      { amountOut := w.amountCalculated
        sqrtPriceX96After := w.sqrtPriceX96
        tickAfter := w.tick
        gasEstimate := gasV3Base + w.ticksCrossed * gasPerTickCrossed
        shallow := !cx.hasTicks || w.tickDataExhausted || (w.amountRemaining ≠ 0 : Bool)
        synthetic := w.usedSynthetic }

/-! ## One iteration -/

namespace V3SwapContext

variable {cx : V3SwapContext} {w w' : V3Walk} {st : SwapStepResult}

/-- The price limit is a price, and the fee is below one hundred percent. -/
structure Valid (cx : V3SwapContext) : Prop where
  limit : InRange cx.sqrtPriceLimitX96
  fee : cx.feePips.toNat < 1000000

/-- What holds at the head of every iteration. -/
structure WalkOk (w : V3Walk) : Prop where
  price : InRange w.sqrtPriceX96
  liquidity_pos : 0 < w.liquidity
  liquidity_lt : w.liquidity < 2 ^ 127

lemma inRange_tickPrice {t : ℤ} {p : U256} (h : getSqrtRatioAtTick t = some p) : InRange p := by
  have hb := getSqrtRatioAtTick_mem h
  have h0 : 0 < minSqrtRatio.toNat := by decide
  have h1 : maxSqrtRatio.toNat < 2 ^ 160 := by decide
  exact ⟨by omega, by omega⟩

lemma inRange_sqrtPriceNextTick (hcx : cx.Valid) (tick : ℤ) :
    InRange (cx.sqrtPriceNextTickX96 tick) := by
  rw [sqrtPriceNextTickX96]
  cases h : getSqrtRatioAtTick (cx.nextTick tick).1.1 with
  | none => exact hcx.limit
  | some p => exact inRange_tickPrice h

lemma inRange_target (hcx : cx.Valid) (tick : ℤ) : InRange (cx.sqrtRatioTargetX96 tick) := by
  have h := inRange_sqrtPriceNextTick hcx tick
  have hl := hcx.limit
  rw [sqrtRatioTargetX96]
  split_ifs
  · rw [InRange, toNat_max]
    exact ⟨lt_max_of_lt_left h.1, max_lt h.2 hl.2⟩
  · rw [InRange, toNat_min]
    exact ⟨lt_min h.1 hl.1, min_lt_of_left_lt h.2⟩

lemma WalkOk.liquidityInRange (h : WalkOk w) :
    LiquidityInRange (BitVec.ofNat 256 (max w.liquidity 0).toNat) := by
  have h1 := h.liquidity_pos
  have h2 := h.liquidity_lt
  have hv : (BitVec.ofNat 256 (max w.liquidity 0).toNat).toNat = w.liquidity.toNat := by
    rw [BitVec.toNat_ofNat, max_eq_left h1.le, Nat.mod_eq_of_lt (by omega)]
  rw [LiquidityInRange, hv]
  omega

/-- Whichever way an iteration ends, it has booked the step. -/
lemma afterStep_state (cx : V3SwapContext) (w : V3Walk) (st : SwapStepResult) :
    (cx.afterStep w st).state.sqrtPriceX96 = st.sqrtRatioNextX96 ∧
    (cx.afterStep w st).state.amountCalculated = (cx.book w st).amountCalculated ∧
    (cx.afterStep w st).state.amountRemaining = (cx.book w st).amountRemaining := by
  simp only [afterStep]
  split_ifs <;> exact ⟨rfl, rfl, rfl⟩

lemma crossedLiquidity_lt (cx : V3SwapContext) (w : V3Walk) : cx.crossedLiquidity w < 2 ^ 127 := by
  rw [crossedLiquidity]
  split_ifs
  · exact wrapI128_lt _
  · exact wrapI128_lt _
  · norm_num

/-- The iteration goes on: it stands at a real next tick and has liquidity left behind it. -/
def GoesOn (cx : V3SwapContext) (w : V3Walk) (st : SwapStepResult) : Prop :=
  st.sqrtRatioNextX96 = cx.sqrtPriceNextTickX96 w.tick ∧ (cx.nextTick w.tick).2 = false ∧
    0 < cx.crossedLiquidity w

lemma afterStep_of_goesOn (h : GoesOn cx w st) : cx.afterStep w st = .continue (cx.cross w st) := by
  obtain ⟨hp, hs, hl⟩ := h
  have hp' : (cx.book w st).sqrtPriceX96 = cx.sqrtPriceNextTickX96 w.tick := hp
  have hl' : ¬ (cx.cross w st).liquidity ≤ 0 := not_le.mpr hl
  simp only [afterStep, hp', hs, hl', if_true, if_false, Bool.false_eq_true]

lemma afterStep_of_not_goesOn (h : ¬ GoesOn cx w st) : ∃ w₁, cx.afterStep w st = .break w₁ := by
  rw [afterStep]
  by_cases hp : (cx.book w st).sqrtPriceX96 = cx.sqrtPriceNextTickX96 w.tick
  · simp only [hp, if_true]
    by_cases hs : (cx.nextTick w.tick).2 = true
    · exact ⟨_, if_pos hs⟩
    · by_cases hl : (cx.cross w st).liquidity ≤ 0
      · exact ⟨_, (if_neg hs).trans (if_pos hl)⟩
      · exact absurd ⟨hp, by simpa using hs, not_le.mp hl⟩ h
  · exact ⟨_, if_neg hp⟩

/-- Two walks at the same place: same price, tick, liquidity and output so far. -/
structure SamePlace (w w' : V3Walk) : Prop where
  price : w.sqrtPriceX96 = w'.sqrtPriceX96
  tick : w.tick = w'.tick
  liquidity : w.liquidity = w'.liquidity
  amountCalculated : w.amountCalculated = w'.amountCalculated

lemma SamePlace.goesOn (h : SamePlace w w') (st : SwapStepResult) :
    GoesOn cx w st ↔ GoesOn cx w' st := by
  simp only [GoesOn, crossedLiquidity, h.tick, h.liquidity]

lemma SamePlace.cross (h : SamePlace w w') (st : SwapStepResult) :
    SamePlace (cx.cross w st) (cx.cross w' st) := by
  refine ⟨rfl, ?_, ?_, ?_⟩
  · simp only [V3SwapContext.cross, crossedTick, h.tick]
  · simp only [V3SwapContext.cross, crossedLiquidity, h.tick, h.liquidity]
  · simp only [V3SwapContext.cross, book, h.amountCalculated]

lemma walkStep_of_zero (h : w.amountRemaining = 0) : cx.walkStep w = .break w := by
  rw [walkStep, if_pos h]

/-- The swap step of an iteration. -/
abbrev swapStep (cx : V3SwapContext) (w : V3Walk) : Option SwapStepResult :=
  computeSwapStep w.sqrtPriceX96 (cx.sqrtRatioTargetX96 w.tick)
    (BitVec.ofNat 256 (max w.liquidity 0).toNat) w.amountRemaining cx.feePips

lemma walkStep_of_none (hr : w.amountRemaining ≠ 0) (h : cx.swapStep w = none) :
    ∃ w₁, cx.walkStep w = .break w₁ ∧ w₁.sqrtPriceX96 = w.sqrtPriceX96 ∧
      w₁.amountCalculated = w.amountCalculated := by
  rw [walkStep, if_neg hr]
  simp only [swapStep] at h
  rw [h]
  exact ⟨_, rfl, rfl, rfl⟩

lemma walkStep_of_some (hr : w.amountRemaining ≠ 0) (h : cx.swapStep w = some st) :
    cx.walkStep w = cx.afterStep w st := by
  rw [walkStep, if_neg hr]
  simp only [swapStep] at h
  rw [h]

/-! ## Output -/

/-- The output only grows along a walk. -/
lemma le_walk_amountCalculated (n : ℕ) (w : V3Walk) :
    w.amountCalculated.toNat ≤ (repeatLoop cx.walkStep n w).amountCalculated.toNat := by
  refine repeatLoop_inv (fun s => w.amountCalculated.toNat ≤ s.amountCalculated.toNat) ?_ n w le_rfl
  intro s hs
  by_cases hr : s.amountRemaining = 0
  · rw [walkStep_of_zero hr]
    exact hs
  · cases h : cx.swapStep s with
    | none =>
        obtain ⟨w₁, hw₁, -, hc⟩ := walkStep_of_none hr h
        rw [hw₁, LoopStep.state_break, hc]
        exact hs
    | some st =>
        rw [walkStep_of_some hr h, (afterStep_state cx s st).2.1]
        simp only [book, toNat_saturatingAdd]
        have := toNat_lt s.amountCalculated
        omega

lemma le_walk_amountCalculated_after (cx : V3SwapContext) (n : ℕ) (w : V3Walk) :
    (cx.walkStep w).state.amountCalculated.toNat ≤
      (repeatLoop cx.walkStep (n + 1) w).amountCalculated.toNat := by
  cases h : cx.walkStep w with
  | «continue» w₁ =>
      rw [repeatLoop_of_continue h]
      exact le_walk_amountCalculated n w₁
  | «break» w₁ =>
      rw [repeatLoop_of_break h]
      exact le_rfl

/-- A walk with nothing left to spend stays where its last iteration put it. -/
lemma repeatLoop_of_spent (n : ℕ) {s : V3Walk} (h : (cx.walkStep s).state.amountRemaining = 0) :
    (repeatLoop cx.walkStep (n + 1) s).amountCalculated = (cx.walkStep s).state.amountCalculated ∧
    (repeatLoop cx.walkStep (n + 1) s).sqrtPriceX96 = (cx.walkStep s).state.sqrtPriceX96 := by
  cases hs : cx.walkStep s with
  | «break» w₁ =>
      rw [repeatLoop_of_break hs]
      exact ⟨rfl, rfl⟩
  | «continue» w₁ =>
      rw [repeatLoop_of_continue hs]
      rw [hs] at h
      cases n with
      | zero => exact ⟨rfl, rfl⟩
      | succ n =>
          rw [LoopStep.state_continue] at h ⊢
          rw [repeatLoop_of_break (walkStep_of_zero h)]
          exact ⟨rfl, rfl⟩

/-! ## Direction -/

/-- `q` is at least as far in the swap direction as `p`. -/
def Ahead (zeroForOne : Bool) (p q : U256) : Prop :=
  if zeroForOne then q.toNat ≤ p.toNat else p.toNat ≤ q.toNat

lemma Ahead.refl (z : Bool) (p : U256) : Ahead z p p := by
  simp only [Ahead]
  split_ifs <;> exact le_rfl

lemma Ahead.trans {z : Bool} {p q r : U256} (h : Ahead z p q) (h' : Ahead z q r) :
    Ahead z p r := by
  simp only [Ahead] at *
  split_ifs at * <;> omega

/-- Every tick still ahead has its price ahead, and so has the price limit. -/
structure Facing (cx : V3SwapContext) (w : V3Walk) : Prop where
  limit : Ahead cx.zeroForOne w.sqrtPriceX96 cx.sqrtPriceLimitX96
  ahead : ∀ t p, getSqrtRatioAtTick t = some p →
    (if cx.zeroForOne then t < w.tick else w.tick < t) → Ahead cx.zeroForOne w.sqrtPriceX96 p
  tick_mem : if cx.zeroForOne then w.tick ≤ maxTick else minTick - 1 ≤ w.tick
  tickless : cx.ticks = [] → w.tick = cx.initialTick

/-- The bounds that keep the `i32` tick arithmetic of a walk exact. -/
structure TicksOk (cx : V3SwapContext) : Prop where
  ticks : ∀ t ∈ cx.ticks, -2 ^ 31 < t.tick
  step_pos : cx.ticks = [] → 0 < cx.noTickStep
  step_le : cx.noTickStep ≤ 2 ^ 24
  initial : minTick ≤ cx.initialTick ∧ cx.initialTick ≤ maxTick
  limit : cx.sqrtPriceLimitX96 =
    if cx.zeroForOne then sqrtPriceLimitZeroForOne else maxSqrtRatioExclusive

/-- A real next tick lies strictly ahead of the current one. -/
lemma nextInitializedTickWithNet_ahead {ticks : List V3Tick} {c : ℤ} {z : Bool} {nt : ℤ × ℤ}
    (h : nextInitializedTickWithNet ticks c z = some nt) :
    (if z then nt.1 ≤ c else c < nt.1) ∧ ∃ t ∈ ticks, t.tick = nt.1 := by
  simp only [nextInitializedTickWithNet] at h
  set i := ticks.findIdx fun t => c < t.tick with hi
  cases z with
  | true =>
      simp only [if_true] at h ⊢
      split_ifs at h with h0
      rw [Option.map_eq_some_iff] at h
      obtain ⟨t, ht, rfl⟩ := h
      refine ⟨?_, t, List.mem_of_getElem? ht, rfl⟩
      obtain ⟨hlt, rfl⟩ := List.getElem?_eq_some_iff.mp ht
      have hnot := @List.not_of_lt_findIdx _ (fun t : V3Tick => c < t.tick) ticks (i - 1) (by omega)
      simpa using hnot
  | false =>
      simp only [Bool.false_eq_true, if_false] at h ⊢
      rw [Option.map_eq_some_iff] at h
      obtain ⟨t, ht, rfl⟩ := h
      refine ⟨?_, t, List.mem_of_getElem? ht, rfl⟩
      obtain ⟨hlt, rfl⟩ := List.getElem?_eq_some_iff.mp ht
      have hget := List.findIdx_getElem (p := fun t : V3Tick => c < t.tick) (w := hlt)
      simpa using hget

/-- A tick strictly ahead of the current one. -/
def TickAhead (cx : V3SwapContext) (tick nt : ℤ) : Prop :=
  if cx.zeroForOne then nt < tick else tick < nt

/-- A bound that is not synthetic is a loaded tick strictly ahead. -/
lemma nextTick_real (htk : cx.TicksOk) {tick : ℤ} (h : (cx.nextTick tick).2 = false) :
    cx.TickAhead tick (cx.nextTick tick).1.1 ∧ ∃ t ∈ cx.ticks, t.tick = (cx.nextTick tick).1.1 := by
  simp only [nextTick, TickAhead] at *
  cases hn : nextInitializedTickWithNet cx.ticks
      (if cx.zeroForOne then saturateI32 (tick - 1) else tick) cx.zeroForOne with
  | none =>
      rw [hn] at h
      simp only at h
      split_ifs at h
  | some nt =>
      obtain ⟨hdir, t, ht, htick⟩ := nextInitializedTickWithNet_ahead hn
      refine ⟨?_, t, ht, htick⟩
      have hbound := htk.ticks t ht
      simp only
      split_ifs at hdir ⊢
      · simp only [saturateI32] at hdir
        omega
      · exact hdir

/-- The bound of a tickless walk is ahead of the initial tick, or extreme. -/
lemma ticklessBound_ahead (htk : cx.TicksOk) (hnil : cx.ticks = []) :
    cx.TickAhead cx.initialTick (cx.ticklessBound cx.initialTick) ∨
      cx.ticklessBound cx.initialTick = if cx.zeroForOne then minTick else maxTick := by
  have hpos := htk.step_pos hnil
  have hle := htk.step_le
  have hinit := htk.initial
  simp only [minTick, maxTick] at hinit
  simp only [TickAhead, ticklessBound, minTick, maxTick, maxCumulativeTickMove]
  cases hz : cx.zeroForOne with
  | true =>
      simp only [if_true]
      rw [wrapI32_of_mem (x := cx.initialTick - cx.noTickStep) (by omega) (by omega),
        wrapI32_of_mem (x := cx.initialTick - (cx.initialTick - cx.noTickStep)) (by omega) (by omega),
        wrapI32_of_mem (x := cx.initialTick - 500) (by omega) (by omega)]
      split_ifs <;> omega
  | false =>
      simp only [Bool.false_eq_true, if_false]
      rw [wrapI32_of_mem (x := cx.initialTick + cx.noTickStep) (by omega) (by omega),
        wrapI32_of_mem (x := cx.initialTick + cx.noTickStep - cx.initialTick) (by omega) (by omega),
        wrapI32_of_mem (x := cx.initialTick + 500) (by omega) (by omega)]
      split_ifs <;> omega

/-- The next tick is strictly ahead, or it is the extreme tick of the direction. -/
lemma nextTick_ahead (htk : cx.TicksOk) (hw : cx.Facing w) :
    cx.TickAhead w.tick (cx.nextTick w.tick).1.1 ∨
      (cx.nextTick w.tick).1.1 = if cx.zeroForOne then minTick else maxTick := by
  cases hs : (cx.nextTick w.tick).2 with
  | false => exact Or.inl (nextTick_real htk hs).1
  | true =>
      cases hn : nextInitializedTickWithNet cx.ticks
          (if cx.zeroForOne then saturateI32 (w.tick - 1) else w.tick) cx.zeroForOne with
      | some nt =>
          simp only [nextTick, hn] at hs
          exact absurd hs (by simp)
      | none =>
          by_cases hne : cx.hasTicks
          · simp only [nextTick, hn, hne, if_true]
            exact Or.inr trivial
          · have hnil : cx.ticks = [] := by simpa [hasTicks] using hne
            simp only [nextTick, hn, hne, if_false, Bool.false_eq_true]
            rw [hw.tickless hnil]
            exact ticklessBound_ahead htk hnil

/-- The price of the next tick is ahead. -/
lemma nextTickPrice_ahead (htk : cx.TicksOk) (hw : cx.Facing w) :
    Ahead cx.zeroForOne w.sqrtPriceX96 (cx.sqrtPriceNextTickX96 w.tick) := by
  rw [sqrtPriceNextTickX96]
  cases hp : getSqrtRatioAtTick (cx.nextTick w.tick).1.1 with
  | none => exact hw.limit
  | some p =>
      rw [Option.getD_some]
      rcases nextTick_ahead htk hw with h | h
      · exact hw.ahead _ p hp h
      · -- the extreme price lies beyond the price limit
        refine hw.limit.trans ?_
        rw [h] at hp
        rw [htk.limit]
        cases hz : cx.zeroForOne with
        | true =>
            rw [hz, if_pos rfl, getSqrtRatioAtTick_minTick] at hp
            obtain rfl := Option.some.inj hp
            simp only [Ahead, if_true]
            decide
        | false =>
            rw [hz, if_neg (by simp), getSqrtRatioAtTick_maxTick] at hp
            obtain rfl := Option.some.inj hp
            simp only [Ahead, Bool.false_eq_true, if_false]
            decide

/-- The target of the step is ahead, and does not pass the price limit. -/
lemma target_ahead (htk : cx.TicksOk) (hw : cx.Facing w) :
    Ahead cx.zeroForOne w.sqrtPriceX96 (cx.sqrtRatioTargetX96 w.tick) ∧
      Ahead cx.zeroForOne (cx.sqrtRatioTargetX96 w.tick) cx.sqrtPriceLimitX96 := by
  have h1 := nextTickPrice_ahead htk hw
  have h2 := hw.limit
  simp only [Ahead, sqrtRatioTargetX96] at *
  split_ifs at *
  · simp only [toNat_max]
    omega
  · simp only [toNat_min]
    omega

/-- A step of a facing walk moves forward, up to the target. -/
lemma swapStep_ahead (hcx : cx.Valid) (htk : cx.TicksOk) (hok : WalkOk w) (hw : cx.Facing w)
    (hr : w.amountRemaining ≠ 0) (h : cx.swapStep w = some st) :
    Ahead cx.zeroForOne w.sqrtPriceX96 st.sqrtRatioNextX96 ∧
      Ahead cx.zeroForOne st.sqrtRatioNextX96 (cx.sqrtRatioTargetX96 w.tick) := by
  have hway := computeSwapStep_onTheWay hok.liquidityInRange hok.price
    (inRange_target hcx w.tick) hcx.fee hr h
  have htarget := (target_ahead htk hw).1
  simp only [OnTheWay, Ahead, le_iff] at *
  split_ifs at * <;> omega

/-- Crossing a tick keeps everything still ahead ahead. -/
lemma Facing.cross (hcx : cx.Valid) (htk : cx.TicksOk) (hok : WalkOk w) (hw : cx.Facing w)
    (hr : w.amountRemaining ≠ 0) (h : cx.swapStep w = some st) (hgo : GoesOn cx w st) :
    cx.Facing (cx.cross w st) := by
  obtain ⟨hprice, hreal, -⟩ := hgo
  obtain ⟨hahead, t₀, ht₀, hnt⟩ := nextTick_real htk hreal
  have hmem := hw.tick_mem
  have hcrossed : cx.crossedTick w = if cx.zeroForOne then (cx.nextTick w.tick).1.1 - 1
      else (cx.nextTick w.tick).1.1 := by
    have hlow := htk.ticks t₀ ht₀
    simp only [crossedTick, TickAhead, maxTick] at *
    split_ifs at *
    · exact wrapI32_of_mem (by omega) (by omega)
    · rfl
  refine ⟨?_, ?_, ?_, ?_⟩
  · exact (swapStep_ahead hcx htk hok hw hr h).2.trans (target_ahead htk hw).2
  · intro t p hp ht
    change Ahead cx.zeroForOne st.sqrtRatioNextX96 p
    change (if cx.zeroForOne then t < cx.crossedTick w else cx.crossedTick w < t) at ht
    rw [hcrossed] at ht
    rw [hprice, sqrtPriceNextTickX96]
    have htmem := (getSqrtRatioAtTick_eq_some.mp hp).1
    cases hq : getSqrtRatioAtTick (cx.nextTick w.tick).1.1 with
    | some q =>
        simp only [Ahead, Option.getD_some]
        split_ifs at ht ⊢
        · exact getSqrtRatioAtTick_mono (by omega) hp hq
        · exact getSqrtRatioAtTick_mono (by omega) hq hp
    | none =>
        -- a tick outside the range leaves no tick of the range ahead
        have hout : ¬ (minTick ≤ (cx.nextTick w.tick).1.1 ∧ (cx.nextTick w.tick).1.1 ≤ maxTick) :=
          fun hin => by
            rw [getSqrtRatioAtTick, if_pos hin] at hq
            exact absurd hq (by simp)
        simp only [TickAhead] at hahead
        split_ifs at ht hahead hmem <;> omega
  · change if cx.zeroForOne then cx.crossedTick w ≤ maxTick else minTick - 1 ≤ cx.crossedTick w
    rw [hcrossed]
    simp only [TickAhead] at hahead
    split_ifs at * <;> omega
  · intro hnil
    rw [hnil] at ht₀
    exact absurd ht₀ (by simp)

lemma WalkOk.cross (hcx : cx.Valid) (hgo : GoesOn cx w st) : WalkOk (cx.cross w st) := by
  obtain ⟨hprice, -, hl⟩ := hgo
  refine ⟨?_, hl, crossedLiquidity_lt cx w⟩
  change InRange st.sqrtRatioNextX96
  rw [hprice]
  exact inRange_sqrtPriceNextTick hcx w.tick

/-- The rest of a facing walk after its first step moves forward, if shorter walks do. -/
lemma walk_ahead_after (hcx : cx.Valid) (htk : cx.TicksOk) (n : ℕ)
    (ih : ∀ w : V3Walk, WalkOk w → cx.Facing w →
      Ahead cx.zeroForOne w.sqrtPriceX96 (repeatLoop cx.walkStep n w).sqrtPriceX96)
    (hok : WalkOk w) (hw : cx.Facing w) (hr : w.amountRemaining ≠ 0) (h : cx.swapStep w = some st) :
    Ahead cx.zeroForOne st.sqrtRatioNextX96 (repeatLoop cx.walkStep (n + 1) w).sqrtPriceX96 := by
  have hwalk := walkStep_of_some hr h
  by_cases hgo : GoesOn cx w st
  · rw [afterStep_of_goesOn hgo] at hwalk
    rw [repeatLoop_of_continue hwalk]
    exact ih _ (WalkOk.cross hcx hgo) (hw.cross hcx htk hok hr h hgo)
  · obtain ⟨w₁, hw₁⟩ := afterStep_of_not_goesOn hgo
    have hst := (afterStep_state cx w st).1
    rw [hw₁] at hwalk hst
    rw [repeatLoop_of_break hwalk, ← hst]
    exact Ahead.refl _ _

/-- A facing walk only moves forward. -/
lemma walk_ahead (hcx : cx.Valid) (htk : cx.TicksOk) (n : ℕ) :
    ∀ w : V3Walk, WalkOk w → cx.Facing w →
      Ahead cx.zeroForOne w.sqrtPriceX96 (repeatLoop cx.walkStep n w).sqrtPriceX96 := by
  induction n with
  | zero => exact fun w _ _ => Ahead.refl _ _
  | succ n ih =>
      intro w hok hw
      by_cases hr : w.amountRemaining = 0
      · rw [repeatLoop_of_break (walkStep_of_zero hr)]
        exact Ahead.refl _ _
      · cases h : cx.swapStep w with
        | none =>
            obtain ⟨w₁, hw₁, hp, -⟩ := walkStep_of_none hr h
            rw [repeatLoop_of_break hw₁, hp]
            exact Ahead.refl _ _
        | some st =>
            exact (swapStep_ahead hcx htk hok hw hr h).1.trans
              (walk_ahead_after hcx htk n ih hok hw hr h)

/-! ## Two inputs -/

/-- The second walk has paid no less, and where its ticks are in order it has gone at least as far. -/
structure NoWorse (cx : V3SwapContext) (start last last' : V3Walk) : Prop where
  paid : last.amountCalculated.toNat ≤ last'.amountCalculated.toNat
  ahead : cx.TicksOk → cx.Facing start → Ahead cx.zeroForOne last.sqrtPriceX96 last'.sqrtPriceX96

lemma SamePlace.walkOk (h : SamePlace w w') (hok : WalkOk w) : WalkOk w' :=
  ⟨h.price ▸ hok.price, h.liquidity ▸ hok.liquidity_pos, h.liquidity ▸ hok.liquidity_lt⟩

/-- A first walk that has not moved is behind wherever the second one gets to. -/
lemma SamePlace.noWorse_of_unmoved (h : SamePlace w w') (hcx : cx.Valid) (hok : WalkOk w) (n : ℕ)
    {last : V3Walk} (hpaid : last.amountCalculated = w.amountCalculated)
    (hprice : last.sqrtPriceX96 = w.sqrtPriceX96) :
    NoWorse cx w' last (repeatLoop cx.walkStep n w') where
  paid := by
    rw [hpaid, h.amountCalculated]
    exact le_walk_amountCalculated _ _
  ahead htk hw := by
    rw [hprice, h.price]
    exact walk_ahead hcx htk _ w' (h.walkOk hok) hw

/-- Both walks make the same step and stop there. -/
lemma SamePlace.noWorse_of_stop (h : SamePlace w w') (n : ℕ) (hr : w.amountRemaining ≠ 0)
    (hr' : w'.amountRemaining ≠ 0) (hstep : cx.swapStep w = some st) (hstep' : cx.swapStep w' = some st)
    (hstop : ¬ GoesOn cx w st) :
    NoWorse cx w' (repeatLoop cx.walkStep (n + 1) w) (repeatLoop cx.walkStep (n + 1) w') := by
  obtain ⟨last, hlast⟩ := afterStep_of_not_goesOn hstop
  obtain ⟨last', hlast'⟩ := afterStep_of_not_goesOn fun hgo => hstop ((h.goesOn st).mpr hgo)
  have hstate := afterStep_state cx w st
  have hstate' := afterStep_state cx w' st
  rw [hlast, LoopStep.state_break] at hstate
  rw [hlast', LoopStep.state_break] at hstate'
  rw [repeatLoop_of_break ((walkStep_of_some hr hstep).trans hlast),
    repeatLoop_of_break ((walkStep_of_some hr' hstep').trans hlast')]
  constructor
  · rw [hstate.2.1, hstate'.2.1]
    simp only [book, h.amountCalculated, le_refl]
  · intro _ _
    rw [hstate.1, hstate'.1]
    exact Ahead.refl _ _

/-- The first walk spends everything in a step that the second outdoes. -/
lemma SamePlace.noWorse_of_spent {st' : SwapStepResult} (h : SamePlace w w') (hcx : cx.Valid)
    (hok : WalkOk w) (n : ℕ) (hr : w.amountRemaining ≠ 0) (hr' : w'.amountRemaining ≠ 0)
    (hstep : cx.swapStep w = some st) (hstep' : cx.swapStep w' = some st')
    (hspent : (cx.book w st).amountRemaining = 0) (hout : st.amountOut.toNat ≤ st'.amountOut.toNat)
    (hprice : if cx.sqrtRatioTargetX96 w.tick ≤ w.sqrtPriceX96
      then st'.sqrtRatioNextX96.toNat ≤ st.sqrtRatioNextX96.toNat
      else st.sqrtRatioNextX96.toNat ≤ st'.sqrtRatioNextX96.toNat) :
    NoWorse cx w' (repeatLoop cx.walkStep (n + 1) w) (repeatLoop cx.walkStep (n + 1) w') := by
  have hok' := h.walkOk hok
  have hwalk := walkStep_of_some hr hstep
  have hwalk' := walkStep_of_some hr' hstep'
  have hstate := afterStep_state cx w st
  have hzero : (cx.walkStep w).state.amountRemaining = 0 := by rw [hwalk, hstate.2.2, hspent]
  obtain ⟨hc, hp⟩ := repeatLoop_of_spent n hzero
  have hgain := le_walk_amountCalculated_after cx n w'
  rw [hwalk', (afterStep_state cx w' st').2.1] at hgain
  constructor
  · rw [hc, hwalk, hstate.2.1]
    refine le_trans ?_ hgain
    simp only [book, toNat_saturatingAdd, h.amountCalculated]
    omega
  · intro htk hw
    rw [hp, hwalk, hstate.1]
    refine Ahead.trans ?_ (walk_ahead_after hcx htk n (walk_ahead hcx htk n) hok' hw hr' hstep')
    -- the step goes down exactly when the swap does, or does not move at all
    have htarget := (target_ahead htk hw).1
    have hway := computeSwapStep_onTheWay hok.liquidityInRange hok.price
      (inRange_target hcx w.tick) hcx.fee hr hstep
    have hway' := computeSwapStep_onTheWay hok'.liquidityInRange hok'.price
      (inRange_target hcx w'.tick) hcx.fee hr' hstep'
    rw [h.price, h.tick] at hway hprice
    simp only [OnTheWay, Ahead, le_iff] at htarget hway hway' hprice ⊢
    split_ifs at htarget hway hway' hprice ⊢ <;> omega

/-- Two walks from the same place, the second with at least as much to spend.  They take the same
steps until the first one runs out; from there on the second only gains. -/
theorem walk_mono (hcx : cx.Valid) (n : ℕ) :
    ∀ w w' : V3Walk, SamePlace w w' → WalkOk w → w.amountRemaining.toNat ≤ w'.amountRemaining.toNat →
      NoWorse cx w' (repeatLoop cx.walkStep n w) (repeatLoop cx.walkStep n w') := by
  induction n with
  | zero =>
      intro w w' hsame hok _
      exact hsame.noWorse_of_unmoved hcx hok 0 rfl rfl
  | succ n ih =>
      intro w w' hsame hok hle
      by_cases hr : w.amountRemaining = 0
      · rw [repeatLoop_of_break (walkStep_of_zero hr)]
        exact hsame.noWorse_of_unmoved hcx hok _ rfl rfl
      cases h : cx.swapStep w with
      | none =>
          obtain ⟨w₁, hw₁, hp, hc⟩ := walkStep_of_none hr h
          rw [repeatLoop_of_break hw₁]
          exact hsame.noWorse_of_unmoved hcx hok _ hc hp
      | some st =>
          have hr' : w'.amountRemaining ≠ 0 := fun h0 => by
            rw [eq_zero_iff.mp h0] at hle
            exact hr (eq_zero_iff.mpr (Nat.le_zero.mp hle))
          obtain ⟨st', h', hcmp⟩ := computeSwapStep_mono hok.liquidityInRange hok.price
            (inRange_target hcx w.tick) hcx.fee hr hle h
          rw [hsame.price, hsame.tick, hsame.liquidity] at h'
          rcases hcmp with rfl | ⟨hspent, hout, hprice⟩
          · by_cases hgo : GoesOn cx w st'
            · have hgo' := (hsame.goesOn st').mp hgo
              rw [repeatLoop_of_continue ((walkStep_of_some hr h).trans (afterStep_of_goesOn hgo)),
                repeatLoop_of_continue ((walkStep_of_some hr' h').trans (afterStep_of_goesOn hgo'))]
              have hnext := ih (cx.cross w st') (cx.cross w' st') (hsame.cross st') (WalkOk.cross hcx hgo)
                (by
                  simp only [V3SwapContext.cross, book, toNat_saturatingSub]
                  omega)
              exact ⟨hnext.paid, fun htk hw =>
                hnext.ahead htk (hw.cross hcx htk (hsame.walkOk hok) hr' h' hgo')⟩
            · exact hsame.noWorse_of_stop n hr hr' h h' hgo
          · have hzero : (cx.book w st).amountRemaining = 0 := by
              rw [eq_zero_iff]
              simp only [book, toNat_saturatingSub, toNat_saturatingAdd]
              have := toNat_lt w.amountRemaining
              omega
            exact hsame.noWorse_of_spent hcx hok n hr hr' h h' hzero hout hprice

end V3SwapContext

/-! ## Monotonicity of the simulator -/

open V3SwapContext

/-- A pool snapshot whose tick and price belong together, with ticks and spacing of the on-chain
types.  A price of exactly `MIN_SQRT_RATIO` already lies beyond the zero-for-one price limit. -/
structure ConsistentSnapshot (s : ConcentratedLiquidityPoolState) (zeroForOne : Bool) : Prop where
  tick_mem : minTick ≤ s.tick ∧ s.tick < maxTick
  price_ge : ∀ p, getSqrtRatioAtTick s.tick = some p → p ≤ s.sqrtPriceX96
  price_le : ∀ p, getSqrtRatioAtTick (s.tick + 1) = some p → s.sqrtPriceX96 ≤ p
  price_gt : zeroForOne → minSqrtRatio < s.sqrtPriceX96
  ticks : ∀ t ∈ s.ticks, -2 ^ 31 < t.tick
  tickSpacing : -2 ^ 23 ≤ s.tickSpacing ∧ s.tickSpacing < 2 ^ 23

variable {s : ConcentratedLiquidityPoolState} {z : Bool} {fee a b : U256}

lemma valid_swapContext (h : swapDisabled s fee = false) : (swapContext s z fee).Valid := by
  simp only [swapDisabled, Bool.or_eq_false_iff, decide_eq_false_iff_not, le_iff, not_le,
    toNat_feePipsScale] at h
  refine ⟨?_, h.2⟩
  simp only [swapContext]
  split_ifs
  · exact ⟨by decide, by decide⟩
  · exact ⟨by decide, by decide⟩

lemma walkOk_initialWalk (h : swapDisabled s fee = false) : WalkOk (initialWalk s a) := by
  simp only [swapDisabled, Bool.or_eq_false_iff, decide_eq_false_iff_not, not_le, not_lt, lt_iff,
    le_iff] at h
  have h0 : 0 < minSqrtRatio.toNat := by decide
  have h1 : maxSqrtRatio.toNat < 2 ^ 160 := by decide
  simp only [initialWalk]
  refine ⟨⟨?_, ?_⟩, ?_, ?_⟩ <;> dsimp only <;> omega

lemma ticksOk_swapContext (h : ConsistentSnapshot s z) : (swapContext s z fee).TicksOk := by
  have hs := h.tickSpacing
  have hstep : defaultNoTickStep s.tickSpacing = max (s.tickSpacing * 2) 1 := by
    rw [defaultNoTickStep, wrapI32_of_mem (by omega) (by omega)]
  refine ⟨h.ticks, ?_, ?_, ⟨h.tick_mem.1, h.tick_mem.2.le⟩, rfl⟩
  · intro hnil
    change s.ticks = [] at hnil
    simp only [swapContext, hnil, List.isEmpty_nil, if_true, hstep]
    omega
  · simp only [swapContext, hstep]
    split_ifs <;> omega

lemma facing_initialWalk (h : ConsistentSnapshot s z) (hd : swapDisabled s fee = false) :
    (swapContext s z fee).Facing (initialWalk s a) := by
  obtain ⟨h1, h2⟩ := h.tick_mem
  simp only [swapDisabled, Bool.or_eq_false_iff, decide_eq_false_iff_not, not_le, not_lt, lt_iff,
    le_iff] at hd
  refine ⟨?_, ?_, ?_, fun _ => rfl⟩
  · simp only [Ahead, swapContext, initialWalk]
    cases hz : z with
    | true =>
        have hgt := lt_iff.mp (h.price_gt hz)
        have hlim : sqrtPriceLimitZeroForOne.toNat = minSqrtRatio.toNat + 1 := by decide
        simp only [if_true]
        omega
    | false =>
        have hlim : maxSqrtRatioExclusive.toNat + 1 = maxSqrtRatio.toNat := by decide
        simp only [Bool.false_eq_true, if_false]
        omega
  · intro t p hp ht
    cases z with
    | true =>
        obtain ⟨q, hq⟩ : ∃ q, getSqrtRatioAtTick s.tick = some q := by
          rw [getSqrtRatioAtTick, if_pos ⟨h1, h2.le⟩]
          exact ⟨_, rfl⟩
        exact (getSqrtRatioAtTick_mono (le_of_lt ht) hp hq).trans (le_iff.mp (h.price_ge q hq))
    | false =>
        obtain ⟨q, hq⟩ : ∃ q, getSqrtRatioAtTick (s.tick + 1) = some q := by
          rw [getSqrtRatioAtTick, if_pos ⟨by omega, by omega⟩]
          exact ⟨_, rfl⟩
        exact (le_iff.mp (h.price_le q hq)).trans (getSqrtRatioAtTick_mono ht hq hp)
  · cases z with
    | true => exact h2.le
    | false => exact (sub_le_self minTick zero_le_one).trans h1

/-- More input never gives less output, and from a consistent snapshot it never ends at a price
less far in the swap direction. -/
theorem simulateV3Swap_mono (s : ConcentratedLiquidityPoolState) (zeroForOne : Bool)
    (edgeFeeBps : Option ℕ) (allowZeroPoolFee : Bool) (a b : U256) (ra rb : V3SwapResult)
    (hab : a ≤ b) (ha : simulateV3Swap s a zeroForOne edgeFeeBps allowZeroPoolFee = some ra)
    (hb : simulateV3Swap s b zeroForOne edgeFeeBps allowZeroPoolFee = some rb) :
    ra.amountOut ≤ rb.amountOut ∧
      (ConsistentSnapshot s zeroForOne →
        Ahead zeroForOne ra.sqrtPriceX96After rb.sqrtPriceX96After) := by
  rw [le_iff] at hab
  simp only [simulateV3Swap, Option.bind_eq_bind, Option.bind_eq_some_iff] at ha hb
  obtain ⟨fee, hfee, ha⟩ := ha
  obtain ⟨fee', hfee', hb⟩ := hb
  obtain rfl := Option.some.inj (hfee.symm.trans hfee')
  cases hd : swapDisabled s fee with
  | true =>
      simp only [hd, or_true, if_true, Option.some.injEq] at ha hb
      obtain rfl := ha
      obtain rfl := hb
      exact ⟨le_iff.mpr le_rfl, fun _ => Ahead.refl _ _⟩
  | false =>
      simp only [hd, Bool.false_eq_true, or_false] at ha hb
      have hcx := valid_swapContext (z := zeroForOne) hd
      split_ifs at ha hb with ha0 hb0 hb0
      · obtain rfl := Option.some.inj ha
        obtain rfl := Option.some.inj hb
        exact ⟨le_iff.mpr le_rfl, fun _ => Ahead.refl _ _⟩
      · obtain rfl := Option.some.inj ha
        obtain rfl := Option.some.inj hb
        refine ⟨le_iff.mpr (by simp), fun hc => ?_⟩
        exact walk_ahead hcx (ticksOk_swapContext hc) maxIterations _ (walkOk_initialWalk hd)
          (facing_initialWalk hc hd)
      · rw [eq_zero_iff.mp hb0] at hab
        exact absurd (eq_zero_iff.mpr (Nat.le_zero.mp hab)) ha0
      · obtain rfl := Option.some.inj ha
        obtain rfl := Option.some.inj hb
        have h := walk_mono hcx maxIterations (initialWalk s a) (initialWalk s b)
          ⟨rfl, rfl, rfl, rfl⟩ (walkOk_initialWalk hd) hab
        exact ⟨le_iff.mpr h.paid,
          fun hc => h.ahead (ticksOk_swapContext hc) (facing_initialWalk hc hd)⟩

/-- A deep pool at price one. -/
def poolAtPriceOne (tick : ℤ) (ticks : List V3Tick) : ConcentratedLiquidityPoolState where
  sqrtPriceX96 := q96
  tick := tick
  liquidity := 1000000000000
  fee := 3000#256
  tickSpacing := 60
  ticks := ticks
  unlocked := true
  feeProtocol := 0
  observationCardinality := 1

instance (z : Bool) (p q : U256) : Decidable (Ahead z p q) :=
  inferInstanceAs (Decidable (if z then q.toNat ≤ p.toNat else p.toNat ≤ q.toNat))

/-- A consistent snapshot, where both halves of the monotonicity apply. -/
theorem simulateV3Swap_mono_poolAtPriceOne :
    ∃ ra rb, simulateV3Swap (poolAtPriceOne 0 [⟨-60, 10, 10⟩, ⟨60, 10, -10⟩]) 1000000#256 true none
        false = some ra ∧
      simulateV3Swap (poolAtPriceOne 0 [⟨-60, 10, 10⟩, ⟨60, 10, -10⟩]) 5000000000#256 true none
        false = some rb ∧
      ra.amountOut ≤ rb.amountOut ∧ Ahead true ra.sqrtPriceX96After rb.sqrtPriceX96After := by
  have hsnap : ConsistentSnapshot (poolAtPriceOne 0 [⟨-60, 10, 10⟩, ⟨60, 10, -10⟩]) true := by
    refine ⟨by decide, ?_, ?_, fun _ => by decide, by decide, by decide⟩
    · intro p hp
      have h : getSqrtRatioAtTick 0 = some q96 := by decide
      obtain rfl := Option.some.inj (h.symm.trans hp)
      exact le_iff.mpr le_rfl
    · intro p hp
      have h : getSqrtRatioAtTick 1 = some (fromLimbs 18379584988209926160 4295182038 0 0) := by
        decide
      obtain rfl := Option.some.inj (h.symm.trans hp)
      decide
  obtain ⟨ra, hra⟩ := Option.isSome_iff_exists.mp (show (simulateV3Swap (poolAtPriceOne 0
    [⟨-60, 10, 10⟩, ⟨60, 10, -10⟩]) 1000000#256 true none false).isSome by decide)
  obtain ⟨rb, hrb⟩ := Option.isSome_iff_exists.mp (show (simulateV3Swap (poolAtPriceOne 0
    [⟨-60, 10, 10⟩, ⟨60, 10, -10⟩]) 5000000000#256 true none false).isSome by decide)
  have h := simulateV3Swap_mono _ true none false _ _ ra rb (by decide) hra hrb
  exact ⟨ra, rb, hra, hrb, h.1, h.2 hsnap⟩

/-- When the stored tick is above the price, the next loaded tick below it can lie above the price:
a zero-for-one swap then moves the price up, and a larger input moves it further up. -/
theorem simulateV3Swap_price_not_mono :
    ¬ ∀ (s : ConcentratedLiquidityPoolState) (zeroForOne : Bool) (edgeFeeBps : Option ℕ)
        (allowZeroPoolFee : Bool) (a b : U256) (ra rb : V3SwapResult),
      s.ticks.Pairwise (fun t u => t.tick < u.tick) → a ≤ b →
      simulateV3Swap s a zeroForOne edgeFeeBps allowZeroPoolFee = some ra →
      simulateV3Swap s b zeroForOne edgeFeeBps allowZeroPoolFee = some rb →
      ra.amountOut ≤ rb.amountOut ∧
        Ahead zeroForOne ra.sqrtPriceX96After rb.sqrtPriceX96After := by
  intro h
  have hfail : ∃ ra rb,
      simulateV3Swap (poolAtPriceOne 1000 [⟨500, 10, 10⟩]) 1#256 true none false = some ra ∧
      simulateV3Swap (poolAtPriceOne 1000 [⟨500, 10, 10⟩]) 26000000000#256 true none false
        = some rb ∧
      ¬ Ahead true ra.sqrtPriceX96After rb.sqrtPriceX96After := by
    refine ⟨⟨0, q96, 1000, 155000, true, false⟩,
      ⟨25327811014#256, 81183109253206544141954791635#256, 487, 175000, false, true⟩, ?_, ?_, ?_⟩
    · decide
    · decide
    · decide
  obtain ⟨ra, rb, hra, hrb, hnot⟩ := hfail
  exact hnot (h _ true none false 1#256 26000000000#256 ra rb (by simp [poolAtPriceOne])
    (by decide) hra hrb).2

end PolygonArb

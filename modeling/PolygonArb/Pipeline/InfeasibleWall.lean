import PolygonArb.Core.Math.DodoMonotone
import PolygonArb.Core.Math.UniswapV2Exact
import PolygonArb.Lib.StageChain
import PolygonArb.Pipeline.ExecutionQuote
import PolygonArb.Pipeline.Ternary
import PolygonArb.Services.Calldata

/-!
# The infeasibility wall

The size search of `ternary.rs` takes the first size that fails to simulate for a wall, and prunes every
larger size, when `sim_failure_is_size_monotonic` accepts the failure.

A pool that is out of depth refuses every larger amount (`refusesFrom_of_outOfDepth`), and neither a
concentrated-liquidity pool nor a pair whose products fit a word pays less for more
(`givesNoLess_of_quotesGrow`).  A route of such hops is walled off for good (`wall_sound`); an amount that
is too small to be paid anything is reported by the same failures and is not
(`wall_dust`).
-/

namespace PolygonArb

open Word Loop V3SwapContext StageChain

/-! ## Walks that run out of ticks -/

section Walk

variable {cx : V3SwapContext} {w w' : V3Walk}

/-- What marks a walk as incomplete once it is over. -/
def Incomplete (w : V3Walk) : Prop :=
  w.usedSynthetic = true ∨ w.tickDataExhausted = true ∨ w.amountRemaining ≠ 0

/-- Incomplete for another reason than a remainder the fee takes whole. -/
def OutOfTicks (feePips : U256) (w : V3Walk) : Prop :=
  w.usedSynthetic = true ∨ w.tickDataExhausted = true ∨ 0 < lessFee feePips w.amountRemaining

/-- The marks after an iteration whose step succeeded: the bound's, and that of a remainder the
iteration could not place. -/
lemma afterStep_marks (cx : V3SwapContext) (w : V3Walk) (st : SwapStepResult) :
    (cx.afterStep w st).state.usedSynthetic = (w.usedSynthetic || (cx.nextTick w.tick).2) ∧
      (w.tickDataExhausted = true → (cx.afterStep w st).state.tickDataExhausted = true) ∧
      ((cx.afterStep w st).state.tickDataExhausted = true →
        w.tickDataExhausted = true ∨ (cx.book w st).amountRemaining ≠ 0) := by
  have hbook : (cx.book w st).tickDataExhausted = w.tickDataExhausted := rfl
  have hcross : (cx.cross w st).tickDataExhausted = w.tickDataExhausted := rfl
  simp only [afterStep]
  split_ifs <;> refine ⟨rfl, ?_, ?_⟩ <;> intro h <;>
    simp only [LoopStep.state_break, LoopStep.state_continue, hbook, hcross, Bool.or_eq_true,
      Bool.and_eq_true, decide_eq_true_eq] at h ⊢ <;>
    tauto

lemma walkStep_failed (hr : w.amountRemaining ≠ 0) (h : cx.swapStep w = none) :
    cx.walkStep w = .break { w with usedSynthetic := w.usedSynthetic || (cx.nextTick w.tick).2 } := by
  rw [walkStep, if_neg hr]
  simp only [swapStep] at h
  rw [h]

/-- What one iteration marks. -/
lemma walkStep_marks (cx : V3SwapContext) (w : V3Walk) :
    (w.usedSynthetic = true → (cx.walkStep w).state.usedSynthetic = true) ∧
      (w.amountRemaining ≠ 0 → (cx.nextTick w.tick).2 = true →
        (cx.walkStep w).state.usedSynthetic = true) ∧
      (w.tickDataExhausted = true → (cx.walkStep w).state.tickDataExhausted = true) := by
  by_cases hr : w.amountRemaining = 0
  · rw [walkStep_of_zero hr]
    exact ⟨id, fun hne => absurd hr hne, id⟩
  cases h : cx.swapStep w with
  | none =>
      rw [walkStep_failed hr h]
      simp only [LoopStep.state_break, Bool.or_eq_true]
      exact ⟨Or.inl, fun _ => Or.inr, id⟩
  | some st =>
      rcases afterStep_marks cx w st with ⟨hused, hexhausted, -⟩
      rw [walkStep_of_some hr h, hused, Bool.or_eq_true]
      exact ⟨Or.inl, fun _ => Or.inr, hexhausted⟩

lemma walk_marks (n : ℕ) (w : V3Walk) :
    (w.usedSynthetic = true → (repeatLoop cx.walkStep n w).usedSynthetic = true) ∧
      (w.tickDataExhausted = true → (repeatLoop cx.walkStep n w).tickDataExhausted = true) :=
  ⟨repeatLoop_inv (fun s => s.usedSynthetic = true) (fun s => (walkStep_marks cx s).1) n w,
    repeatLoop_inv (fun s => s.tickDataExhausted = true) (fun s => (walkStep_marks cx s).2.2) n w⟩

/-- What the first iteration marks stays marked. -/
lemma walk_succ_used (n : ℕ) (h : (cx.walkStep w).state.usedSynthetic = true) :
    (repeatLoop cx.walkStep (n + 1) w).usedSynthetic = true := by
  cases hstep : cx.walkStep w with
  | «continue» next =>
      rw [hstep] at h
      rw [repeatLoop_of_continue hstep]
      exact (walk_marks n next).1 h
  | «break» last =>
      rw [hstep] at h
      rw [repeatLoop_of_break hstep]
      exact h

/-- With something left after the fee a step succeeds. -/
lemma lessFee_of_swapStep_none (hcx : cx.Valid) (hok : WalkOk w) (hr : w.amountRemaining ≠ 0)
    (h : cx.swapStep w = none) : lessFee cx.feePips w.amountRemaining = 0 := by
  by_contra hne
  have hpos := Nat.pos_of_ne_zero hne
  have htarget := inRange_target hcx w.tick
  rcases Nat.lt_or_ge (lessFee cx.feePips w.amountRemaining)
    (stepAmountIn w.sqrtPriceX96 (cx.sqrtRatioTargetX96 w.tick)
      (BitVec.ofNat 256 (max w.liquidity 0).toNat)) with hshort | hreach
  · rcases computeSwapStep_short hok.liquidityInRange hok.price htarget hcx.fee hr hpos hshort with
      ⟨st, hst, -⟩
    rw [swapStep, hst] at h
    cases h
  · rcases computeSwapStep_reached hok.liquidityInRange hok.price htarget hcx.fee with ⟨st, -, -, hall⟩
    rw [swapStep, hall _ hr hpos hreach] at h
    cases h

lemma spent_walk {st : SwapStepResult} (n : ℕ) (hr : w.amountRemaining ≠ 0)
    (h : cx.swapStep w = some st) (hspent : (cx.book w st).amountRemaining = 0) :
    (repeatLoop cx.walkStep (n + 1) w).amountRemaining = 0 ∧
      (repeatLoop cx.walkStep (n + 1) w).usedSynthetic =
        (w.usedSynthetic || (cx.nextTick w.tick).2) ∧
      ((repeatLoop cx.walkStep (n + 1) w).tickDataExhausted = true → w.tickDataExhausted = true) := by
  have hwalk := walkStep_of_some hr h
  rcases afterStep_marks cx w st with ⟨hused, -, hexhausted⟩
  have hremaining := (afterStep_state cx w st).2.2
  rw [← hwalk] at hused hexhausted hremaining
  rw [hspent] at hremaining
  have hend : repeatLoop cx.walkStep (n + 1) w = (cx.walkStep w).state := by
    cases hstep : cx.walkStep w with
    | «break» last => exact repeatLoop_of_break hstep n
    | «continue» next =>
        rw [repeatLoop_of_continue hstep]
        rw [hstep] at hremaining
        cases n with
        | zero => rfl
        | succ n => exact repeatLoop_of_break (walkStep_of_zero hremaining) n
  rw [hend]
  exact ⟨hremaining, hused, fun h => (hexhausted h).resolve_right (by simp [hspent])⟩

lemma ne_zero_of_toNat_le {a b : U256} (hle : a.toNat ≤ b.toNat) (ha : a ≠ 0) : b ≠ 0 := by
  rw [Ne, eq_zero_iff] at ha ⊢
  omega

lemma ne_zero_of_lessFee_pos {feePips a : U256} (hpos : 0 < lessFee feePips a) : a ≠ 0 := by
  rintro rfl
  simp [lessFee] at hpos

/-- The second walk is where the first is, has at least as much to spend and at least its marks. -/
structure Trails (w w' : V3Walk) : Prop where
  same : SamePlace w w'
  ok : WalkOk w
  le : w.amountRemaining.toNat ≤ w'.amountRemaining.toNat
  used : w.usedSynthetic = true → w'.usedSynthetic = true
  exhausted : w.tickDataExhausted = true → w'.tickDataExhausted = true

namespace Trails

variable {st : SwapStepResult} (h : Trails w w') (n : ℕ)

include h

lemma walk_used (hmark : w.usedSynthetic = true) :
    (repeatLoop cx.walkStep n w').usedSynthetic = true :=
  (walk_marks n w').1 (h.used hmark)

lemma walk_exhausted (hmark : w.tickDataExhausted = true) :
    (repeatLoop cx.walkStep n w').tickDataExhausted = true :=
  (walk_marks n w').2 (h.exhausted hmark)

/-- A bound the first walk meets here is met by the second. -/
lemma used_of_step (hr : w.amountRemaining ≠ 0)
    (hmark : (w.usedSynthetic || (cx.nextTick w.tick).2) = true) :
    (repeatLoop cx.walkStep (n + 1) w').usedSynthetic = true := by
  rcases (Bool.or_eq_true _ _).mp hmark with hmark | hmark
  · exact h.walk_used (n + 1) hmark
  · rw [h.same.tick] at hmark
    exact walk_succ_used n ((walkStep_marks cx w').2.1 (ne_zero_of_toNat_le h.le hr) hmark)

lemma book_le (st : SwapStepResult) :
    (cx.book w st).amountRemaining.toNat ≤ (cx.book w' st).amountRemaining.toNat := by
  have hle := h.le
  simp only [book, toNat_saturatingSub]
  omega

lemma cross (hcx : cx.Valid) (hgo : GoesOn cx w st) : Trails (cx.cross w st) (cx.cross w' st) where
  same := h.same.cross st
  ok := WalkOk.cross hcx hgo
  le := @book_le cx _ _ h st
  used hmark := by
    rcases (Bool.or_eq_true _ _).mp hmark with hmark | hmark
    · exact (Bool.or_eq_true _ _).mpr (.inl (h.used hmark))
    · exact (Bool.or_eq_true _ _).mpr (.inr (h.same.tick ▸ hmark))
  exhausted := h.exhausted

/-- The first walk has nothing to spend. -/
lemma incomplete_of_zero (hr : w.amountRemaining = 0)
    (hout : OutOfTicks cx.feePips (repeatLoop cx.walkStep (n + 1) w)) :
    Incomplete (repeatLoop cx.walkStep (n + 1) w') := by
  rw [repeatLoop_of_break (walkStep_of_zero hr)] at hout
  rcases hout with hmark | hmark | hpos
  · exact .inl (h.walk_used _ hmark)
  · exact .inr (.inl (h.walk_exhausted _ hmark))
  · exact absurd hr (ne_zero_of_lessFee_pos hpos)

/-- The first walk's step fails. -/
lemma incomplete_of_none (hcx : cx.Valid) (hr : w.amountRemaining ≠ 0) (hstep : cx.swapStep w = none)
    (hout : OutOfTicks cx.feePips (repeatLoop cx.walkStep (n + 1) w)) :
    Incomplete (repeatLoop cx.walkStep (n + 1) w') := by
  rw [repeatLoop_of_break (walkStep_failed hr hstep)] at hout
  rcases hout with hmark | hmark | hpos
  · exact .inl (h.used_of_step n hr hmark)
  · exact .inr (.inl (h.walk_exhausted _ hmark))
  · have hdust := lessFee_of_swapStep_none hcx h.ok hr hstep
    change 0 < lessFee cx.feePips w.amountRemaining at hpos
    omega

/-- The first walk's step spends everything. -/
lemma incomplete_of_spent (hr : w.amountRemaining ≠ 0) (hstep : cx.swapStep w = some st)
    (hspent : (cx.book w st).amountRemaining = 0)
    (hout : OutOfTicks cx.feePips (repeatLoop cx.walkStep (n + 1) w)) :
    Incomplete (repeatLoop cx.walkStep (n + 1) w') := by
  rcases spent_walk n hr hstep hspent with ⟨hremaining, hused, hkept⟩
  rcases hout with hmark | hmark | hpos
  · rw [hused] at hmark
    exact .inl (h.used_of_step n hr hmark)
  · exact .inr (.inl (h.walk_exhausted _ (hkept hmark)))
  · exact absurd hremaining (ne_zero_of_lessFee_pos hpos)

/-- Both walks make the same step and stop there. -/
lemma incomplete_of_stop (hr : w.amountRemaining ≠ 0) (hstep : cx.swapStep w = some st)
    (hstep' : cx.swapStep w' = some st) (hstop : ¬ GoesOn cx w st)
    (hout : OutOfTicks cx.feePips (repeatLoop cx.walkStep (n + 1) w)) :
    Incomplete (repeatLoop cx.walkStep (n + 1) w') := by
  have hr' := ne_zero_of_toNat_le h.le hr
  obtain ⟨last, hlast⟩ := afterStep_of_not_goesOn hstop
  obtain ⟨last', hlast'⟩ := afterStep_of_not_goesOn fun hgo => hstop ((h.same.goesOn st).mpr hgo)
  have hstate := afterStep_state cx w st
  have hstate' := afterStep_state cx w' st
  have hmarks := afterStep_marks cx w st
  have hend' := repeatLoop_of_break ((walkStep_of_some hr' hstep').trans hlast') n
  rw [hlast] at hstate hmarks
  rw [hlast'] at hstate'
  rw [repeatLoop_of_break ((walkStep_of_some hr hstep).trans hlast) n] at hout
  have hunfilled : (cx.book w st).amountRemaining ≠ 0 →
      Incomplete (repeatLoop cx.walkStep (n + 1) w') := by
    intro hne
    refine .inr (.inr ?_)
    rw [hend']
    exact hstate'.2.2 ▸ ne_zero_of_toNat_le (h.book_le st) hne
  rcases hout with hmark | hmark | hpos
  · rw [LoopStep.state_break] at hmarks
    rw [hmarks.1] at hmark
    exact .inl (h.used_of_step n hr hmark)
  · rcases hmarks.2.2 hmark with hmark | hne
    · exact .inr (.inl (h.walk_exhausted _ hmark))
    · exact hunfilled hne
  · exact hunfilled (hstate.2.2 ▸ ne_zero_of_lessFee_pos hpos)

end Trails

/-- A walk that ran out of ticks is incomplete with more to spend as well: the two walks make the same
steps up to the one that spends the first, and are marked at the same bounds. -/
lemma walk_incomplete (hcx : cx.Valid) (n : ℕ) : ∀ w w' : V3Walk, Trails w w' →
    OutOfTicks cx.feePips (repeatLoop cx.walkStep n w) → Incomplete (repeatLoop cx.walkStep n w') := by
  induction n with
  | zero =>
      intro w w' h hout
      exact hout.imp h.used
        (Or.imp h.exhausted fun hpos => ne_zero_of_toNat_le h.le (ne_zero_of_lessFee_pos hpos))
  | succ n ih =>
      intro w w' h hout
      by_cases hr : w.amountRemaining = 0
      · exact h.incomplete_of_zero n hr hout
      have hr' := ne_zero_of_toNat_le h.le hr
      cases hstep : cx.swapStep w with
      | none => exact h.incomplete_of_none n hcx hr hstep hout
      | some st =>
          obtain ⟨st', hstep', hcmp⟩ := computeSwapStep_mono h.ok.liquidityInRange h.ok.price
            (inRange_target hcx w.tick) hcx.fee hr h.le hstep
          rw [h.same.price, h.same.tick, h.same.liquidity] at hstep'
          rcases hcmp with rfl | ⟨hspent, -, -⟩
          · by_cases hgo : GoesOn cx w st'
            · have hgo' := (h.same.goesOn st').mp hgo
              rw [repeatLoop_of_continue ((walkStep_of_some hr hstep).trans (afterStep_of_goesOn hgo))]
                at hout
              rw [repeatLoop_of_continue ((walkStep_of_some hr' hstep').trans (afterStep_of_goesOn hgo'))]
              exact ih _ _ (h.cross hcx hgo) hout
            · exact h.incomplete_of_stop n hr hstep hstep' hgo hout
          · have hzero : (cx.book w st).amountRemaining = 0 := by
              rw [eq_zero_iff]
              simp only [book, toNat_saturatingSub, toNat_saturatingAdd]
              have := toNat_lt w.amountRemaining
              omega
            exact h.incomplete_of_spent n hr hstep hzero hout

end Walk

/-! ## One hop -/

/-- The pool's depth ends below the amount.  The four cases are the reserve of a pair, the cap of a
concentrated-liquidity hop, its loaded ticks, and Balancer's largest input. -/
inductive OutOfDepth (cap : U256) : PoolState → Edge → U256 → Prop
  | reserve {s : V2PoolState} {edge : Edge} {a : U256} (hp : edge.protocol = .uniswapV2)
      (h : v2ReserveIn s edge.zeroForOne ≤ a) : OutOfDepth cap (.v2 s) edge a
  | aboveCap {state : PoolState} {edge : Edge} {a : U256} (hcl : edge.protocol.isCl = true)
      (h : clHopExceedsShallowCap a cap = true) : OutOfDepth cap state edge a
  | ticks {state : PoolState} {s : ConcentratedLiquidityPoolState} {edge : Edge} {a fee : U256}
      (hm : protocolMatchesPoolState edge.protocol state = true) (hs : clState state = some s)
      (hticks : s.ticks ≠ [])
      (hfee : swapFeePips s edge.zeroForOne (some edge.feeBps) (edge.protocol = .uniswapV4) = some fee)
      (hd : swapDisabled s fee = false)
      (h : OutOfTicks fee
        (repeatLoop (swapContext s edge.zeroForOne fee).walkStep maxIterations (initialWalk s a))) :
      OutOfDepth cap state edge a
  | ratio {s : BalancerPoolState} {edge : Edge} {a : U256} (hp : edge.protocol = .balancerV2)
      (h : exceedsBalancerMaxInRatio a (s.balances.getD edge.tokenInIdx 0) = true) :
      OutOfDepth cap (.balancer s) edge a

/-- A pair whose products fit a word for every amount below its reserve. -/
structure PairFits (s : V2PoolState) (edge : Edge) : Prop where
  numerator : (v2ReserveIn s edge.zeroForOne).toNat *
    (resolveV2FeeWithEdge s (some edge.feeBps)).1.toNat * (v2ReserveIn s !edge.zeroForOne).toNat < 2 ^ 256
  denominator : 2 * ((v2ReserveIn s edge.zeroForOne).toNat *
    (resolveV2FeeWithEdge s (some edge.feeBps)).2.toNat) < 2 ^ 256

/-- The pools whose quotes are known to grow with the amount. -/
inductive QuotesGrow : PoolState → Edge → Prop
  | cl {state : PoolState} {edge : Edge} (hcl : edge.protocol.isCl = true) : QuotesGrow state edge
  | pair {s : V2PoolState} {edge : Edge} (h : PairFits s edge) : QuotesGrow (.v2 s) edge

section Hop

variable {state : PoolState} {edge : Edge} {cap a b : U256}

lemma ne_zero_of_le (ha : a ≠ 0) (hab : a ≤ b) : b ≠ 0 := by
  rintro rfl
  rw [le_iff] at hab
  exact ha (eq_zero_iff.mpr (Nat.le_zero.mp hab))

lemma exceedsShallowCap_mono (hab : a ≤ b) (h : clHopExceedsShallowCap a cap = true) :
    clHopExceedsShallowCap b cap = true := by
  rw [clHopExceedsShallowCap, Bool.and_eq_true, decide_eq_true_eq, decide_eq_true_eq] at h ⊢
  rw [le_iff] at hab
  refine ⟨h.1, ?_⟩
  have := lt_iff.mp h.2
  rw [lt_iff]
  omega

lemma exceedsMaxInRatio_mono {balance : U256} (hab : a ≤ b)
    (h : exceedsBalancerMaxInRatio a balance = true) : exceedsBalancerMaxInRatio b balance = true := by
  rw [exceedsBalancerMaxInRatio, Bool.or_eq_true] at h ⊢
  refine h.imp id fun hlimit => ?_
  cases hmul : checkedMul balance maxInRatio with
  | none => rfl
  | some limit =>
      rw [hmul] at hlimit
      rw [le_iff] at hab
      simp only [decide_eq_true_eq, lt_iff] at hlimit ⊢
      omega

/-- Every kind of Balancer pool pays nothing for more than its largest input. -/
lemma simulateBalancerSwap_of_ratio {s : BalancerPoolState} {inIdx outIdx : ℕ}
    (h : exceedsBalancerMaxInRatio a (s.balances.getD inIdx 0) = true) :
    simulateBalancerSwap s a inIdx outIdx = some 0 := by
  rw [simulateBalancerSwap]
  split_ifs with hidle hlegs
  · rfl
  · rfl
  · cases s.poolType with
    | weighted =>
        simp only [getBalancerWeightedAmountOut, h, or_true, if_true]
        split_ifs <;> rfl
    | stable =>
        simp only [getBalancerStableAmountOut, h, if_true]
        split_ifs <;> rfl
    | linear =>
        simp only [getBalancerLinearAmountOut, h, if_true]
        cases s.linear with
        | none => rfl
        | some linear => simp

/-- Past the loaded ticks a swap of more is shallow or synthetic. -/
lemma swap_marked {s : ConcentratedLiquidityPoolState} {zeroForOne allowZeroPoolFee : Bool}
    {edgeFeeBps : Option ℕ} {fee : U256} {r : V3SwapResult}
    (hfee : swapFeePips s zeroForOne edgeFeeBps allowZeroPoolFee = some fee)
    (hd : swapDisabled s fee = false)
    (hout : OutOfTicks fee
      (repeatLoop (swapContext s zeroForOne fee).walkStep maxIterations (initialWalk s a)))
    (hb : b ≠ 0) (hab : a ≤ b)
    (hr : simulateV3Swap s b zeroForOne edgeFeeBps allowZeroPoolFee = some r) :
    r.shallow = true ∨ r.synthetic = true := by
  rcases simulateV3Swap_eq_some hr with
    ⟨fee', hfee', ⟨hidle, -⟩ | ⟨-, -, w, rfl, -, hsynthetic, hshallow⟩⟩
  · rw [hfee] at hfee'
    cases hfee'
    rw [hd] at hidle
    exact absurd (hidle.resolve_right (by simp)) hb
  · rw [hfee] at hfee'
    cases hfee'
    have hincomplete := walk_incomplete (valid_swapContext hd) maxIterations (initialWalk s a)
      (initialWalk s b) ⟨⟨rfl, rfl, rfl, rfl⟩, walkOk_initialWalk hd, le_iff.mp hab, id, id⟩ hout
    rw [hshallow, hsynthetic]
    rcases hincomplete with hmark | hmark | hmark
    · exact .inr hmark
    · exact .inl (by simp [hmark])
    · exact .inl (by rw [decide_eq_true hmark, Bool.or_true])

/-- A pool out of depth refuses every larger amount. -/
lemma simulateHop_of_outOfDepth (h : OutOfDepth cap state edge a) (ha : a ≠ 0) (hab : a ≤ b) :
    ∃ reject, simulateHop state edge b cap = some (.error reject) := by
  have hb := ne_zero_of_le ha hab
  cases h with
  | reserve hp hle =>
      refine ⟨.math, simulateHop_v2_of_le hb hp ?_⟩
      rw [le_iff] at hle hab ⊢
      omega
  | aboveCap hcl hex => exact ⟨.clCap, simulateHop_of_exceeds hb hcl (exceedsShallowCap_mono hab hex)⟩
  | @ticks _ s _ _ fee hm hs hticks hfee hd hout =>
      have hcl : edge.protocol.isCl = true := by
        cases state <;> cases hs <;> cases hp : edge.protocol <;> rw [hp] at hm <;>
          first | rfl | cases hm
      by_cases hex : clHopExceedsShallowCap b cap = true
      · exact ⟨.clCap, simulateHop_of_exceeds hb hcl hex⟩
      rw [Bool.not_eq_true] at hex
      rcases simulateHop_of_cl hb hcl hm hex with ⟨s', hloaded, hhop⟩
      have hempty : s'.ticks.isEmpty = false := by
        rw [← hloaded, ← Bool.not_eq_true]
        intro hemp
        refine hticks (List.isEmpty_iff.mp ?_)
        rw [← hemp]
        cases state <;> cases hs <;> rfl
      have hswap : clSwapOf state edge b =
          simulateV3Swap s b edge.zeroForOne (some edge.feeBps) (edge.protocol = .uniswapV4) := by
        cases state <;> cases hs <;> rfl
      have hrun : ∃ r, clSwapOf state edge b = some r := by
        rw [hswap, simulateV3Swap, hfee]
        simp only [Option.bind_eq_bind, Option.bind_some]
        split_ifs <;> exact ⟨_, rfl⟩
      rcases hrun with ⟨r, hr⟩
      have hmarks : r.shallow = true ∨ r.synthetic = true :=
        swap_marked hfee hd hout hb hab (hswap ▸ hr)
      rw [hhop, hr, Option.map_some, clHopResult, hempty]
      rcases hmarks with hmark | hmark
      · exact ⟨.clShallow, by simp [hmark]⟩
      · cases r.shallow with
        | true => exact ⟨.clShallow, by simp⟩
        | false => exact ⟨.clSynthetic, by simp [hmark]⟩
  | @ratio s _ _ hp hex =>
      refine ⟨.math, ?_⟩
      have hzero := @simulateBalancerSwap_of_ratio _ _ _ edge.tokenOutIdx
        (exceedsMaxInRatio_mono hab hex)
      rw [simulateHop, if_neg hb, hp]
      simp only [ProtocolType.isCl, Bool.false_and, Bool.false_eq_true, if_false, simulateHopByFamily, hp,
        hzero, Option.map_some, nonzeroHop, if_true]

/-- A concentrated-liquidity hop that is accepted pays what its swap pays. -/
lemma simulateHop_ok_clAmount {hop : HopResult} (h0 : a ≠ 0) (hcl : edge.protocol.isCl = true)
    (h : simulateHop state edge a cap = some (.ok hop)) :
    ∃ r, clSwapOf state edge a = some r ∧ r.amountOut = hop.amountOut := by
  rcases simulateHop_of_cl h0 hcl (simulateHop_ok_matches h0 h) (simulateHop_ok_cap h0 hcl h) with
    ⟨s, -, hhop⟩
  rw [hhop] at h
  rcases Option.map_eq_some_iff.mp h with ⟨r, hr, hresult⟩
  refine ⟨r, hr, ?_⟩
  rw [clHopResult] at hresult
  split_ifs at hresult <;> cases hresult <;> rfl

/-- A pair that is asked pays the quote of the amount. -/
lemma simulateHop_ok_v2Amount {s : V2PoolState} {hop : HopResult} (h0 : a ≠ 0)
    (h : simulateHop (.v2 s) edge a cap = some (.ok hop)) :
    a.toNat < (v2ReserveIn s edge.zeroForOne).toNat ∧
      simulateV2Swap s a edge.zeroForOne (some edge.feeBps) = some hop.amountOut := by
  have hp : edge.protocol = .uniswapV2 := by
    have hm := simulateHop_ok_matches h0 h
    cases hp : edge.protocol <;> rw [hp] at hm <;> first | rfl | cases hm
  have hlt := simulateHop_ok_v2 h0 hp h
  rw [simulateHop, if_neg h0, hp] at h
  simp only [ProtocolType.isCl, Bool.false_and, Bool.false_eq_true, if_false, simulateHopByFamily, hp,
    if_neg hlt] at h
  rcases Option.map_eq_some_iff.mp h with ⟨out, hout, hresult⟩
  cases hresult
  rw [le_iff] at hlt
  exact ⟨by omega, hout⟩

/-- The exact quote grows with the amount. -/
lemma v2ExactAmountOut_mono {reserveIn reserveOut fee denom : U256} (hin : 0 < reserveIn.toNat)
    (hdenom : 0 < denom.toNat) (hab : a.toNat ≤ b.toNat) :
    v2ExactAmountOut a reserveIn reserveOut fee denom ≤
      v2ExactAmountOut b reserveIn reserveOut fee denom := by
  have hpos : 0 < reserveIn.toNat * denom.toNat := Nat.mul_pos hin hdenom
  refine div_le_div_of_cross (Nat.add_pos_left hpos _) (Nat.add_pos_left hpos _) ?_
  simp only [exactNumerator, exactDenominator]
  have hcross : a.toNat * fee.toNat * reserveOut.toNat * (reserveIn.toNat * denom.toNat) ≤
      b.toNat * fee.toNat * reserveOut.toNat * (reserveIn.toNat * denom.toNat) :=
    Nat.mul_le_mul_right _ (Nat.mul_le_mul_right _ (Nat.mul_le_mul_right _ hab))
  calc a.toNat * fee.toNat * reserveOut.toNat *
        (reserveIn.toNat * denom.toNat + b.toNat * fee.toNat)
      = a.toNat * fee.toNat * reserveOut.toNat * (reserveIn.toNat * denom.toNat) +
          a.toNat * fee.toNat * reserveOut.toNat * (b.toNat * fee.toNat) := Nat.mul_add _ _ _
    _ ≤ b.toNat * fee.toNat * reserveOut.toNat * (reserveIn.toNat * denom.toNat) +
          a.toNat * fee.toNat * reserveOut.toNat * (b.toNat * fee.toNat) :=
        Nat.add_le_add_right hcross _
    _ = b.toNat * fee.toNat * reserveOut.toNat *
          (reserveIn.toNat * denom.toNat + a.toNat * fee.toNat) := by ring

lemma quotable_of_ne_zero {reserveIn reserveOut fee denom q : U256}
    (h : getAmountOut a reserveIn reserveOut fee denom = some q) (hne : q ≠ 0) :
    Quotable a reserveIn reserveOut fee denom := by
  by_cases hguards : a = 0 ∨ reserveIn = 0 ∨ reserveOut = 0 ∨ fee = 0 ∨ denom = 0 ∨ denom ≤ fee
  · rw [getAmountOut, if_pos hguards] at h
    exact absurd (Option.some.inj h).symm hne
  · simp only [not_or] at hguards
    rcases hguards with ⟨ha, hin, hout, hfee, hdenom, hle⟩
    rw [le_iff] at hle
    exact ⟨ha, hin, hout, hfee, hdenom, lt_iff.mpr (by omega)⟩

/-- What a pair whose products fit quotes for an amount below its reserve. -/
lemma getAmountOut_of_fits {reserveIn reserveOut fee denom : U256}
    (hq : Quotable a reserveIn reserveOut fee denom) (hlt : a.toNat < reserveIn.toNat)
    (hnum : reserveIn.toNat * fee.toNat * reserveOut.toNat < 2 ^ 256)
    (hden : 2 * (reserveIn.toNat * denom.toNat) < 2 ^ 256) :
    ∃ q, getAmountOut a reserveIn reserveOut fee denom = some q ∧
      q.toNat = v2ExactAmountOut a reserveIn reserveOut fee denom := by
  have hmodulus : 2 ^ 256 ≤ quoteModulus a reserveIn reserveOut := by
    rw [quoteModulus]
    split_ifs
    · exact le_rfl
    · decide +kernel
  have hprod : a.toNat * fee.toNat ≤ reserveIn.toNat * fee.toNat := Nat.mul_le_mul_right _ hlt.le
  have hfee : reserveIn.toNat * fee.toNat ≤ reserveIn.toNat * denom.toNat :=
    Nat.mul_le_mul_left _ (lt_iff.mp hq.feeLt).le
  refine ((getAmountOut_exact_iff hq).mpr ⟨?_, ?_⟩).1
  · exact (Nat.mul_le_mul_right reserveOut.toNat hprod).trans_lt (hnum.trans_le hmodulus)
  · rw [exactDenominator]
    omega

/-- A pair whose products fit does not pay less for more. -/
lemma simulateV2Swap_mono {s : V2PoolState} {out out' : U256} (hfits : PairFits s edge)
    (hab : a.toNat ≤ b.toNat) (hb : b.toNat < (v2ReserveIn s edge.zeroForOne).toNat)
    (h : simulateV2Swap s a edge.zeroForOne (some edge.feeBps) = some out)
    (h' : simulateV2Swap s b edge.zeroForOne (some edge.feeBps) = some out') : out ≤ out' := by
  rcases hfits with ⟨hnum, hden⟩
  have hswap : ∀ x, simulateV2Swap s x edge.zeroForOne (some edge.feeBps) =
      getAmountOut x (v2ReserveIn s edge.zeroForOne) (v2ReserveIn s !edge.zeroForOne)
        (resolveV2FeeWithEdge s (some edge.feeBps)).1 (resolveV2FeeWithEdge s (some edge.feeBps)).2 := by
    intro x
    rw [simulateV2Swap]
    cases edge.zeroForOne <;> rfl
  rw [hswap] at h h'
  rw [le_iff]
  by_cases hne : out = 0
  · rw [hne]
    simp
  have hq := quotable_of_ne_zero h hne
  have hq' : Quotable b _ _ _ _ :=
    { hq with amountNe := ne_zero_of_le hq.amountNe (le_iff.mpr hab) }
  rcases getAmountOut_of_fits hq (by omega) hnum hden with ⟨_, hsome, hexact⟩
  rcases getAmountOut_of_fits hq' hb hnum hden with ⟨_, hsome', hexact'⟩
  rw [h] at hsome
  rw [h'] at hsome'
  cases hsome
  cases hsome'
  rw [hexact, hexact']
  have hdenom : 0 < (resolveV2FeeWithEdge s (some edge.feeBps)).2.toNat :=
    Nat.pos_of_ne_zero fun h0 => hq.denomNe (eq_zero_iff.mpr h0)
  exact v2ExactAmountOut_mono (by omega) hdenom hab

end Hop

/-! ## The hops of a route -/

/-- What a hop of the walk passes on. -/
def hopOut (arena : StateArena) (edge : Edge) (cap a : U256) : Option U256 :=
  (walkHop arena edge a cap).join.map HopResult.amountOut

section Route

variable {arena : StateArena} {edge : Edge} {cap a b : U256}

lemma hopOut_eq_some {out : U256} :
    hopOut arena edge cap a = some out ↔
      ∃ hop, walkHop arena edge a cap = some (some hop) ∧ hop.amountOut = out := by
  simp only [hopOut, Option.map_eq_some_iff, Option.join_eq_some_iff]

/-- The pool of the hop, as the walk asks it, is out of depth. -/
def OutOfDepthAt (arena : StateArena) (edge : Edge) (cap a : U256) : Prop :=
  ∃ state realigned, arena.poolState edge.poolIndex = some state ∧
    realignMultiTokenEdge arena state edge = some realigned ∧ OutOfDepth cap state realigned a

lemma refusesFrom_of_outOfDepth (h : OutOfDepthAt arena edge cap a) (ha : a ≠ 0) :
    RefusesFrom (hopOut arena edge cap) a := by
  rcases h with ⟨state, realigned, hpool, hrealign, hdepth⟩
  intro b hab
  cases hout : hopOut arena edge cap b with
  | none => rfl
  | some out =>
      exfalso
      rcases hopOut_eq_some.mp hout with ⟨hop, hwalk, -⟩
      rcases walkHop_some hwalk with ⟨state', realigned', hon⟩
      have hstate := hon.pool
      rw [hpool] at hstate
      cases hstate
      have hedge := hon.realign
      rw [hrealign] at hedge
      cases hedge
      rcases simulateHop_of_outOfDepth hdepth ha hab with ⟨reject, hreject⟩
      have hquote := hon.quote
      rw [hreject] at hquote
      cases hquote

/-- The pool of the hop is one whose quotes grow. -/
def QuotesGrowAt (arena : StateArena) (edge : Edge) : Prop :=
  ∃ state realigned, arena.poolState edge.poolIndex = some state ∧
    realignMultiTokenEdge arena state edge = some realigned ∧ QuotesGrow state realigned

lemma givesNoLess_of_quotesGrow (h : QuotesGrowAt arena edge) (ha : a ≠ 0) :
    GivesNoLess (hopOut arena edge cap) a := by
  rcases h with ⟨state, realigned, hpool, hrealign, hgrow⟩
  intro b c d hab hc hd
  have hquote : ∀ x out, hopOut arena edge cap x = some out →
      ∃ hop, simulateHop state realigned x cap = some (.ok hop) ∧ hop.amountOut = out := by
    intro x out hx
    rcases hopOut_eq_some.mp hx with ⟨hop, hwalk, rfl⟩
    rcases walkHop_some hwalk with ⟨state', realigned', hon⟩
    have hstate := hon.pool
    rw [hpool] at hstate
    cases hstate
    have hedge := hon.realign
    rw [hrealign] at hedge
    cases hedge
    exact ⟨hop, hon.quote, rfl⟩
  rcases hquote a c hc with ⟨hop, hhop, rfl⟩
  rcases hquote b d hd with ⟨hop', hhop', rfl⟩
  have hb := ne_zero_of_le ha hab
  cases hgrow with
  | cl hcl =>
      rcases simulateHop_ok_clAmount ha hcl hhop with ⟨r, hr, hpaid⟩
      rcases simulateHop_ok_clAmount hb hcl hhop' with ⟨r', hr', hpaid'⟩
      rw [← hpaid, ← hpaid']
      cases state with
      | v3 s => exact (simulateV3Swap_mono _ _ _ _ _ _ _ _ hab hr hr').1
      | v4 s => exact (simulateV3Swap_mono _ _ _ _ _ _ _ _ hab hr hr').1
      | _ => cases hr
  | pair hfits =>
      rcases simulateHop_ok_v2Amount ha hhop with ⟨-, hswap⟩
      rcases simulateHop_ok_v2Amount hb hhop' with ⟨hlt, hswap'⟩
      exact simulateV2Swap_mono hfits (le_iff.mp hab) hlt hswap hswap'

/-- The hops of a route from `i` on, as stages. -/
def routeStages (arena : StateArena) (caps : ShallowCaps) : ℕ → List Edge → List (U256 → Option U256)
  | _, [] => []
  | i, edge :: edges =>
      (fun a => caps[i]?.bind fun cap => hopOut arena edge cap a) :: routeStages arena caps (i + 1) edges

/-- A route has a trace exactly when its stages let the amount through. -/
lemma run_routeStages (caps : ShallowCaps) (edges : List Edge) :
    ∀ (i : ℕ) (a : U256),
      run (routeStages arena caps i edges) a =
        (routeTrace arena caps i edges a).join.map (traceAmount a) := by
  induction edges with
  | nil =>
      intro i a
      rfl
  | cons edge edges ih =>
      intro i a
      rw [routeStages, run, routeTrace]
      cases caps[i]? with
      | none => rfl
      | some cap =>
          simp only [Option.bind_some, hopOut]
          cases walkHop arena edge a cap with
          | none => rfl
          | some outcome =>
              cases outcome with
              | none => rfl
              | some hop =>
                  simp only [Option.join_some, Option.map_some, Option.bind_some, ih]
                  cases routeTrace arena caps (i + 1) edges hop.amountOut with
                  | none => rfl
                  | some trace =>
                      cases trace with
                      | none => rfl
                      | some hops => simp [traceAmount_cons]

/-- On the way of the amount, no pool before the one that refuses it pays less for more, and that one
is out of depth. -/
def WallLasts (arena : StateArena) (caps : ShallowCaps) : ℕ → List Edge → U256 → Prop
  | _, [], _ => True
  | i, edge :: edges, a =>
      ∀ cap, caps[i]? = some cap →
        (hopOut arena edge cap a = none → OutOfDepthAt arena edge cap a) ∧
        ∀ out, hopOut arena edge cap a = some out →
          (QuotesGrowAt arena edge ∨ GivesNoLess (hopOut arena edge cap) a) ∧
            WallLasts arena caps (i + 1) edges out

lemma lasting_of_wallLasts (caps : ShallowCaps) (edges : List Edge) :
    ∀ (i : ℕ) (a : U256), a ≠ 0 → WallLasts arena caps i edges a →
      Lasting (routeStages arena caps i edges) a := by
  induction edges with
  | nil =>
      intro i a _ _
      trivial
  | cons edge edges ih =>
      intro i a ha hlasts
      rw [routeStages, Lasting]
      cases hcap : caps[i]? with
      | none => exact ⟨fun _ b _ => rfl, fun b hb => by cases hb⟩
      | some cap =>
          rcases hlasts cap hcap with ⟨hrefuse, hpass⟩
          simp only [Option.bind_some]
          refine ⟨fun hstop => ?_, fun out hout => ⟨?_, ?_⟩⟩
          · exact refusesFrom_of_outOfDepth (hrefuse hstop) ha
          · exact (hpass out hout).1.elim (fun hgrow => givesNoLess_of_quotesGrow hgrow ha) id
          · refine ih (i + 1) out ?_ (hpass out hout).2
            rcases hopOut_eq_some.mp hout with ⟨hop, hwalk, rfl⟩
            rcases walkHop_some hwalk with ⟨_, _, hon⟩
            exact hon.nonzero ha

/-- A simulated route went through all its stages. -/
lemma run_of_simulateRouteMinimal {edges : List Edge} {r : MinimalSimResult} (ha : a ≠ 0)
    (h : simulateRouteMinimal arena edges a = some (some r)) :
    ∃ caps, resolveCaps arena edges none = some caps ∧
      run (routeStages arena caps 0 edges) a = some r.amountOut := by
  rw [simulateRouteMinimal, simulateRouteMinimalWithCaps] at h
  have hsim : routeEdgesSimulatable arena edges = true := by
    by_contra hsim
    rw [if_pos (Bool.eq_false_iff.mpr hsim)] at h
    cases h
  rw [hsim, if_neg (by simp), if_neg ha, walkRouteHops_eq arena (length_le_of_simulatable hsim)] at h
  cases hcaps : resolveCaps arena edges none with
  | none =>
      rw [hcaps] at h
      cases h
  | some caps =>
      refine ⟨caps, rfl, ?_⟩
      rw [hcaps, Option.bind_some] at h
      rw [run_routeStages]
      cases htrace : routeTrace arena caps 0 edges a with
      | none =>
          rw [htrace] at h
          cases h
      | some trace =>
          cases trace with
          | none =>
              rw [htrace] at h
              cases h
          | some hops =>
              rw [htrace] at h
              cases h
              rfl

/-- A failure of the diagnostic is an amount the stages do not let through. -/
lemma run_of_minimalSimFailure {edges : List Edge} {failure : MinimalSimFailure} {caps : ShallowCaps}
    (hsim : routeEdgesSimulatable arena edges = true) (ha : a ≠ 0)
    (hcaps : resolveCaps arena edges none = some caps)
    (h : minimalSimFailure arena edges a = some (some failure)) :
    run (routeStages arena caps 0 edges) a = none := by
  have hnone := @minimalSimFailureFrom_isNone arena caps edges 0 a ha
  rw [minimalSimFailure, hsim, if_neg (by simp), if_neg ha, hcaps] at h
  change minimalSimFailureFrom arena caps 0 edges a = some (some failure) at h
  rw [h, Option.map_some] at hnone
  rw [run_routeStages]
  rcases Option.map_eq_some_iff.mp hnone.symm with ⟨trace, htrace, hisNone⟩
  cases trace with
  | none =>
      rw [htrace]
      rfl
  | some hops => cases hisNone

end Route

/-- The wall is sound where it lasts: no size above one whose failure is accepted can be simulated. -/
theorem wall_sound (arena : StateArena) (edges : List Edge) (a : U256)
    (hlasts : ∀ caps, resolveCaps arena edges none = some caps → WallLasts arena caps 0 edges a) :
    ∀ failure, minimalSimFailure arena edges a = some (some failure) →
      simFailureIsSizeMonotonic (some failure) = true →
      ∀ b, a ≤ b → ∀ r, simulateRouteMinimal arena edges b ≠ some (some r) := by
  intro failure hfailure haccepted b hab r hrun
  have hsim : routeEdgesSimulatable arena edges = true := by
    by_contra hsim
    rw [minimalSimFailure, if_pos (Bool.eq_false_iff.mpr hsim)] at hfailure
    cases hfailure
    cases haccepted
  have ha : a ≠ 0 := by
    rintro rfl
    rw [minimalSimFailure, hsim, if_neg (by simp), if_pos rfl] at hfailure
    cases hfailure
  rcases run_of_simulateRouteMinimal (ne_zero_of_le ha hab) hrun with ⟨caps, hcaps, hthrough⟩
  have hstop := run_of_minimalSimFailure hsim ha hcaps hfailure
  have hlasting := lasting_of_wallLasts caps edges 0 a ha (hlasts caps hcaps)
  rw [run_eq_none_of_lasting hlasting hstop hab] at hthrough
  cases hthrough

/-! ### A pair -/

/-- A pair with twice as much of token 2 as of token 3. -/
def slopedPair : StateArena :=
  pairArena (.v2 ⟨2000000000000#256, 1000000000000#256, 997#256, 1000#256, 1⟩)

/-- The reserve of the pair is a wall: what exceeds it by half cannot be simulated either. -/
theorem wall_sound_reserve :
    minimalSimFailure slopedPair [pairEdge .uniswapV2 0 1] 2000000000000#256 =
        some (some (.v2ReserveExhausted 0)) ∧
      ¬ ∃ r, simulateRouteMinimal slopedPair [pairEdge .uniswapV2 0 1] 3000000000000#256 =
        some (some r) := by
  have hfailure : minimalSimFailure slopedPair [pairEdge .uniswapV2 0 1] 2000000000000#256 =
      some (some (.v2ReserveExhausted 0)) := by decide
  refine ⟨hfailure, ?_⟩
  rintro ⟨r, hr⟩
  refine wall_sound slopedPair [pairEdge .uniswapV2 0 1] 2000000000000#256 ?_
    (.v2ReserveExhausted 0) hfailure rfl 3000000000000#256 (by decide) r hr
  intro caps hcaps cap hcap
  have hdepth : OutOfDepthAt slopedPair (pairEdge .uniswapV2 0 1) cap 2000000000000#256 :=
    ⟨_, _, rfl, rfl, .reserve rfl (by decide)⟩
  refine ⟨fun _ => hdepth, fun out hout => ?_⟩
  have hrefuse := refusesFrom_of_outOfDepth hdepth (by decide)
  rw [hrefuse.eq_none (le_iff.mpr le_rfl)] at hout
  cases hout

/-- One unit is worth half a unit, so the pair pays nothing for it: the failure is accepted, and a
thousand go through. -/
theorem wall_dust :
    minimalSimFailure slopedPair [pairEdge .uniswapV2 0 1] 1#256 =
        some (some (.zeroOutput 0 .uniswapV2)) ∧
      simFailureIsSizeMonotonic (some (.zeroOutput 0 .uniswapV2)) = true ∧
      (simulateRouteMinimal slopedPair [pairEdge .uniswapV2 0 1] 1000#256).map
        (·.map MinimalSimResult.amountOut) = some (some 498#256) := by
  refine ⟨?_, ?_, ?_⟩ <;> decide

end PolygonArb

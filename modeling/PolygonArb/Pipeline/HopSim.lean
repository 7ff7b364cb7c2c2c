import PolygonArb.Core.Math.UniswapV2
import PolygonArb.Core.Math.UniswapV3
import PolygonArb.Core.Math.CurveCrypto
import PolygonArb.Core.Math.Balancer
import PolygonArb.Core.Math.Dodo
import PolygonArb.Core.Math.Woofi

/-!
# One hop

The single-hop half of `pipeline/local_sim.rs`: `simulateHop` quotes one edge against one pool
state, `simulateHopAmountOutForExecution` is the stricter quote the encoder uses.

What the route walk needs to know about a hop: the cap matters to concentrated-liquidity edges only
(`simulateHop_cap_irrelevant`), and an accepted hop passed every gate of its family
(`simulateHop_ok_matches`, `simulateHop_ok_v2`, `simulateHop_ok_cl`).
-/

namespace PolygonArb

open Word

def gasV2Hop : ℕ := 85000

def gasV4Base : ℕ := 170000

def gasCurveHop : ℕ := 250000

def gasBalancerHop : ℕ := 300000

def gasDodoHop : ℕ := 180000

def gasWoofiHop : ℕ := 150000

/-- The two concentrated-liquidity protocols. -/
def ProtocolType.isCl : ProtocolType → Bool
  | .uniswapV3 | .uniswapV4 => true
  | _ => false

/-- The protocols whose leg indices follow the pool's own token list. -/
def ProtocolType.isMultiToken : ProtocolType → Bool
  | .balancerV2 | .woofi | .dodo => true
  | _ => false

structure HopResult where
  amountOut : U256
  gas : ℕ
  deriving DecidableEq

/-- Why `simulateHop` refused a non-zero input. -/
inductive HopReject
  | clCap
  | clShallow
  | clSynthetic
  | math
  deriving DecidableEq

def clHopTickless : PoolState → Bool
  | .v3 s | .v4 s => s.ticks.isEmpty
  | _ => false

def clHopExceedsShallowCap (amountIn shallowCap : U256) : Bool :=
  shallowCap < maxValue && shallowCap < amountIn

def v2ReserveIn (state : V2PoolState) (zeroForOne : Bool) : U256 :=
  if zeroForOne then state.reserve0 else state.reserve1

/-- What a concentrated-liquidity hop makes of its swap result.  Tickless pools always report a
shallow walk; they are accepted within the cap when the step path quoted something. -/
def clHopResult (s : ConcentratedLiquidityPoolState) (amountIn shallowCap : U256)
    (r : V3SwapResult) : Except HopReject HopResult :=
  if r.shallow then
    if !s.ticks.isEmpty || clHopExceedsShallowCap amountIn shallowCap || r.amountOut = 0 then
      .error .clShallow
    else .ok ⟨r.amountOut, r.gasEstimate⟩
  else if r.synthetic then .error .clSynthetic
  else .ok ⟨r.amountOut, r.gasEstimate⟩

/-- Families that fail closed on a zero quote. -/
def nonzeroHop (gas : ℕ) (out : U256) : Except HopReject HopResult :=
  if out = 0 then .error .math else .ok ⟨out, gas⟩

/-- WooFi legs: the base tokens in order, then the quote token. -/
def woofiBaseIdx (s : WoofiPoolState) (idx : ℕ) : Option ℕ :=
  if s.baseStates.length ≤ idx then none else some idx

/-- The dispatch of `simulate_hop` on state and protocol, for a non-zero input within the cap. -/
def simulateHopByFamily (state : PoolState) (edge : Edge) (amountIn shallowCap : U256) :
    Run (Except HopReject HopResult) :=
  match state, edge.protocol with
  | .v2 s, .uniswapV2 =>
      if v2ReserveIn s edge.zeroForOne ≤ amountIn then some (.error .math)
      else
        (simulateV2Swap s amountIn edge.zeroForOne (some edge.feeBps)).map fun out =>
          .ok ⟨out, gasV2Hop⟩
  | .v3 s, .uniswapV3 =>
      (simulateV3Swap s amountIn edge.zeroForOne (some edge.feeBps) false).map
        (clHopResult s amountIn shallowCap)
  | .v4 s, .uniswapV4 =>
      (simulateV3Swap s amountIn edge.zeroForOne (some edge.feeBps) true).map
        (clHopResult s amountIn shallowCap)
  | .curve s, .curveStable | .curve s, .curveCrypto =>
      (curveHopAmountOut s edge.protocol amountIn edge.tokenInIdx edge.tokenOutIdx).map
        fun
        | none => .error .math
        | some out => .ok ⟨out, gasCurveHop⟩
  | .balancer s, .balancerV2 =>
      (simulateBalancerSwap s amountIn edge.tokenInIdx edge.tokenOutIdx).map
        (nonzeroHop gasBalancerHop)
  | .dodo s, .dodo =>
      some (nonzeroHop gasDodoHop (getDodoAmountOut s amountIn (edge.tokenInIdx = 0)))
  | .woofi s, .woofi =>
      let baseIn := woofiBaseIdx s edge.tokenInIdx
      let baseOut := woofiBaseIdx s edge.tokenOutIdx
      (getWoofiAmountOut s amountIn baseIn.isNone baseOut.isNone baseIn baseOut).map
        (nonzeroHop gasWoofiHop)
  | _, _ => some (.error .math)

def simulateHop (state : PoolState) (edge : Edge) (amountIn shallowCap : U256) :
    Run (Except HopReject HopResult) :=
  if amountIn = 0 then some (.ok ⟨0, 0⟩)
  else if edge.protocol.isCl && clHopExceedsShallowCap amountIn shallowCap then
    some (.error .clCap)
  else simulateHopByFamily state edge amountIn shallowCap

def simulateHopAmountOutWithCap (state : PoolState) (edge : Edge) (amountIn shallowCap : U256) :
    Run (Option U256) :=
  (simulateHop state edge amountIn shallowCap).map fun r => r.toOption.map HopResult.amountOut

/-- Ranking quote of a hop. -/
def simulateHopAmountOut (state : PoolState) (edge : Edge) (amountIn : U256) : Run (Option U256) :=
  simulateHopAmountOutWithCap state edge amountIn maxValue

/-- The swap of the execution quote: incomplete walks and synthetic fills are refused. -/
def executionClQuote (r : V3SwapResult) : Option U256 :=
  if r.shallow || r.synthetic || r.amountOut = 0 then none else some r.amountOut

/-- Execution quote of a hop: what the encoder may promise to the next one. -/
def simulateHopAmountOutForExecution (state : PoolState) (edge : Edge) (amountIn : U256) :
    Run (Option U256) :=
  if amountIn = 0 then some none
  else
    match state, edge.protocol with
    | .v3 s, .uniswapV3 =>
        (simulateV3Swap s amountIn edge.zeroForOne (some edge.feeBps) false).map executionClQuote
    | .v4 s, .uniswapV4 =>
        (simulateV3Swap s amountIn edge.zeroForOne (some edge.feeBps) true).map executionClQuote
    | _, _ => (simulateHopAmountOut state edge amountIn).map (·.filter (· ≠ 0))

/-! ## What a hop result says -/

section Hop

variable {state : PoolState} {edge : Edge} {amountIn cap : U256}

lemma simulateHop_of_exceeds (h0 : amountIn ≠ 0) (hcl : edge.protocol.isCl = true)
    (hex : clHopExceedsShallowCap amountIn cap = true) :
    simulateHop state edge amountIn cap = some (.error .clCap) := by
  rw [simulateHop, if_neg h0, if_pos (by rw [hcl, hex]; rfl)]

lemma simulateHop_v2_of_le {s : V2PoolState} (h0 : amountIn ≠ 0) (hp : edge.protocol = .uniswapV2)
    (h : v2ReserveIn s edge.zeroForOne ≤ amountIn) :
    simulateHop (.v2 s) edge amountIn cap = some (.error .math) := by
  rw [simulateHop, if_neg h0, if_neg (by rw [hp]; exact Bool.false_ne_true)]
  rw [simulateHopByFamily, if_pos h]
  exact hp

lemma simulateHopByFamily_of_mismatch
    (hm : protocolMatchesPoolState edge.protocol state = false) :
    simulateHopByFamily state edge amountIn cap = some (.error .math) := by
  rcases edge with ⟨_, _, _, _, _, protocol, _, _⟩
  cases state <;> cases protocol <;> first | rfl | cases hm

lemma simulateHop_of_mismatch (h0 : amountIn ≠ 0)
    (hm : protocolMatchesPoolState edge.protocol state = false) :
    ∃ reject, simulateHop state edge amountIn cap = some (.error reject) := by
  rw [simulateHop, if_neg h0]
  split
  · exact ⟨_, rfl⟩
  · exact ⟨_, simulateHopByFamily_of_mismatch hm⟩

/-- Only concentrated-liquidity edges look at the cap. -/
lemma simulateHop_cap_irrelevant (hcl : edge.protocol.isCl = false) (cap' : U256) :
    simulateHop state edge amountIn cap = simulateHop state edge amountIn cap' := by
  have hfam : simulateHopByFamily state edge amountIn cap =
      simulateHopByFamily state edge amountIn cap' := by
    rcases edge with ⟨_, _, _, _, _, protocol, _, _⟩
    cases state <;> cases protocol <;> first | rfl | cases hcl
  rw [simulateHop, simulateHop, hcl, hfam]
  rfl

/-- The swap result behind a concentrated-liquidity hop. -/
def clSwapOf (state : PoolState) (edge : Edge) (amountIn : U256) : Run V3SwapResult :=
  match state with
  | .v3 s | .v4 s =>
      simulateV3Swap s amountIn edge.zeroForOne (some edge.feeBps) (edge.protocol = .uniswapV4)
  | _ => none

variable {hop : HopResult}

/-- An accepted hop is of the family of its edge. -/
lemma simulateHop_ok_matches (h0 : amountIn ≠ 0)
    (h : simulateHop state edge amountIn cap = some (.ok hop)) :
    protocolMatchesPoolState edge.protocol state = true := by
  by_contra hm
  rcases simulateHop_of_mismatch h0 (Bool.eq_false_iff.2 hm) with ⟨reject, hrej⟩
  rw [hrej] at h
  cases h

/-- An accepted V2 hop leaves some of the reserve. -/
lemma simulateHop_ok_v2 {s : V2PoolState} (h0 : amountIn ≠ 0) (hp : edge.protocol = .uniswapV2)
    (h : simulateHop (.v2 s) edge amountIn cap = some (.ok hop)) :
    ¬ v2ReserveIn s edge.zeroForOne ≤ amountIn := by
  intro hle
  rw [simulateHop_v2_of_le h0 hp hle] at h
  cases h

/-- An accepted concentrated-liquidity hop is within its cap. -/
lemma simulateHop_ok_cap (h0 : amountIn ≠ 0) (hcl : edge.protocol.isCl = true)
    (h : simulateHop state edge amountIn cap = some (.ok hop)) :
    clHopExceedsShallowCap amountIn cap = false := by
  by_contra hex
  rw [simulateHop_of_exceeds h0 hcl (Bool.eq_true_of_not_eq_false hex)] at h
  cases h

/-- An accepted hop of a pool with loaded ticks walked all the way inside them. -/
lemma simulateHop_ok_cl (h0 : amountIn ≠ 0) (hcl : edge.protocol.isCl = true)
    (hticks : clHopTickless state = false)
    (h : simulateHop state edge amountIn cap = some (.ok hop)) :
    ∃ r, clSwapOf state edge amountIn = some r ∧ r.shallow = false ∧ r.synthetic = false ∧
      hop = ⟨r.amountOut, r.gasEstimate⟩ := by
  have hcap := simulateHop_ok_cap h0 hcl h
  have hmatch := simulateHop_ok_matches h0 h
  rw [simulateHop, if_neg h0, hcl, hcap, if_neg (by decide)] at h
  have key : ∀ (s : ConcentratedLiquidityPoolState) (swap : Run V3SwapResult),
      s.ticks.isEmpty = false → swap.map (clHopResult s amountIn cap) = some (.ok hop) →
      ∃ r, swap = some r ∧ r.shallow = false ∧ r.synthetic = false ∧
        hop = ⟨r.amountOut, r.gasEstimate⟩ := by
    intro s swap ht hs
    rw [Option.map_eq_some_iff] at hs
    rcases hs with ⟨r, hr, hres⟩
    rw [clHopResult, ht, hcap] at hres
    split at hres
    · cases hres
    · rename_i hsh
      split at hres
      · cases hres
      · rename_i hsy
        exact ⟨r, hr, Bool.eq_false_iff.2 hsh, Bool.eq_false_iff.2 hsy,
          (Except.ok.inj hres).symm⟩
  rcases edge with ⟨_, _, _, _, _, protocol, _, _⟩
  cases state <;> cases protocol <;>
    first
    | exact absurd hcl Bool.false_ne_true
    | exact absurd hmatch Bool.false_ne_true
    | exact key _ _ hticks h

/-- Off the two concentrated-liquidity families the execution quote is the ranking quote. -/
lemma simulateHopAmountOutForExecution_of_not_cl (h0 : amountIn ≠ 0)
    (hcl : edge.protocol.isCl = false) :
    simulateHopAmountOutForExecution state edge amountIn =
      (simulateHopAmountOut state edge amountIn).map (·.filter (· ≠ 0)) := by
  unfold simulateHopAmountOutForExecution
  rw [if_neg h0]
  rcases edge with ⟨_, _, _, _, _, protocol, _, _⟩
  cases state <;> cases protocol <;> first | rfl | cases hcl

lemma simulateHopAmountOutForExecution_of_cl (h0 : amountIn ≠ 0)
    (hcl : edge.protocol.isCl = true)
    (hm : protocolMatchesPoolState edge.protocol state = true) :
    simulateHopAmountOutForExecution state edge amountIn =
      (clSwapOf state edge amountIn).map executionClQuote := by
  unfold simulateHopAmountOutForExecution
  rw [if_neg h0]
  rcases edge with ⟨_, _, _, _, _, protocol, _, _⟩
  cases state <;> cases protocol <;>
    first
    | rfl
    | exact absurd hcl Bool.false_ne_true
    | exact absurd hm Bool.false_ne_true

/-- A hop accepted with a non-zero output is execution grade, unless it is tickless. -/
theorem simulateHop_ok_execution (h0 : amountIn ≠ 0) (hout : hop.amountOut ≠ 0)
    (h : simulateHop state edge amountIn cap = some (.ok hop))
    (ht : (edge.protocol.isCl && clHopTickless state) = false) :
    simulateHopAmountOutForExecution state edge amountIn = some (some hop.amountOut) := by
  cases hcl : edge.protocol.isCl with
  | false =>
      rw [simulateHopAmountOutForExecution_of_not_cl h0 hcl, simulateHopAmountOut,
        simulateHopAmountOutWithCap, simulateHop_cap_irrelevant hcl cap, h]
      show some (Option.filter _ (some hop.amountOut)) = _
      rw [Option.filter_some, if_pos (by simpa using hout)]
  | true =>
      rw [hcl, Bool.true_and] at ht
      rcases simulateHop_ok_cl h0 hcl ht h with ⟨r, hr, hsh, hsy, rfl⟩
      rw [simulateHopAmountOutForExecution_of_cl h0 hcl (simulateHop_ok_matches h0 h), hr,
        Option.map_some, executionClQuote, hsh, hsy]
      exact congrArg some (if_neg (by simpa using hout))

lemma not_exceeds_maxValue (amountIn : U256) : clHopExceedsShallowCap amountIn maxValue = false := by
  have h : ¬ maxValue < maxValue := by decide
  rw [clHopExceedsShallowCap, decide_eq_false h, Bool.false_and]

lemma not_exceeds_zero (cap : U256) : clHopExceedsShallowCap 0 cap = false := by
  have h : ¬ cap < 0 := by rw [BitVec.lt_def]; exact Nat.not_lt_zero _
  rw [clHopExceedsShallowCap, decide_eq_false h, Bool.and_false]

/-- An accepted hop has the same ranking quote, unless it is tickless. -/
lemma simulateHopAmountOut_of_ok (h0 : amountIn ≠ 0)
    (h : simulateHop state edge amountIn cap = some (.ok hop))
    (ht : (edge.protocol.isCl && clHopTickless state) = false) :
    simulateHopAmountOut state edge amountIn = some (some hop.amountOut) := by
  rw [simulateHopAmountOut, simulateHopAmountOutWithCap]
  cases hcl : edge.protocol.isCl with
  | false =>
      rw [simulateHop_cap_irrelevant hcl cap, h]
      rfl
  | true =>
      rw [hcl, Bool.true_and] at ht
      have hmatch := simulateHop_ok_matches h0 h
      rcases simulateHop_ok_cl h0 hcl ht h with ⟨r, hr, hsh, hsy, rfl⟩
      rw [simulateHop, if_neg h0, hcl, not_exceeds_maxValue, if_neg (by decide)]
      have hres : ∀ s, clHopResult s amountIn maxValue r = .ok ⟨r.amountOut, r.gasEstimate⟩ := by
        intro s
        rw [clHopResult, hsh, hsy]
        rfl
      have hfam : simulateHopByFamily state edge amountIn maxValue =
          some (.ok ⟨r.amountOut, r.gasEstimate⟩) := by
        rcases edge with ⟨_, _, _, _, _, protocol, _, _⟩
        cases state <;> cases protocol <;>
          first
          | exact absurd hcl Bool.false_ne_true
          | exact absurd hmatch Bool.false_ne_true
          | exact (congrArg (Option.map _) hr).trans (congrArg some (hres _))
      rw [hfam]
      rfl

end Hop

end PolygonArb

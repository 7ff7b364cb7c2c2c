import PolygonArb.Core.Math.FixedPoint
import PolygonArb.Core.Math.MulDiv

/-!
# Balancer quotes

`core/math/balancer.rs`: weighted, stable and linear pools.  A failed guard is a zero quote.  The
stable invariant divides by `balance * n`, which can wrap to zero: that is a panic.
-/

namespace PolygonArb

open Word

/-- `MAX_IN_RATIO`, 30 percent of the token-in balance. -/
def maxInRatio : U256 := 300000000000000000#256

def defaultAmpPrecision : U256 := 1000#256

def balancerMaxIterations : ℕ := 255

def exceedsBalancerMaxInRatio (amountIn balanceIn : U256) : Bool :=
  balanceIn = 0 ||
    (match checkedMul balanceIn maxInRatio with
    | none => true
    | some limit => limit / one18 < amountIn)

/-- The in-leg balance by vault token address, falling back to the edge index. -/
def balancerBalanceIn (state : BalancerPoolState) (tokenInIdx : ℕ) (tokenIn : Option Address) :
    U256 :=
  let idx := (tokenIn.bind fun addr => state.tokens.idxOf? addr).getD tokenInIdx
  state.balances.getD idx 0

def resolveSwapFee (fee : U256) : U256 := if fee ≠ 0 ∧ fee < one18 then fee else 0

/-- `a * b / ONE`, nothing when the product leaves a word. -/
def scaleChecked (a b : U256) : Option U256 := (checkedMul a b).map (· / one18)

/-- A quote above the balance it is paid from, or of nothing, is no quote. -/
def capAtBalance (amountOut balOut : U256) : U256 :=
  if amountOut = 0 ∨ balOut < amountOut then 0 else amountOut

/-- The weighted quote once indices, scaling factors, balances and weights are known. -/
def weightedQuote (amountIn balIn balOut wIn wOut scaleIn scaleOut fee : U256) : Option U256 := do
  let amountInAfterFee ← scaleChecked amountIn (complement fee)
  let scaledAmountIn ← scaleChecked amountInAfterFee scaleIn
  if scaledAmountIn = 0 then none
  else do
    let scaledBalIn ← scaleChecked balIn scaleIn
    let scaledBalOut ← scaleChecked balOut scaleOut
    let denominator := scaledBalIn + scaledAmountIn
    if denominator = 0 then none
    else
      let base := scaledBalIn * one18 / denominator
      let exponent := wIn * one18 / wOut
      if base = 0 ∨ one18 < base ∨ exponent = 0 then none
      else
        let power := powDown base exponent
        if one18 < power then none
        else do
          let scaledAmountOut ← scaleChecked scaledBalOut (one18 - power)
          if scaledAmountOut = 0 then none
          else some (capAtBalance (scaledAmountOut * one18 / scaleOut) balOut)

def getBalancerWeightedAmountOut (state : BalancerPoolState) (amountIn : U256) (inIdx outIdx : ℕ) :
    U256 :=
  if state.balances.length ≤ inIdx ∨ state.balances.length ≤ outIdx
      ∨ state.weights.length ≤ inIdx ∨ state.weights.length ≤ outIdx then 0
  else if state.scalingFactors.length ≠ state.balances.length then 0
  else
    let scaleIn := state.scalingFactors.getD inIdx 0
    let scaleOut := state.scalingFactors.getD outIdx 0
    let balIn := state.balances.getD inIdx 0
    let balOut := state.balances.getD outIdx 0
    let wIn := state.weights.getD inIdx 0
    let wOut := state.weights.getD outIdx 0
    let fee := resolveSwapFee state.fee
    if scaleIn = 0 ∨ scaleOut = 0 then 0
    else if balIn = 0 ∨ balOut = 0 ∨ wIn = 0 ∨ wOut = 0 then 0
    else if one18 ≤ fee ∨ exceedsBalancerMaxInRatio amountIn balIn then 0
    else if complement fee = 0 then 0
    else (weightedQuote amountIn balIn balOut wIn wOut scaleIn scaleOut fee).getD 0

/-- The inner product `d_p` of the stable invariant. -/
def stableProduct (n invariant : U256) : List U256 → U256 → Run U256
  | [], dP => some dP
  | b :: bs, dP => do
      let dP ← checkedDiv (dP * invariant) (b * n)
      stableProduct n invariant bs dP

def stableInvariantLoop (balances : List U256) (n sum ampTimesTotal ampPrecision : U256) :
    ℕ → U256 → Run U256
  | 0, _ => some 0
  | fuel + 1, prev => do
      let dP ← stableProduct n prev balances prev
      let numerator := (ampTimesTotal * sum / ampPrecision + dP * n) * prev
      let denominator := (ampTimesTotal - ampPrecision) * prev / ampPrecision + (n + 1) * dP
      if denominator = 0 then some 0
      else
        let invariant := numerator / denominator
        if absDiff invariant prev ≤ 1 then some invariant
        else stableInvariantLoop balances n sum ampTimesTotal ampPrecision fuel invariant

def calculateBalancerStableInvariant (amp : U256) (balances : List U256) (ampPrecision : U256) :
    Run U256 :=
  if balances.length < 2 ∨ amp = 0 ∨ ampPrecision = 0 then some 0
  else if (balances.any fun b => b = 0) = true then some 0
  else
    let n := BitVec.ofNat 256 balances.length
    let sum := balances.foldl (· + ·) 0
    let ampTimesTotal := amp * n
    if sum = 0 then some 0
    else if ampTimesTotal ≤ ampPrecision then some 0
    else stableInvariantLoop balances n sum ampTimesTotal ampPrecision balancerMaxIterations sum

def tokenBalanceLoop (b c invariant : U256) : ℕ → U256 → U256
  | 0, tokenBalance => tokenBalance
  | fuel + 1, prev =>
      let denominator := 2 * prev + b - invariant
      if denominator = 0 then 0
      else
        let tokenBalance := divRoundingUpOrZero (prev * prev + c) denominator
        if absDiff tokenBalance prev ≤ 1 then tokenBalance
        else tokenBalanceLoop b c invariant fuel tokenBalance

def tokenBalanceGivenInvariant (amp : U256) (balances : List U256) (invariant : U256)
    (tokenIndex : ℕ) (ampPrecision : U256) : U256 :=
  let n := BitVec.ofNat 256 balances.length
  let ampTimesTotal := amp * n
  if ampTimesTotal = 0 ∨ invariant = 0 then 0
  else
    let b0 := balances.headD 0
    if (balances.tail.any fun b => b = 0) = true then 0
    else
      let (pD, total) := balances.tail.foldl
        (fun (acc : U256 × U256) balance => (acc.1 * balance * n / invariant, acc.2 + balance))
        (b0 * n, b0)
      let indexed := balances.getD tokenIndex 0
      if indexed = 0 ∨ pD = 0 then 0
      else
        let sum := total - indexed
        let inv2 := invariant * invariant
        let c := divRoundingUpOrZero (inv2 * ampPrecision * indexed) (ampTimesTotal * pD)
        let b := sum + invariant * ampPrecision / ampTimesTotal
        tokenBalanceLoop b c invariant balancerMaxIterations
          (divRoundingUpOrZero (inv2 + c) (invariant + b))

/-- Position of leg `idx` once the pool token's own leg is dropped. -/
def stableIndex (bptIndex : Option ℕ) (idx : ℕ) : ℕ :=
  match bptIndex with
  | some b => if b < idx then idx - 1 else idx
  | none => idx

/-- The legs without the pool token's own leg. -/
def dropBpt (bptIndex : Option ℕ) (xs : List U256) : List U256 :=
  match bptIndex with
  | some b => xs.eraseIdx b
  | none => xs

def getBalancerStableAmountOut (state : BalancerPoolState) (amountIn : U256) (inIdx outIdx : ℕ) :
    Run U256 :=
  let n := state.balances.length
  if state.scalingFactors.length ≠ n then some 0
  else if state.bptIndex = some inIdx ∨ state.bptIndex = some outIdx then some 0
  else if n ≤ inIdx ∨ n ≤ outIdx then some 0
  else
    let scaledBalances := dropBpt state.bptIndex
      (state.balances.zipWith (fun b s => b * s / one18) state.scalingFactors)
    let scaleIn := state.scalingFactors.getD inIdx 0
    let scaleOut := state.scalingFactors.getD outIdx 0
    let fee := resolveSwapFee state.fee
    if (scaledBalances.any fun b => b = 0) = true then some 0
    else if one18 ≤ fee ∨ scaleIn = 0 ∨ scaleOut = 0 then some 0
    else if exceedsBalancerMaxInRatio amountIn (state.balances.getD inIdx 0) then some 0
    else
      let amountInAfterFee := amountIn * complement fee / one18
      let scaledAmountIn := amountInAfterFee * scaleIn / one18
      if scaledAmountIn = 0 then some 0
      else do
        let ampPrecision :=
          if state.ampPrecision = 0 then defaultAmpPrecision else state.ampPrecision
        let invariant ← calculateBalancerStableInvariant state.amp scaledBalances ampPrecision
        if invariant = 0 then some 0
        else
          let sIn := stableIndex state.bptIndex inIdx
          let sOut := stableIndex state.bptIndex outIdx
          let originalOut := scaledBalances.getD sOut 0
          let grown := scaledBalances.set sIn (scaledBalances.getD sIn 0 + scaledAmountIn)
          let finalBalanceOut :=
            tokenBalanceGivenInvariant state.amp grown invariant sOut ampPrecision
          if finalBalanceOut = 0 ∨ originalOut ≤ finalBalanceOut then some 0
          else
            let scaledAmountOut := originalOut - finalBalanceOut - 1
            if scaledAmountOut = 0 then some 0
            else some (capAtBalance (scaledAmountOut * one18 / scaleOut)
              (state.balances.getD outIdx 0))

def linearToNominal (real fee lower upper : U256) : Option U256 :=
  if real < lower then checkedSub real (mulDown (lower - real) fee)
  else if real ≤ upper then some real
  else checkedSub real (mulDown (real - upper) fee)

def linearFromNominal (nominal fee lower upper : U256) : Option U256 :=
  if nominal < lower then do
    let denominator ← checkedAdd one18 fee
    let sum ← checkedAdd nominal (mulDown fee lower)
    checkedDiv (sum * one18) denominator
  else if nominal ≤ upper then some nominal
  else do
    let denominator ← checkedSub one18 fee
    let difference ← checkedSub nominal (mulDown fee upper)
    checkedDiv (difference * one18) denominator

/-- The scaled output of a linear pool, main to wrapped or wrapped to main. -/
def linearScaledOut (linear : BalancerLinearState) (scaledIn mainBalance fee : U256)
    (inIdx outIdx : ℕ) : Option U256 :=
  if inIdx = linear.mainIndex ∧ outIdx = linear.wrappedIndex then do
    let before ← linearToNominal mainBalance fee linear.lowerTarget linear.upperTarget
    let afterBalance ← checkedAdd mainBalance scaledIn
    let after ← linearToNominal afterBalance fee linear.lowerTarget linear.upperTarget
    some ((after - before) * one18 / linear.wrappedRate)
  else if inIdx = linear.wrappedIndex ∧ outIdx = linear.mainIndex then do
    let before ← linearToNominal mainBalance fee linear.lowerTarget linear.upperTarget
    let afterNominal ← checkedSub before (mulDown scaledIn linear.wrappedRate)
    let afterBalance ← linearFromNominal afterNominal fee linear.lowerTarget linear.upperTarget
    checkedSub mainBalance afterBalance
  else none

def getBalancerLinearAmountOut (state : BalancerPoolState) (amountIn : U256) (inIdx outIdx : ℕ) :
    U256 :=
  match state.linear with
  | none => 0
  | some linear =>
      let n := state.balances.length
      let scaleIn := state.scalingFactors.getD inIdx 0
      let scaleOut := state.scalingFactors.getD outIdx 0
      if n ≤ inIdx ∨ n ≤ outIdx ∨ n ≤ linear.mainIndex ∨ n ≤ linear.wrappedIndex
          ∨ state.scalingFactors.length ≠ n ∨ scaleIn = 0 ∨ scaleOut = 0
          ∨ linear.wrappedRate = 0 then 0
      else if exceedsBalancerMaxInRatio amountIn (state.balances.getD inIdx 0) then 0
      else
        let scaledIn := amountIn * scaleIn / one18
        let mainBalance := state.balances.getD linear.mainIndex 0
          * state.scalingFactors.getD linear.mainIndex 0 / one18
        match linearScaledOut linear scaledIn mainBalance (resolveSwapFee state.fee) inIdx
            outIdx with
        | none => 0
        | some scaledOut =>
            let amountOut := scaledOut * one18 / scaleOut
            if state.balances.getD outIdx 0 < amountOut then 0 else amountOut

def simulateBalancerSwap (state : BalancerPoolState) (amountIn : U256) (inIdx outIdx : ℕ) :
    Run U256 :=
  if amountIn = 0 ∨ inIdx = outIdx then some 0
  else if state.balances.length ≤ inIdx ∨ state.balances.length ≤ outIdx then some 0
  else
    match state.poolType with
    | .weighted => some (getBalancerWeightedAmountOut state amountIn inIdx outIdx)
    | .stable => getBalancerStableAmountOut state amountIn inIdx outIdx
    | .linear => some (getBalancerLinearAmountOut state amountIn inIdx outIdx)

end PolygonArb

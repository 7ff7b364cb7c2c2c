import PolygonArb.Core.Math.FixedPoint

/-!
# DODO proactive market maker quotes

`core/math/dodo.rs`.  Wide intermediates are 512-bit words: products of two words are exact, longer
products wrap.  The square root of a word is the integer square root.
-/

namespace PolygonArb

open Word

/-- `1e36`. -/
def one2 : U256 := fromLimbs 12919594847110692864 54210108624275221 0 0

def divCeil (a b : U256) : U256 :=
  if b = 0 then 0 else truncate256 ((a.toNat * one18.toNat + b.toNat - 1) / b.toNat)

def reciprocalFloor (target : U256) : U256 :=
  if target = 0 then 0 else truncate256 (one2.toNat / target.toNat)

/-- The branch `k == ONE` of the trade solver. -/
def solveQuadraticAtOne (v0 v1 delta i : U256) : U256 :=
  let v0Sq := v0.toNat * v0.toNat
  match ofNatChecked (wrap512 (i.toNat * delta.toNat * v1.toNat) / v0Sq) with
  | none => 0
  | some temp =>
      if temp = 0 then 0
      else (ofNatChecked (v1.toNat * temp.toNat / (temp.toNat + one18.toNat))).getD 0

/-- `k * V0 / V1 * V0 + i * delta`, nothing when a term leaves a word. -/
def quadraticPart2 (v0 v1 delta i k : U256) : Option U256 := do
  let kTerm ← ofNatChecked (wrap512 (k.toNat * v0.toNat / v1.toNat * v0.toNat))
  let iDelta ← ofNatChecked (i.toNat * delta.toNat)
  checkedAdd kTerm iDelta

/-- `sqrt(b^2 + 4 (1-k) k V0^2)`, nothing when an intermediate leaves a word. -/
def quadraticSquareRoot (v0 k bAbs : U256) : Option U256 := do
  let mflTimesV0 ← ofNatChecked ((mulDown k v0).toNat * v0.toNat)
  let squareRootInput := mulDown ((one18 - k) * 4) mflTimesV0
  if squareRootInput = 0 then some bAbs
  else do
    let radicand ← ofNatChecked (bAbs.toNat * bAbs.toNat + squareRootInput.toNat)
    some (truncate256 radicand.toNat.sqrt)

def solveQuadraticFunctionForTrade (v0 v1 delta i k : U256) : U256 :=
  if v0 = 0 ∨ v1 = 0 ∨ delta = 0 ∨ i = 0 ∨ one18 < k then 0
  else if k = 0 then
    let linear := mulDown i delta
    if v1 < linear then v1 else linear
  else if k = one18 then solveQuadraticAtOne v0 v1 delta i
  else
    let oneMinusK := one18 - k
    let result : Option U256 := do
      let part2 ← quadraticPart2 v0 v1 delta i k
      let part1 ← ofNatChecked (oneMinusK.toNat * v1.toNat)
      let bSig : Bool := part1 < part2
      let bAbs := (if bSig then part2 - part1 else part1 - part2) / one18
      let squareRoot ← quadraticSquareRoot v0 k bAbs
      let numerator ←
        (if bSig then (if squareRoot ≤ bAbs then none else some (squareRoot - bAbs))
          else checkedAdd bAbs squareRoot)
      let v2 := divCeil numerator (oneMinusK * 2)
      some (if v1 < v2 then 0 else v1 - v2)
    result.getD 0

def generalIntegrate (v0 v1 v2 i k : U256) : U256 :=
  if v0 = 0 ∨ v1 < v2 ∨ v2 = 0 ∨ i = 0 ∨ one18 < k then 0
  else
    let fairAmount := i.toNat * (v1 - v2).toNat
    if k = 0 then truncate256 (fairAmount / one18.toNat)
    else
      let denom := v1.toNat * v2.toNat
      let ratio :=
        if denom = 0 then 0 else wrap512 (one18.toNat * v0.toNat * v0.toNat) / denom
      let penalty := wrap512 (k.toNat * ratio) / one18.toNat
      let factor := wrap512 ((one18 - k).toNat + penalty)
      truncate256 (wrap512 (factor * fairAmount) / one2.toNat)

/-- Trade back toward the target, and past it when there is input left. -/
def dodoTradeBack (backIn backOut amountIn integral beyond : U256) : U256 :=
  if amountIn < backIn then min integral backOut
  else if amountIn = backIn then backOut
  else backOut + beyond

def getDodoGrossAmountOut (state : DodoPoolState) (amountIn : U256) (baseToQuote : Bool) : U256 :=
  let b := state.baseReserve
  let q := state.quoteReserve
  let i := state.i
  let k := state.k
  if amountIn = 0 then 0
  else if i = 0 ∨ one18 < k ∨ b = 0 ∨ q = 0 then 0
  else
    match state.rState, baseToQuote with
    | .one, true =>
        solveQuadraticFunctionForTrade state.quoteTarget state.quoteTarget amountIn i k
    | .one, false =>
        solveQuadraticFunctionForTrade state.baseTarget state.baseTarget amountIn
          (reciprocalFloor i) k
    | .aboveOne, true =>
        let backIn := saturatingSub state.baseTarget b
        dodoTradeBack backIn (saturatingSub q state.quoteTarget) amountIn
          (generalIntegrate state.baseTarget (b + amountIn) b i k)
          (solveQuadraticFunctionForTrade state.quoteTarget state.quoteTarget
            (amountIn - backIn) i k)
    | .aboveOne, false =>
        solveQuadraticFunctionForTrade state.baseTarget b amountIn (reciprocalFloor i) k
    | .belowOne, true => solveQuadraticFunctionForTrade state.quoteTarget q amountIn i k
    | .belowOne, false =>
        let backIn := saturatingSub state.quoteTarget q
        let invI := reciprocalFloor i
        dodoTradeBack backIn (saturatingSub b state.baseTarget) amountIn
          (generalIntegrate state.quoteTarget (q + amountIn) q invI k)
          (solveQuadraticFunctionForTrade state.baseTarget state.baseTarget
            (amountIn - backIn) invI k)

def getDodoAmountOut (state : DodoPoolState) (amountIn : U256) (baseToQuote : Bool) : U256 :=
  let gross := getDodoGrossAmountOut state amountIn baseToQuote
  let lp := state.lpFeeRate
  let mt := state.mtFeeRate
  if gross = 0 then 0
  else if one18 ≤ lp ∨ one18 ≤ mt ∨ one18 ≤ saturatingAdd lp mt then 0
  else gross - mulDown gross lp - mulDown gross mt

end PolygonArb

import PolygonArb.Core.Types

/-!
# Constant-product quotes

`core/math/uniswap_v2.rs`.  Amounts that all fit 128 bits take the 256-bit path; a fee fraction
large enough to wrap its denominator to zero makes that path panic, so the quote is a `Run`.
-/

namespace PolygonArb

open Word

def feeDenominator : U256 := 1000#256

def defaultFeeNumerator : U256 := 997#256

def getAmountOut (amountIn reserveIn reserveOut feeNumerator feeDenom : U256) : Run U256 :=
  if amountIn = 0 ∨ reserveIn = 0 ∨ reserveOut = 0 ∨ feeNumerator = 0 ∨ feeDenom = 0
      ∨ feeDenom ≤ feeNumerator then some 0
  else if amountIn.toNat < 2 ^ 128 ∧ reserveIn.toNat < 2 ^ 128 ∧ reserveOut.toNat < 2 ^ 128 then
    let amountInWithFee := amountIn * feeNumerator
    let numerator := amountInWithFee * reserveOut
    let denominator := reserveIn * feeDenom + amountInWithFee
    checkedDiv numerator denominator
  else
    let amountInWithFee := amountIn.toNat * feeNumerator.toNat
    let numerator := wrap512 (amountInWithFee * reserveOut.toNat)
    let denominator := wrap512 (reserveIn.toNat * feeDenom.toNat + amountInWithFee)
    if denominator = 0 then some 0
    else some (truncate256 (numerator / denominator))

/-- The fee fraction of a V2 hop: the live pool fee, else the edge fee, else the default. -/
def resolveV2FeeWithEdge (state : V2PoolState) (edgeFeeBps : Option ℕ) : U256 × U256 :=
  if state.fee ≠ 0 ∧ state.feeDenominator ≠ 0 ∧ state.fee < state.feeDenominator then
    (state.fee, state.feeDenominator)
  else
    match edgeFeeBps with
    | some bps =>
        if 0 < bps ∧ bps < 10000 then (BitVec.ofNat 256 (10000 - bps), 10000#256)
        else (defaultFeeNumerator, feeDenominator)
    | none => (defaultFeeNumerator, feeDenominator)

def simulateV2Swap (state : V2PoolState) (amountIn : U256) (zeroForOne : Bool)
    (edgeFeeBps : Option ℕ) : Run U256 :=
  let (numerator, denominator) := resolveV2FeeWithEdge state edgeFeeBps
  let (reserveIn, reserveOut) :=
    if zeroForOne then (state.reserve0, state.reserve1) else (state.reserve1, state.reserve0)
  getAmountOut amountIn reserveIn reserveOut numerator denominator

end PolygonArb

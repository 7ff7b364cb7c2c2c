import PolygonArb.Pipeline.Arena
import PolygonArb.Services.Profit

/-!
# Sanity of a simulated size

`pipeline/sim_sanity.rs`: the checks every simulated amount has to pass before it is dispatched, the
smallest amount worth borrowing, and the flash borrow cap in US dollars converted to the start token.

The MATIC price in dollars is a Chainlink answer or a float; the float only enters as a number of
millionths (`MaticUsd.micros`).
-/

namespace PolygonArb

open Word

/-- A tenth of a MATIC. -/
def minEconomicValueMaticWei : U256 := 100000000000000000#256

def maxSaneProfitRatioBps : U256 := 50000#256

/-! ## The economic floor -/

/-- Smallest borrow that represents a meaningful notional. -/
def minEconomicAmountIn (tokenDecimals : BitVec 8) (tokenToMaticRate : U256) : U256 :=
  if maxSupportedTokenDecimals < tokenDecimals.toNat then maxValue
  else
    let scale := tenPowU256 tokenDecimals.toNat
    let dustFloor := scale / 1000#256
    let absoluteFloor := 1000#256
    if tokenToMaticRate = 0 then max dustFloor absoluteFloor
    else
      match checkedMul minEconomicValueMaticWei scale with
      | none => maxValue
      | some economic => max (max (economic / tokenToMaticRate) dustFloor) absoluteFloor

/-! ## The dollar cap -/

/-- Price of one MATIC: the float quote in millionths of a dollar, `none` when it is not a positive
number that fits 64 bits, and the Chainlink answer with eight decimals. -/
structure MaticUsd where
  micros : Option (BitVec 64)
  chainlink : Option ℤ

/-- Dollar cap in MATIC wei at a price of `price / scale` dollars. -/
def maxFlashLoanMaticWeiAt (usdCap : BitVec 64) (scale price : U256) : Option U256 := do
  let dollars ← checkedMul (usdCap.setWidth 256) one18
  let numer ← checkedMul dollars scale
  some (numer / price)

/-- The answer has to be a positive `i128`. -/
def maxFlashLoanMaticWeiFromUsdChainlink8 (usdCap : BitVec 64) (maticUsdAnswer : ℤ) : Option U256 :=
  if usdCap = 0 then none
  else if maticUsdAnswer ≤ 0 ∨ 2 ^ 127 ≤ maticUsdAnswer then none
  else maxFlashLoanMaticWeiAt usdCap 100000000#256 (BitVec.ofInt 256 maticUsdAnswer)

def maxFlashLoanMaticWeiFromUsd (usdCap : BitVec 64) (micros : Option (BitVec 64)) : Option U256 :=
  if usdCap = 0 then none
  else do
    let micros ← micros.filter (· ≠ 0)
    maxFlashLoanMaticWeiAt usdCap 1000000#256 (micros.setWidth 256)

structure FlashBorrowCapParams where
  maxFlashLoanUsd : BitVec 64
  tokenDecimals : BitVec 8
  tokenToMaticRate : U256
  maticUsd : MaticUsd

namespace FlashBorrowCapParams

variable (params : FlashBorrowCapParams)

/-- The cap in start-token units (`max_flash_borrow_wei`). -/
def capWei : Option U256 :=
  if maxSupportedTokenDecimals < params.tokenDecimals.toNat ∨ params.tokenToMaticRate = 0 then none
  else do
    let maxMaticWei ← match params.maticUsd.chainlink with
      | some raw => maxFlashLoanMaticWeiFromUsdChainlink8 params.maxFlashLoanUsd raw
      | none => maxFlashLoanMaticWeiFromUsd params.maxFlashLoanUsd params.maticUsd.micros
    let product ← checkedMul maxMaticWei (tenPowU256 params.tokenDecimals.toNat)
    checkedDiv product params.tokenToMaticRate

/-- A cap is asked for and cannot be computed. -/
def capEnforcedButUnresolved : Bool :=
  decide (0#64 < params.maxFlashLoanUsd) && params.capWei.isNone

def amountWithinCap (amountIn : U256) : Bool :=
  if params.maxFlashLoanUsd = 0 ∨ amountIn = 0 then true
  else
    match params.capWei with
    | some cap => decide (amountIn ≤ cap)
    | none => false

end FlashBorrowCapParams

/-! ## The checks -/

inductive SimSanityReject
  | unsupportedTokenDecimals
  | amountBelowEconomicFloor
  | insaneProfitRatio
  | insaneProfitMatic
  | optimizerPinnedAtFloor
  deriving DecidableEq

structure SimSanityInput where
  amountIn : U256
  grossProfit : U256
  searchLow : U256
  tokenDecimals : BitVec 8
  tokenToMaticRate : U256

/-- The rejects of the inner loop of the size search. -/
def checkSimSanityFast (input : SimSanityInput) : Except SimSanityReject Unit :=
  if maxSupportedTokenDecimals < input.tokenDecimals.toNat then .error .unsupportedTokenDecimals
  else if input.amountIn = 0 then .error .amountBelowEconomicFloor
  else
    match checkedMul input.amountIn maxSaneProfitRatioBps with
    | none => .error .insaneProfitRatio
    | some value =>
        if value / bpsScale < input.grossProfit then .error .insaneProfitRatio else .ok ()

/-- Upper end of the band around the search floor; a floor of zero switches the check off. -/
def optimizerPinCeiling (searchLow : U256) : Option U256 :=
  if searchLow = 0 then none else some (saturatingAdd searchLow (max (searchLow / 50#256) 1#256))

/-- The amount sits on the search floor with a profit above a twentieth of it. -/
def optimizerPinnedAtFloor (input : SimSanityInput) : Bool :=
  match optimizerPinCeiling input.searchLow with
  | none => false
  | some ceiling => decide (input.amountIn ≤ ceiling ∧ input.amountIn / 20#256 < input.grossProfit)

/-- The profit in MATIC is beyond belief.  A product that overflows passes. -/
def insaneProfitMatic (input : SimSanityInput) : Bool :=
  if input.tokenToMaticRate < minTokenToMaticRate then false
  else
    match checkedMul input.grossProfit input.tokenToMaticRate with
    | none => false
    | some v => decide (maxSaneProfitMaticWei < v / tenPowU256 input.tokenDecimals.toNat)

def checkSimSanity (input : SimSanityInput) : Except SimSanityReject Unit := do
  checkSimSanityFast input
  let floor := minEconomicAmountIn input.tokenDecimals input.tokenToMaticRate
  -- a pool without ticks is traded at the probe size, which may be below the floor
  let ticklessCapTrade :=
    decide (spotProbeForDecimals input.tokenDecimals.toNat ≤ input.amountIn ∧ input.amountIn < floor)
  if input.amountIn < floor ∧ ticklessCapTrade = false then .error .amountBelowEconomicFloor
  else if insaneProfitMatic input then .error .insaneProfitMatic
  else if !ticklessCapTrade && optimizerPinnedAtFloor input then .error .optimizerPinnedAtFloor
  else .ok ()

/-- The last check before dispatch: pinned at the floor may be a real size, so it is checked again
with the pin switched off. -/
def checkSimSanityForDispatch (input : SimSanityInput) : Except SimSanityReject Unit :=
  match checkSimSanity input with
  | .ok () => .ok ()
  | .error .optimizerPinnedAtFloor => checkSimSanity { input with searchLow := 0 }
  | .error reason => .error reason

end PolygonArb

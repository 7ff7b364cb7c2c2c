import PolygonArb.Core.Types

/-!
# WooFi quotes

`core/math/woofi.rs`.  A quote is one leg between a base token and the quote token, or two legs
through it.  The last division of a leg is by `ONE * dec`, which can wrap to zero: that is a panic.
-/

namespace PolygonArb

open Word

def woofiFeeDenominator : U256 := 100000#256

/-- `a * b * c / (d * e)` with a 512-bit fallback; a quotient above a word is zero. -/
def mulDivTriple (a b c d e : U256) : Run U256 :=
  let narrow : Option U256 := do
    let ab ← checkedMul a b
    let abc ← checkedMul ab c
    let de ← checkedMul d e
    if de = 0 then none else some (abc / de)
  match narrow with
  | some q => some q
  | none =>
      if d.toNat * e.toNat = 0 then none
      else
        some ((ofNatChecked (wrap512 (a.toNat * b.toNat * c.toNat) / (d.toNat * e.toNat))).getD 0)

def hasPositiveSwapFactor (gamma spread : U256) : Bool :=
  gamma ≤ one18 && spread ≤ one18 && gamma + spread < one18

def calcQuoteAmountSellBase (base : WoofiBaseTokenState) (baseAmount : U256)
    (spreadOverride : Option U256) : Run U256 :=
  let spread := spreadOverride.getD base.spread
  if baseAmount = 0 ∨ base.price = 0 ∨ base.baseDec = 0 ∨ base.quoteDec = 0 ∨ base.priceDec = 0 then
    some 0
  else do
    let notionalSwap ← mulDivTriple baseAmount base.price base.quoteDec base.baseDec base.priceDec
    if base.maxNotionalSwap < notionalSwap then some 0
    else do
      let gamma ← mulDivTriple baseAmount base.price base.coeff base.priceDec base.baseDec
      if base.maxGamma < gamma then some 0
      else if hasPositiveSwapFactor gamma spread = false then some 0
      else do
        let quoteNoSpread ← mulDivTriple baseAmount base.price base.quoteDec base.priceDec 1
        checkedDiv (quoteNoSpread * (one18 - gamma - spread)) (one18 * base.baseDec)

def calcBaseAmountSellQuote (base : WoofiBaseTokenState) (quoteAmount : U256)
    (spreadOverride : Option U256) : Run U256 :=
  let spread := spreadOverride.getD base.spread
  if quoteAmount = 0 ∨ base.price = 0 ∨ base.baseDec = 0 ∨ base.quoteDec = 0
      ∨ base.priceDec = 0 then some 0
  else if base.maxNotionalSwap < quoteAmount then some 0
  else
    let gamma := quoteAmount * base.coeff / base.quoteDec
    if base.maxGamma < gamma then some 0
    else if hasPositiveSwapFactor gamma spread = false then some 0
    else do
      let baseNoSpread ← mulDivTriple quoteAmount base.baseDec base.priceDec base.price 1
      checkedDiv (baseNoSpread * (one18 - gamma - spread)) (one18 * base.quoteDec)

def applyWoofiFee (amount feeRate : U256) : U256 :=
  if amount = 0 ∨ woofiFeeDenominator ≤ feeRate then 0
  else amount - amount * feeRate / woofiFeeDenominator

/-- The amount when the reserve covers it, else zero. -/
def withinReserve (reserve amount : U256) : U256 :=
  if reserve = 0 ∨ reserve < amount then 0 else amount

/-- Base to base: one fee and a shared half spread over both legs. -/
def woofiBaseToBase (state : WoofiPoolState) (sell buy : WoofiBaseTokenState) (amountIn : U256) :
    Run U256 :=
  if sell.reserve < amountIn ∨ sell.reserve = 0 then some 0
  else do
    let spread := max sell.spread buy.spread / 2
    let feeRate := max sell.feeRate buy.feeRate
    let quoteGross ← calcQuoteAmountSellBase sell amountIn (some spread)
    if quoteGross = 0 ∨ state.quoteReserve < quoteGross then some 0
    else do
      let quoteAmount := applyWoofiFee quoteGross feeRate
      let baseOut ← calcBaseAmountSellQuote buy quoteAmount (some spread)
      some (withinReserve buy.reserve baseOut)

def getWoofiAmountOut (state : WoofiPoolState) (amountIn : U256)
    (tokenInIsQuote tokenOutIsQuote : Bool) (baseInIdx baseOutIdx : Option ℕ) : Run U256 :=
  if amountIn = 0 then some 0
  else if tokenOutIsQuote then
    match baseInIdx.bind (state.baseStates[·]?) with
    | none => some 0
    | some base => do
        let gross ← calcQuoteAmountSellBase base amountIn none
        some (withinReserve state.quoteReserve (applyWoofiFee gross base.feeRate))
  else if tokenInIsQuote then
    match baseOutIdx.bind (state.baseStates[·]?) with
    | none => some 0
    | some base => do
        let feeAdjusted := applyWoofiFee amountIn base.feeRate
        let baseOut ← calcBaseAmountSellQuote base feeAdjusted none
        some (withinReserve base.reserve baseOut)
  else
    match baseInIdx.bind (state.baseStates[·]?), baseOutIdx.bind (state.baseStates[·]?) with
    | some sell, some buy => woofiBaseToBase state sell buy amountIn
    | _, _ => some 0

end PolygonArb

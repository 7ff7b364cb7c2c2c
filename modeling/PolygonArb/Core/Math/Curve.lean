import PolygonArb.Core.Types

/-!
# Curve stable-swap quotes

`core/math/curve.rs`: the Newton iterations for the invariant `D` and the new balance `y`, and the
quote built on them.  `getY` divides by `ann * n`, which can wrap to zero: that is a panic, so it and
the quote are `Run`s.
-/

namespace PolygonArb

open Word

def curveFeeDenominator : U256 := 10000000000#256

def aPrecision : U256 := 100#256

def curveMaxIterations : ℕ := 128

/-- Safety buffer on the output, `5e6 / 1e10`. -/
def curveOutputBuffer : U256 := 5000000#256

def dynamicFee (xpi xpj fee offpegMult : U256) : U256 :=
  if offpegMult ≤ curveFeeDenominator ∨ xpi = 0 ∨ xpj = 0 then fee
  else
    let sum := xpi + xpj
    let xps2 := saturatingMul sum sum
    if xps2 = 0 then fee
    else
      let numerator := saturatingMul offpegMult fee
      let prod := saturatingMul (saturatingMul xpi xpj) 4
      let imbalance := saturatingMul (offpegMult - curveFeeDenominator) prod / xps2
      let denom := saturatingAdd imbalance curveFeeDenominator
      if denom = 0 then fee else numerator / denom

/-- The inner product `d_p` of the `D` iteration. -/
def getDProduct (n d : U256) : List U256 → U256 → Option U256
  | [], dP => some dP
  | x :: xs, dP =>
      let xn := x * n
      if xn = 0 then none else getDProduct n d xs (dP * d / xn)

def getDLoop (xp : List U256) (n annS annMinusP nPlus1 : U256) : ℕ → U256 → Option U256
  | 0, d => some d
  | fuel + 1, dPrev => do
      let dP ← getDProduct n dPrev xp dPrev
      let annProduct ← checkedMul annMinusP dPrev
      let annTerm := annProduct / aPrecision
      let hopTerm ← checkedMul nPlus1 dP
      let denominator ← checkedAdd annTerm hopTerm
      if denominator = 0 then none
      else
        let d := (annS + dP * n) * dPrev / denominator
        if absDiff d dPrev ≤ 1 then some d
        else getDLoop xp n annS annMinusP nPlus1 fuel d

def getD (xp : List U256) (a : U256) : Option U256 :=
  if a = 0 ∨ xp.length < 2 ∨ (xp.any fun x => x = 0) = true then none
  else
    let n := BitVec.ofNat 256 xp.length
    let s := xp.foldl (· + ·) 0
    if s = 0 then some 0
    else
      let ann := a * n
      if ann ≤ aPrecision then none
      else getDLoop xp n (ann * s / aPrecision) (ann - aPrecision) (n + 1) curveMaxIterations s

/-- Sum and product over every coin but `j`, with coin `i` at its new balance `x`. -/
def getYAccumulate (x : U256) (i j : ℕ) (n d : U256) :
    ℕ → List U256 → U256 → U256 → Option (U256 × U256)
  | _, [], s, c => some (s, c)
  | k, xk :: rest, s, c =>
      if k = j then getYAccumulate x i j n d (k + 1) rest s c
      else
        let val := if k = i then x else xk
        let vn := val * n
        if vn = 0 then none
        else getYAccumulate x i j n d (k + 1) rest (s + val) (c * d / vn)

def getYLoop (b c d : U256) : ℕ → U256 → Option U256
  | 0, y => some y
  | fuel + 1, yPrev =>
      let denominator := saturatingSub (2 * yPrev + b) d
      if denominator = 0 then none
      else
        let y := (yPrev * yPrev + c) / denominator
        if absDiff y yPrev ≤ 1 then some y else getYLoop b c d fuel y

def getY (x : U256) (i j : ℕ) (xp : List U256) (a d : U256) : Run (Option U256) :=
  let n := BitVec.ofNat 256 xp.length
  let ann := a * n
  if ann = 0 ∨ d = 0 then some none
  else
    match getYAccumulate x i j n d 0 xp 0 d with
    | none => some none
    | some (s, c) => do
        let c ← checkedDiv (c * d * aPrecision) (ann * n)
        let b := s + d * aPrecision / ann
        some (getYLoop b c d curveMaxIterations d)

def toXp (balances rates : List U256) : Option (List U256) :=
  if rates ≠ [] ∧ rates.length ≠ balances.length then none
  else if rates = [] then some balances
  else some (balances.zipWith (fun balance rate => balance * rate / one18) rates)

inductive CurveStableReject
  | zeroAmount
  | invalidIndices
  | feeTooHigh
  | xp
  | dInvariant
  | y
  | zeroOut
  deriving DecidableEq, Repr

/-- The fee rate of a swap: dynamic for NG pools, static for classic ones. -/
def curveSwapFee (state : CurvePoolState) (xpi xpj x y : U256) : U256 :=
  match state.offpegFeeMultiplier with
  | some offpeg => dynamicFee ((xpi + x) / 2) ((xpj + y) / 2) state.fee offpeg
  | none =>
      let nCoins := BitVec.ofNat 256 state.balances.length
      state.fee * nCoins / (4 * (nCoins - 1))

def tryCurveStableAmountOut (state : CurvePoolState) (amountIn : U256)
    (tokenInIdx tokenOutIdx : ℕ) : Run (Except CurveStableReject U256) :=
  if amountIn = 0 then some (.error .zeroAmount)
  else if state.a = 0 ∨ tokenInIdx = tokenOutIdx ∨ state.balances.length ≤ tokenInIdx
      ∨ state.balances.length ≤ tokenOutIdx then some (.error .invalidIndices)
  else if curveFeeDenominator ≤ state.fee then some (.error .feeTooHigh)
  else
    match toXp state.balances state.rates with
    | none => some (.error .xp)
    | some xp =>
        let cached := state.d.filter (· ≠ 0)
        match (cached.or (getD xp state.a)).filter (· ≠ 0) with
        | none => some (.error .dInvariant)
        | some d => do
            let xpi := xp.getD tokenInIdx 0
            let xpj := xp.getD tokenOutIdx 0
            let inRate := state.rates.getD tokenInIdx one18
            let x := xpi + amountIn * inRate / one18
            match ← getY x tokenInIdx tokenOutIdx xp state.a d with
            | none => some (.error .y)
            | some y =>
                let dy := saturatingSub (saturatingSub xpj y) 1
                if dy = 0 then some (.error .zeroOut)
                else
                  let fee := curveSwapFee state xpi xpj x y
                  let feeAmount := dy * fee / curveFeeDenominator
                  let dyAfterFee := saturatingSub dy feeAmount
                  let dyBuffered := saturatingSub dyAfterFee
                    (dyAfterFee * curveOutputBuffer / curveFeeDenominator)
                  if dyBuffered = 0 then some (.error .zeroOut)
                  else
                    let outRate := state.rates.getD tokenOutIdx one18
                    if outRate = 0 then some (.error .zeroOut)
                    else some (.ok (dyBuffered * one18 / outRate))

end PolygonArb

import PolygonArb.Core.Math.Curve

/-!
# Curve crypto-swap quotes

`core/math/curve_crypto.rs`: the two Newton iterations of the crypto invariant.  `mul1` is the one
512-bit expression and is truncated to a word.  Two divisions can meet a wrapped zero (the running
mean in `geometricMean`, `xj * n` in `newtonY`): those are panics.
-/

namespace PolygonArb

open Word

def curveCryptoOutputBuffer : U256 := 5000000#256

def aMultiplier : U256 := 10000#256

def pow10_10 : U256 := 10000000000#256

def pow10_14 : U256 := 100000000000000#256

def pow10_16 : U256 := 10000000000000000#256

def pow10_20 : U256 := fromLimbs 7766279631452241920 5 0 0

structure NewtonResult where
  value : U256
  converged : Bool
  deriving DecidableEq

/-- The result of an iteration that gave up. -/
def NewtonResult.failed : NewtonResult := ⟨0, false⟩

def absDiffAddOne (a b : U256) : U256 := absDiff a b + 1

/-- `ONE^(1-n) * product of x / d^n`, one division per coin. -/
def geometricMeanProduct (d : U256) : List U256 → U256 → Run U256
  | [], tmp => some tmp
  | x :: xs, tmp => do
      let tmp ← checkedDiv (tmp * x) d
      geometricMeanProduct d xs tmp

def geometricMeanLoop (xs : List U256) (n : U256) : ℕ → U256 → Run U256
  | 0, _ => some 0
  | fuel + 1, dPrev => do
      let tmp ← geometricMeanProduct dPrev xs one18
      let d ← checkedDiv (dPrev * ((n - 1) * one18 + tmp)) (n * one18)
      let diff := absDiff d dPrev
      if diff ≤ 1 ∨ diff * one18 < d then some d
      else geometricMeanLoop xs n fuel d

def geometricMean (xs : List U256) : Run U256 :=
  if (xs.any fun x => x = 0) = true then some 0
  else
    match xs with
    | [] => none
    | x0 :: _ => geometricMeanLoop xs (BitVec.ofNat 256 xs.length) curveMaxIterations x0

def computeK0 (xp : List U256) (d n : U256) : U256 :=
  if d = 0 then 0 else xp.foldl (fun k0 x => k0 * x * n / d) one18

/-- `ONE * d / gamma * g1k0 / gamma * g1k0 * A_MULTIPLIER / ann` in 512 bits. -/
def cryptoMul1 (ann gamma d g1k0 : U256) : U256 :=
  let a := one18.toNat * d.toNat / gamma.toNat
  let b := wrap512 (a * g1k0.toNat) / gamma.toNat
  let c := wrap512 (wrap512 (b * g1k0.toNat) * aMultiplier.toNat)
  truncate256 (c / ann.toNat)

/-- One round of the `D` iteration: the next `D`, or nothing when the derivative vanishes. -/
def newtonDStep (ann gamma s n d k0 g1k0 : U256) : Option U256 :=
  let mul1 := cryptoMul1 ann gamma d g1k0
  let mul2 := 2 * one18 * n * k0 / g1k0
  let negFprime := saturatingSub (s + s * mul2 / one18 + mul1 * n / k0) (mul2 * d / one18)
  if negFprime = 0 then none
  else
    let dplus := d * (negFprime + s) / negFprime
    let dminus0 := d * d / negFprime
    let dminus :=
      if k0 < one18 then dminus0 + d * mul1 / negFprime / one18 * (one18 - k0) / k0
      else saturatingSub dminus0 (d * mul1 / negFprime / one18 * (k0 - one18) / k0)
    some (if dminus < dplus then dplus - dminus else (dminus - dplus) / 2)

def newtonDLoop (ann gamma : U256) (xp : List U256) (s n : U256) : ℕ → U256 → NewtonResult
  | 0, _ => .failed
  | fuel + 1, dPrev =>
      if dPrev = 0 then .failed
      else
        let k0 := computeK0 xp dPrev n
        if k0 = 0 then .failed
        else
          let g1k0 := absDiffAddOne (gamma + one18) k0
          if g1k0 = 0 then .failed
          else
            match newtonDStep ann gamma s n dPrev k0 g1k0 with
            | none => .failed
            | some d =>
                if absDiff d dPrev * pow10_14 < max pow10_16 d then ⟨d, true⟩
                else newtonDLoop ann gamma xp s n fuel d

def curveCryptoNewtonD (ann gamma : U256) (xp : List U256) : Run NewtonResult :=
  if xp.length < 2 ∨ ann = 0 ∨ gamma = 0 ∨ (xp.any fun x => x = 0) = true then some .failed
  else do
    let n := BitVec.ofNat 256 xp.length
    let mean ← geometricMean xp
    let d := n * mean
    if d = 0 then some .failed
    else some (newtonDLoop ann gamma xp (xp.foldl (· + ·) 0) n curveMaxIterations d)

/-- The first guess of `y` and the sum of the other balances, smallest balance first. -/
def newtonYInit (d n : U256) : List U256 → U256 → U256 → Run (Option (U256 × U256))
  | [], y, si => some (some (y, si))
  | xj :: rest, y, si =>
      if xj = 0 then some none
      else do
        let y ← checkedDiv (y * d) (xj * n)
        newtonYInit d n rest y (si + xj)

/-- The end of the `y` iteration: accept only a balance within the pool's sane fraction of `D`. -/
def newtonYAccept (y d : U256) : NewtonResult :=
  let frac := y * one18 / d
  if pow10_16 - 1 < frac ∧ frac < pow10_20 + 1 then ⟨y, true⟩ else .failed

def newtonYLoop (ann gamma d n k0i si convergenceLimit : U256) : ℕ → U256 → NewtonResult
  | 0, _ => .failed
  | fuel + 1, yPrev =>
      if yPrev = 0 ∨ d = 0 then .failed
      else
        let k0 := k0i * yPrev * n / d
        if k0 = 0 then .failed
        else
          let s := si + yPrev
          let g1k0 := absDiffAddOne (gamma + one18) k0
          if g1k0 = 0 then .failed
          else
            let mul1 := cryptoMul1 ann gamma d g1k0
            let mul2 := one18 + 2 * one18 * k0 / g1k0
            let yfprime0 := one18 * yPrev + s * mul2 + mul1
            let dyfprime := d * mul2
            if yfprime0 < dyfprime then
              newtonYLoop ann gamma d n k0i si convergenceLimit fuel (yPrev / 2)
            else
              let yfprime := yfprime0 - dyfprime
              let fprime := yfprime / yPrev
              if fprime = 0 then .failed
              else
                let yMinus0 := mul1 / fprime
                let yPlus := (yfprime + one18 * d) / fprime + yMinus0 * one18 / k0
                let yMinus := yMinus0 + one18 * s / fprime
                let y := if yPlus < yMinus then yPrev / 2 else yPlus - yMinus
                if absDiff y yPrev < max convergenceLimit (y / pow10_14) then newtonYAccept y d
                else newtonYLoop ann gamma d n k0i si convergenceLimit fuel y

def curveCryptoNewtonY (ann gamma : U256) (xp : List U256) (d : U256) (outIdx : ℕ) :
    Run NewtonResult :=
  let n := xp.length
  if n ≤ outIdx ∨ ann = 0 ∨ gamma = 0 ∨ d = 0 then some .failed
  else do
    let nWord := BitVec.ofNat 256 n
    let sorted := (xp.set outIdx 0).insertionSort (fun a b => b ≤ a)
    let others := sorted.take (n - 1)
    let convergenceLimit := max (max (sorted.headD 0 / pow10_14) (d / pow10_14)) 100
    match ← newtonYInit d nWord others.reverse (d / nWord) 0 with
    | none => some .failed
    | some (y, si) =>
        let k0i := others.foldl (fun k0i x => k0i * x * nWord / d) one18
        some (newtonYLoop ann gamma d nWord k0i si convergenceLimit curveMaxIterations y)

inductive CurveCryptoReject
  | zeroAmount
  | invalidIndices
  | missingGamma
  | newtonD
  | newtonY
  | implausibleOutput
  | zeroOut
  deriving DecidableEq, Repr

/-- The cached invariant, or a fresh one. -/
def cryptoInvariant (state : CurvePoolState) (ann gamma : U256) (xp : List U256) :
    Run (Option U256) :=
  match state.d.filter (· ≠ 0) with
  | some d => some (some d)
  | none => do
      let result ← curveCryptoNewtonD ann gamma xp
      some (if result.converged then some result.value else none)

def tryCurveCryptoAmountOut (state : CurvePoolState) (amountIn : U256)
    (tokenInIdx tokenOutIdx : ℕ) : Run (Except CurveCryptoReject U256) :=
  if amountIn = 0 then some (.error .zeroAmount)
  else if state.nCoins ≤ tokenInIdx ∨ state.nCoins ≤ tokenOutIdx ∨ tokenInIdx = tokenOutIdx then
    some (.error .invalidIndices)
  else
    let gamma := state.gamma.getD 0
    if gamma = 0 ∨ state.a = 0 then some (.error .missingGamma)
    else
      let ann := state.a * BitVec.ofNat 256 state.nCoins * aMultiplier
      let rates := if state.rates = [] then List.replicate state.nCoins one18 else state.rates
      let xp := state.balances.zipWith (fun b r => b * r / one18) rates
      if xp.length ≤ tokenInIdx ∨ xp.length ≤ tokenOutIdx then some (.error .invalidIndices)
      else do
        match ← cryptoInvariant state ann gamma xp with
        | none => some (.error .newtonD)
        | some d =>
            let inputXp := amountIn * rates.getD tokenInIdx 0 / one18
            let xp := xp.set tokenInIdx (xp.getD tokenInIdx 0 + inputXp)
            let yResult ← curveCryptoNewtonY ann gamma xp d tokenOutIdx
            if yResult.converged = false then some (.error .newtonY)
            else
              let dy := saturatingSub (xp.getD tokenOutIdx 0) yResult.value
              if ((checkedMul inputXp 2).any fun maxOutput => maxOutput < dy) = true then
                some (.error .implausibleOutput)
              else
                let outRate := rates.getD tokenOutIdx 0
                if outRate = 0 then some (.error .zeroOut)
                else
                  let out := dy * one18 / outRate
                  let feeAmount := out * state.fee / pow10_10
                  let outAfterFee := saturatingSub out feeAmount
                  let buffered := saturatingSub outAfterFee
                    (outAfterFee * curveCryptoOutputBuffer / curveFeeDenominator)
                  if buffered = 0 then some (.error .zeroOut) else some (.ok buffered)

/-- Stable or crypto Curve hop; nothing when the swap is unusable. -/
def curveHopAmountOut (state : CurvePoolState) (protocol : ProtocolType) (amountIn : U256)
    (tokenInIdx tokenOutIdx : ℕ) : Run (Option U256) :=
  match protocol with
  | .curveStable => do
      match ← tryCurveStableAmountOut state amountIn tokenInIdx tokenOutIdx with
      | .ok out => some (if out ≠ 0 then some out else none)
      | .error _ => some none
  | .curveCrypto => do
      match ← tryCurveCryptoAmountOut state amountIn tokenInIdx tokenOutIdx with
      | .ok out => some (if out ≠ 0 then some out else none)
      | .error _ => some none
  | _ => some none

end PolygonArb

import PolygonArb.Core.Types

/-!
# 18-decimal fixed point, logarithm and exponential

`core/math/fixed_point.rs` and `core/math/log_exp_math.rs`.  All products wrap; the constants are
the source's limbs.
-/

namespace PolygonArb

open Word

def one20 : U256 := fromLimbs 7766279631452241920 5 0 0

def one36 : U256 := fromLimbs 12919594847110692864 54210108624275221 0 0

def maxNaturalExponent : U256 := fromLimbs 15145670503932362752 7047314121155778 0 0

def ln36LowerBound : U256 := 900000000000000000#256

def ln36UpperBound : U256 := 1100000000000000000#256

def maxPowRelativeError : U256 := 10000#256

def lnX0 : U256 := fromLimbs 0 0 0 128

def lnX1 : U256 := fromLimbs 0 0 0 64

def lnA0 : U256 := fromLimbs 171843153341448192 17670479068478958691 114249481722274167 0

def lnA1 : U256 := fromLimbs 17696838799657497472 338008108 0 0

/-- Threshold and factor of each binary step of the exponential. -/
def expSteps : List (U256 × U256) :=
  [(fromLimbs 8713275248247570432 173 0 0, fromLimbs 17871857890508685312 428059064879743 0 0),
   (fromLimbs 13580009660978561024 86 0 0, fromLimbs 12108528782385981184 48171701 0 0),
   (fromLimbs 6790004830489280512 43 0 0, fromLimbs 14861217100182911056 16159 0 0),
   (fromLimbs 12618374452099416064 21 0 0, fromLimbs 18025501570106181090 295 0 0),
   (fromLimbs 15532559262904483840 10 0 0, fromLimbs 1035846944682958083 40 0 0),
   (fromLimbs 7766279631452241920 5 0 0, fromLimbs 13573765813970800912 14 0 0),
   (fromLimbs 13106511852580896768 2 0 0, fromLimbs 17298174480336401757 8 0 0),
   (fromLimbs 6553255926290448384 1 0 0, fromLimbs 17722077226516838711 6 0 0)]

/-- The steps of the logarithm: those of the exponential and two finer ones. -/
def lnSteps : List (U256 × U256) :=
  expSteps ++
  [(fromLimbs 12500000000000000000 0 0 0, fromLimbs 2634380864425321987 6 0 0),
   (fromLimbs 6250000000000000000 0 0 0, fromLimbs 14215725523238184876 5 0 0)]

/-- `z + z^3/3 + z^5/5 + ...` in the fixed point of `unit`, one term per divisor. -/
def arctanhSeries (z unit : U256) (divisors : List ℕ) : U256 :=
  let zSquared := z * z / unit
  (divisors.foldl
    (fun (acc : U256 × U256) d =>
      let num := acc.1 * zSquared / unit
      (num, acc.2 + num / BitVec.ofNat 256 d))
    (z, z)).2

def ln36 (a : U256) : U256 :=
  let x := a * one18
  let z := (x - one36) * one36 / (x + one36)
  arctanhSeries z one36 [3, 5, 7, 9, 11, 13, 15] * 2

/-- `ln` of an argument of at least one, the only kind `log_exp_ln` passes on. -/
def lnFromOne (a : U256) : U256 :=
  let s0 : U256 × U256 := if lnA0 ≤ a then (a / lnA0, lnX0) else (a, 0)
  let s1 : U256 × U256 := if lnA1 ≤ s0.1 then (s0.1 / lnA1, s0.2 + lnX1) else s0
  let s2 := lnSteps.foldl
    (fun (acc : U256 × U256) step =>
      if step.2 ≤ acc.1 then (acc.1 * one20 / step.2, acc.2 + step.1) else acc)
    (s1.1 * 100, s1.2 * 100)
  let z := (s2.1 - one20) * one20 / (s2.1 + one20)
  (s2.2 + arctanhSeries z one20 [3, 5, 7, 9, 11] * 2) / 100

def logExpLn (a : U256) : U256 :=
  if a = 0 ∨ a < one18 then 0
  else if ln36LowerBound < a ∧ a < ln36UpperBound then ln36 a / one18
  else lnFromOne a

def logExpExp (x : U256) : U256 :=
  if maxNaturalExponent < x then maxValue
  else
    let (xv, firstAn) : U256 × U256 :=
      if lnX0 ≤ x then (x - lnX0, lnA0)
      else if lnX1 ≤ x then (x - lnX1, lnA1)
      else (x, 1)
    let s := expSteps.foldl
      (fun (acc : U256 × U256) step =>
        if step.1 ≤ acc.1 then (acc.1 - step.1, acc.2 * step.2 / one20) else acc)
      (xv * 100, one20)
    let series := [2, 3, 4, 5, 6, 7, 8, 9, 10, 11, 12].foldl
      (fun (acc : U256 × U256) d =>
        let term := acc.1 * s.1 / one20 / BitVec.ofNat 256 d
        (term, acc.2 + term))
      (s.1, one20 + s.1)
    s.2 * series.2 / one20 * firstAn / 100

def logExpPow (x y : U256) : U256 :=
  if y = 0 then one18
  else if x = 0 then 0
  else if x < one18 then
    let lnRecip := logExpLn (one36 / x)
    if lnRecip = 0 then 0
    else
      let exponent := lnRecip * y / one18
      if maxNaturalExponent < exponent then 0
      else
        let e := logExpExp exponent
        if e = 0 then 0 else one36 / e
  else
    let logxTimesY := logExpLn x * y / one18
    if maxNaturalExponent < logxTimesY then maxValue else logExpExp logxTimesY

def mulDown (a b : U256) : U256 :=
  match checkedMul a b with
  | some product => product / one18
  | none => truncate256 (a.toNat * b.toNat / one18.toNat)

def mulUp (a b : U256) : U256 :=
  match checkedMul a b with
  | some product =>
      let q := product / one18
      if product % one18 ≠ 0 then saturatingAdd q 1 else q
  | none =>
      let product := a.toNat * b.toNat
      let quotient := truncate256 (product / one18.toNat)
      if 0 < product % one18.toNat then saturatingAdd quotient 1 else quotient

def complement (x : U256) : U256 := if x < one18 then one18 - x else 0

def powDown (x y : U256) : U256 :=
  if y = one18 then x
  else
    let raw := logExpPow x y
    let maxError := mulUp raw maxPowRelativeError + 1
    saturatingSub raw maxError

end PolygonArb

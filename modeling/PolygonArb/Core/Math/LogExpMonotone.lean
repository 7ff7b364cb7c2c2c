import PolygonArb.Core.Math.FixedPoint
import PolygonArb.Lib.RangeReduction

/-!
# How far the fixed-point logarithm and exponential keep the order

Both reduce their argument by a table and finish with a short series, so each is a `Reduction`: monotone as
long as no word wraps, because the branches meet in order at every threshold.  For the exponential that is a
bound on what the rows below a threshold can still make (`expBound`), for the logarithm one evaluation for
each row.

The two largest pairs of constants, `x0`, `x1` and `a0`, `a1`, are not of this table.  Their scales do not
match the arguments they are compared with: `ln` divides by `a1` an argument that has eighteen decimals more,
and `exp` never reaches `x1`, so its other rows are left with arguments for which its product leaves a word.
The order holds up to those two points and no further (`logExp_ordered_iff`).
-/

namespace PolygonArb

open Word

/-- The unit of the reductions. -/
def unit20 : ℕ := 100000000000000000000

lemma one20_toNat : one20.toNat = unit20 := by decide

lemma unit20_pos : 0 < unit20 := by decide

/-- A table of words as numbers. -/
def tableRows (steps : List (U256 × U256)) : List (ℕ × ℕ) :=
  steps.map fun step => (step.1.toNat, step.2.toNat)

section Exponential

/-- The terms of the series after the linear one. -/
def expTerms (x : ℕ) : List ℕ → ℕ → ℕ
  | [], _ => 0
  | d :: ds, term => term * x / unit20 / d + expTerms x ds (term * x / unit20 / d)

lemma expTerms_mono {x y : ℕ} (hxy : x ≤ y) (ds : List ℕ) :
    ∀ {term term' : ℕ}, term ≤ term' → expTerms x ds term ≤ expTerms y ds term' := by
  induction ds with
  | nil => exact fun _ => le_rfl
  | cons d ds ih =>
      intro term term' hterm
      have hnext : term * x / unit20 / d ≤ term' * y / unit20 / d :=
        Nat.div_le_div_right (Nat.div_le_div_right (Nat.mul_le_mul hterm hxy))
      exact Nat.add_le_add hnext (ih hnext)

def expDivisors : List ℕ := [2, 3, 4, 5, 6, 7, 8, 9, 10, 11, 12]

def expSeries (x : ℕ) : ℕ := unit20 + x + expTerms x expDivisors x

lemma expSeries_mono {x y : ℕ} (hxy : x ≤ y) : expSeries x ≤ expSeries y :=
  Nat.add_le_add (Nat.add_le_add_left hxy _) (expTerms_mono hxy _ hxy)

lemma expSeries_zero : expSeries 0 = unit20 := by decide

/-- The binary steps of the exponential: a row takes its threshold off and multiplies its factor in. -/
def expReduction : Reduction (ℕ × ℕ) ℕ where
  threshold row := row.1
  reduce row x := x - row.1
  next row product := product * row.2 / unit20
  base product x := product * expSeries x

/-- What the rows and the series make of an argument, rounded up at every row. -/
def expBound : List (ℕ × ℕ) → ℕ → ℕ
  | [], x => expSeries x
  | row :: rows, x =>
      if row.1 ≤ x then row.2 * expBound rows (x - row.1) / unit20 + 1 else expBound rows x

lemma value_le_expBound (rows : List (ℕ × ℕ)) :
    ∀ product x, expReduction.value rows product x ≤ product * expBound rows x := by
  induction rows with
  | nil => exact fun _ _ => le_rfl
  | cons row rows ih =>
      intro product x
      rw [expBound]
      by_cases hx : row.1 ≤ x
      · rw [Reduction.value_of_le hx, if_pos hx]
        refine (ih _ _).trans ?_
        change product * row.2 / unit20 * expBound rows (x - row.1) ≤ _
        set bound := expBound rows (x - row.1)
        refine Nat.le_of_mul_le_mul_right ?_ unit20_pos
        calc product * row.2 / unit20 * bound * unit20
            = product * row.2 / unit20 * unit20 * bound := by ring
          _ ≤ product * row.2 * bound := Nat.mul_le_mul_right _ (Nat.div_mul_le_self _ _)
          _ = product * (row.2 * bound) := by ring
          _ ≤ product * ((row.2 * bound / unit20 + 1) * unit20) :=
              Nat.mul_le_mul_left _ (Nat.mul_comm unit20 _ ▸ (Nat.lt_mul_div_succ _ unit20_pos).le)
          _ = product * (row.2 * bound / unit20 + 1) * unit20 := by ring
      · rw [Reduction.value_of_lt (R := expReduction) (not_le.mp hx), if_neg hx]
        exact ih _ _

/-- A row's factor is above what the rows after it make right below its threshold. -/
def ExpMeets : List (ℕ × ℕ) → Prop
  | [] => True
  | row :: rows =>
      (0 < row.1 ∧ unit20 ≤ row.2 ∧ expBound rows (row.1 - 1) + 1 ≤ row.2) ∧ ExpMeets rows

instance decidableExpMeets : ∀ rows, Decidable (ExpMeets rows)
  | [] => isTrue trivial
  | _ :: rows =>
      have := decidableExpMeets rows
      inferInstanceAs (Decidable (_ ∧ _))

lemma expRows_meet : ExpMeets (tableRows expSteps) := by decide

/-- Nothing is left to reduce. -/
lemma expReduction_zero {rows : List (ℕ × ℕ)} (h : ExpMeets rows) (product : ℕ) :
    expReduction.value rows product 0 = product * unit20 := by
  induction rows with
  | nil => exact congrArg (product * ·) expSeries_zero
  | cons row rows ih =>
      rw [Reduction.value_of_lt (R := expReduction) h.1.1]
      exact ih h.2

lemma meets_of_expMeets {rows : List (ℕ × ℕ)} (h : ExpMeets rows) :
    expReduction.Meets (unit20 ≤ ·) rows := by
  induction rows with
  | nil => trivial
  | cons row rows ih =>
      rcases h with ⟨⟨hpos, hunit, hbound⟩, hrest⟩
      refine ⟨fun product hproduct => ⟨?_, ?_⟩, ih hrest⟩
      · change unit20 ≤ product * row.2 / unit20
        rw [Nat.le_div_iff_mul_le unit20_pos]
        exact Nat.mul_le_mul hproduct hunit
      · -- a product of at least one unit leaves room for the floor at the threshold
        change expReduction.value rows product (row.1 - 1) ≤
          expReduction.value rows (product * row.2 / unit20) (row.1 - row.1)
        rw [Nat.sub_self, expReduction_zero hrest]
        have hfloor := Nat.div_add_mod (product * row.2) unit20
        have hmod := Nat.mod_lt (product * row.2) unit20_pos
        have hroom : product * expBound rows (row.1 - 1) + product ≤ product * row.2 := by
          rw [← Nat.mul_succ]
          exact Nat.mul_le_mul_left _ hbound
        have hbelow := value_le_expBound rows product (row.1 - 1)
        rw [Nat.mul_comm unit20] at hfloor
        omega

lemma expRow_ordered {row : ℕ × ℕ} (hpos : 0 < row.1) : expReduction.RowOrdered 0 row :=
  ⟨hpos, fun _ _ => Nat.zero_le _, fun _ _ _ hxy => Nat.sub_le_sub_right hxy _⟩

lemma expRows_ordered {rows : List (ℕ × ℕ)} (h : ExpMeets rows) :
    ∀ row ∈ rows, expReduction.RowOrdered 0 row := by
  induction rows with
  | nil => exact fun _ hmem => absurd hmem List.not_mem_nil
  | cons row rows ih =>
      exact List.forall_mem_cons.mpr ⟨expRow_ordered h.1.1, ih h.2⟩

/-- The product of the exponential before its last divisions. -/
def expProduct (x : ℕ) : ℕ := expReduction.value (tableRows expSteps) unit20 (x * 100)

lemma expProduct_mono {x y : ℕ} (hxy : x ≤ y) : expProduct x ≤ expProduct y :=
  Reduction.value_mono (fun _ _ _ _ _ h => Nat.mul_le_mul_left _ (expSeries_mono h))
    (expRows_ordered expRows_meet) (meets_of_expMeets expRows_meet) le_rfl (Nat.zero_le _)
    (Nat.mul_le_mul_right _ hxy)

/-! ### The words of the exponential -/

/-- One row of the exponential's table on words. -/
def expStep (acc step : U256 × U256) : U256 × U256 :=
  if step.1 ≤ acc.1 then (acc.1 - step.1, acc.2 * step.2 / one20) else acc

/-- One term of the exponential's series on words. -/
def expTermStep (x : U256) (acc : U256 × U256) (d : ℕ) : U256 × U256 :=
  (acc.1 * x / one20 / BitVec.ofNat 256 d, acc.2 + acc.1 * x / one20 / BitVec.ofNat 256 d)

/-- No factor wraps a product of at most `bound`. -/
def FactorsFit : List (ℕ × ℕ) → ℕ → Prop
  | [], _ => True
  | row :: rows, bound => bound * row.2 < 2 ^ 256 ∧ FactorsFit rows (bound * row.2 / unit20)

instance decidableFactorsFit : ∀ rows bound, Decidable (FactorsFit rows bound)
  | [], _ => isTrue trivial
  | row :: rows, bound =>
      have := decidableFactorsFit rows (bound * row.2 / unit20)
      inferInstanceAs (Decidable (_ ∧ _))

lemma expSteps_fit : FactorsFit (tableRows expSteps) unit20 := by decide

/-- No term wraps at an argument of at most `x`, a term and a sum of at most the ones given. -/
def TermsFit (x : ℕ) : List ℕ → ℕ → ℕ → Prop
  | [], _, _ => True
  | d :: ds, term, sum =>
      (d < 2 ^ 256 ∧ term * x < 2 ^ 256 ∧ sum + term * x / unit20 / d < 2 ^ 256) ∧
        TermsFit x ds (term * x / unit20 / d) (sum + term * x / unit20 / d)

instance decidableTermsFit (x : ℕ) : ∀ ds term sum, Decidable (TermsFit x ds term sum)
  | [], _, _ => isTrue trivial
  | d :: ds, term, sum =>
      have := decidableTermsFit x ds (term * x / unit20 / d) (sum + term * x / unit20 / d)
      inferInstanceAs (Decidable (_ ∧ _))

/-- The last argument whose product fits a word. -/
def expLimit : ℕ := 94508647479160180554

lemma expProduct_limit : expProduct expLimit < 2 ^ 256 := by decide

lemma expTerms_limit :
    TermsFit (expLimit * 100) expDivisors (expLimit * 100) (unit20 + expLimit * 100) := by
  decide

/-- The rows on words compute the reduction. -/
lemma expFold_toNat (steps : List (U256 × U256)) :
    ∀ (x product : U256) (bound : ℕ), product.toNat ≤ bound →
      FactorsFit (tableRows steps) bound → ExpMeets (tableRows steps) →
        expReduction.value (tableRows steps) product.toNat x.toNat =
            (steps.foldl expStep (x, product)).2.toNat *
              expSeries (steps.foldl expStep (x, product)).1.toNat ∧
          (steps.foldl expStep (x, product)).1.toNat ≤ x.toNat := by
  induction steps with
  | nil => exact fun _ _ _ _ _ _ => ⟨rfl, le_rfl⟩
  | cons step steps ih =>
      intro x product bound hproduct hfit hmeets
      rcases hfit with ⟨hfactor, hfit⟩
      rcases hmeets with ⟨⟨-, hunit, -⟩, hmeets⟩
      have hle : product.toNat * step.2.toNat ≤ bound * step.2.toNat :=
        Nat.mul_le_mul_right _ hproduct
      rw [List.foldl_cons, expStep]
      by_cases hx : step.1 ≤ x
      · have hproduct' : (product * step.2 / one20).toNat =
            product.toNat * step.2.toNat / unit20 := by
          rw [BitVec.toNat_udiv, toNat_mul_of_lt (lt_of_le_of_lt hle hfactor), one20_toNat]
        have hx' : (x - step.1).toNat = x.toNat - step.1.toNat := toNat_sub_of_le (le_iff.mp hx)
        have hrest := ih (x - step.1) (product * step.2 / one20) (bound * step.2.toNat / unit20)
          (hproduct'.trans_le (Nat.div_le_div_right hle)) hfit hmeets
        rw [if_pos hx, tableRows, List.map_cons,
          Reduction.value_of_le (R := expReduction) (le_iff.mp hx)]
        refine ⟨?_, hrest.2.trans (hx'.trans_le (Nat.sub_le _ _))⟩
        rw [← hrest.1, hproduct', hx']
        rfl
      · have hlt : x.toNat < step.1.toNat := not_le.mp fun h0 => hx (le_iff.mpr h0)
        have hgrow : bound ≤ bound * step.2.toNat / unit20 := by
          rw [Nat.le_div_iff_mul_le unit20_pos]
          exact Nat.mul_le_mul_left _ hunit
        rw [if_neg hx, tableRows, List.map_cons, Reduction.value_of_lt (R := expReduction) hlt]
        exact ih x product _ (hproduct.trans hgrow) hfit hmeets

/-- The series on words, at arguments up to a limit whose terms fit. -/
lemma expTermFold_toNat {x : U256} {limit : ℕ} (hx : x.toNat ≤ limit) (ds : List ℕ) :
    ∀ (acc : U256 × U256) {term sum : ℕ}, acc.1.toNat ≤ term → acc.2.toNat ≤ sum →
      TermsFit limit ds term sum →
        (ds.foldl (expTermStep x) acc).2.toNat = acc.2.toNat + expTerms x.toNat ds acc.1.toNat := by
  induction ds with
  | nil => exact fun _ _ _ _ _ _ => rfl
  | cons d ds ih =>
      intro acc term sum hterm hsum hfit
      rcases hfit with ⟨⟨hd, hmul, hadd⟩, hfit⟩
      have hproduct : acc.1.toNat * x.toNat ≤ term * limit := Nat.mul_le_mul hterm hx
      have hvalue : (acc.1 * x / one20 / BitVec.ofNat 256 d).toNat =
          acc.1.toNat * x.toNat / unit20 / d := by
        rw [BitVec.toNat_udiv, BitVec.toNat_udiv,
          toNat_mul_of_lt (lt_of_le_of_lt hproduct hmul), one20_toNat, BitVec.toNat_ofNat,
          Nat.mod_eq_of_lt hd]
      have hnext : acc.1.toNat * x.toNat / unit20 / d ≤ term * limit / unit20 / d :=
        Nat.div_le_div_right (Nat.div_le_div_right hproduct)
      have hsum' : (acc.2 + acc.1 * x / one20 / BitVec.ofNat 256 d).toNat =
          acc.2.toNat + acc.1.toNat * x.toNat / unit20 / d := by
        rw [toNat_add_of_lt, hvalue]
        rw [hvalue]
        exact lt_of_le_of_lt (Nat.add_le_add hsum hnext) hadd
      rw [List.foldl_cons, ih (expTermStep x acc d) (hvalue.trans_le hnext)
        (hsum'.trans_le (Nat.add_le_add hsum hnext)) hfit]
      change (acc.2 + acc.1 * x / one20 / BitVec.ofNat 256 d).toNat +
        expTerms x.toNat ds (acc.1 * x / one20 / BitVec.ofNat 256 d).toNat = _
      rw [hsum', hvalue, expTerms, Nat.add_assoc]

/-- The limit is below the arguments that the two largest steps of the exponential take. -/
lemma expLimit_lt :
    expLimit < lnX1.toNat ∧ expLimit < lnX0.toNat ∧ expLimit < maxNaturalExponent.toNat := by
  decide

/-- Up to the limit no word of the exponential wraps, and its product is the one of the reduction. -/
lemma logExpExp_toNat {x : U256} (hx : x.toNat ≤ expLimit) :
    (logExpExp x).toNat = expProduct x.toNat / unit20 / 100 := by
  have hmax : ¬ maxNaturalExponent < x := fun h =>
    absurd (lt_iff.mp h) (not_lt.mpr (hx.trans expLimit_lt.2.2.le))
  have hx0 : ¬ lnX0 ≤ x := fun h =>
    absurd (le_iff.mp h) (not_le.mpr (lt_of_le_of_lt hx expLimit_lt.2.1))
  have hx1 : ¬ lnX1 ≤ x := fun h =>
    absurd (le_iff.mp h) (not_le.mpr (lt_of_le_of_lt hx expLimit_lt.1))
  have hscaled : (x * 100).toNat = x.toNat * 100 := by
    refine toNat_mul_of_lt (lt_of_le_of_lt (Nat.mul_le_mul_right _ hx) ?_)
    decide
  unfold logExpExp
  rw [if_neg hmax, if_neg hx0, if_neg hx1]
  change ((expSteps.foldl expStep (x * 100, one20)).2 *
    (expDivisors.foldl (expTermStep (expSteps.foldl expStep (x * 100, one20)).1)
      ((expSteps.foldl expStep (x * 100, one20)).1,
        one20 + (expSteps.foldl expStep (x * 100, one20)).1)).2 / one20 * 1 / 100).toNat = _
  have hfold := expFold_toNat expSteps (x * 100) one20 unit20 one20_toNat.le expSteps_fit expRows_meet
  generalize expSteps.foldl expStep (x * 100, one20) = s at hfold ⊢
  rcases hfold with ⟨hvalue, hrest⟩
  rw [hscaled] at hvalue hrest
  have hleft : s.1.toNat ≤ expLimit * 100 := hrest.trans (Nat.mul_le_mul_right _ hx)
  have hstart : (one20 + s.1).toNat = unit20 + s.1.toNat := by
    rw [toNat_add_of_lt, one20_toNat]
    rw [one20_toNat]
    refine lt_of_le_of_lt (Nat.add_le_add_left hleft _) ?_
    decide
  have hseries : (expDivisors.foldl (expTermStep s.1) (s.1, one20 + s.1)).2.toNat =
      expSeries s.1.toNat := by
    rw [expTermFold_toNat hleft expDivisors (s.1, one20 + s.1) hleft
      (hstart.trans_le (Nat.add_le_add_left hleft _)) expTerms_limit]
    exact congrArg (· + _) hstart
  have hproduct : s.2.toNat * expSeries s.1.toNat = expProduct x.toNat := by
    rw [← hvalue, one20_toNat, expProduct]
  have hfits : expProduct x.toNat < 2 ^ 256 :=
    lt_of_le_of_lt (expProduct_mono hx) expProduct_limit
  have hone : ∀ w : U256, w * 1 = w := fun w => BitVec.mul_one w
  rw [hone, BitVec.toNat_udiv, BitVec.toNat_udiv, toNat_mul_of_lt, hseries, hproduct, one20_toNat]
  · rfl
  · rwa [hseries, hproduct]

/-- Up to the limit the exponential keeps the order. -/
lemma logExpExp_mono {x y : U256} (hxy : x ≤ y) (hy : y.toNat ≤ expLimit) :
    logExpExp x ≤ logExpExp y := by
  have hle : x.toNat ≤ y.toNat := le_iff.mp hxy
  rw [le_iff, logExpExp_toNat hy, logExpExp_toNat (hle.trans hy)]
  exact Nat.div_le_div_right (Nat.div_le_div_right (expProduct_mono hle))

end Exponential

section Logarithm

/-- The terms of the series after the first. -/
def arctanhTerms (unit zSquared : ℕ) : List ℕ → ℕ → ℕ
  | [], _ => 0
  | d :: ds, num =>
      num * zSquared / unit / d + arctanhTerms unit zSquared ds (num * zSquared / unit)

lemma arctanhTerms_mono {unit zSquared zSquared' : ℕ} (hz : zSquared ≤ zSquared') (ds : List ℕ) :
    ∀ {num num' : ℕ}, num ≤ num' →
      arctanhTerms unit zSquared ds num ≤ arctanhTerms unit zSquared' ds num' := by
  induction ds with
  | nil => exact fun _ => le_rfl
  | cons d ds ih =>
      intro num num' hnum
      have hnext : num * zSquared / unit ≤ num' * zSquared' / unit :=
        Nat.div_le_div_right (Nat.mul_le_mul hnum hz)
      exact Nat.add_le_add (Nat.div_le_div_right hnext) (ih hnext)

lemma arctanhTerms_zero (unit zSquared : ℕ) (ds : List ℕ) : arctanhTerms unit zSquared ds 0 = 0 := by
  induction ds with
  | nil => rfl
  | cons d ds ih => simp [arctanhTerms, ih]

def arctanhNat (unit : ℕ) (ds : List ℕ) (z : ℕ) : ℕ := z + arctanhTerms unit (z * z / unit) ds z

lemma arctanhNat_mono {unit z z' : ℕ} (ds : List ℕ) (hz : z ≤ z') :
    arctanhNat unit ds z ≤ arctanhNat unit ds z' :=
  Nat.add_le_add hz (arctanhTerms_mono (Nat.div_le_div_right (Nat.mul_le_mul hz hz)) ds hz)

/-- The argument of the series, `(x - 1) / (x + 1)`. -/
def lnRatio (unit x : ℕ) : ℕ := (x - unit) * unit / (x + unit)

lemma lnRatio_le (unit x : ℕ) : lnRatio unit x ≤ unit := by
  refine Nat.div_le_of_le_mul ?_
  exact Nat.mul_le_mul_right _ (Nat.sub_le_sub_right (Nat.le_add_right x unit) unit |>.trans (by omega))

lemma lnRatio_mono {unit x y : ℕ} (hunit : 0 < unit) (hx : unit ≤ x) (hxy : x ≤ y) :
    lnRatio unit x ≤ lnRatio unit y := by
  have hfloor : lnRatio unit x * (x + unit) ≤ (x - unit) * unit := Nat.div_mul_le_self _ _
  have hmore : lnRatio unit x * (y - x) ≤ unit * (y - x) := Nat.mul_le_mul_right _ (lnRatio_le _ _)
  refine (Nat.le_div_iff_mul_le (by omega)).mpr ?_
  calc lnRatio unit x * (y + unit)
      = lnRatio unit x * (x + unit) + lnRatio unit x * (y - x) := by
        rw [← Nat.mul_add]
        congr 1
        omega
    _ ≤ (x - unit) * unit + unit * (y - x) := Nat.add_le_add hfloor hmore
    _ = (y - unit) * unit := by
        rw [Nat.mul_comm unit, ← Nat.add_mul]
        congr 1
        omega

/-- Twice the series, the logarithm of an argument near one. -/
def lnSeries (unit : ℕ) (ds : List ℕ) (x : ℕ) : ℕ := arctanhNat unit ds (lnRatio unit x) * 2

lemma lnSeries_mono {unit x y : ℕ} (ds : List ℕ) (hunit : 0 < unit) (hx : unit ≤ x) (hxy : x ≤ y) :
    lnSeries unit ds x ≤ lnSeries unit ds y :=
  Nat.mul_le_mul_right _ (arctanhNat_mono ds (lnRatio_mono hunit hx hxy))

lemma lnSeries_unit (unit : ℕ) (ds : List ℕ) : lnSeries unit ds unit = 0 := by
  simp [lnSeries, lnRatio, arctanhNat, arctanhTerms_zero]

def lnDivisors : List ℕ := [3, 5, 7, 9, 11]

/-- The steps of the logarithm: a row divides its factor out and adds its threshold. -/
def lnReduction : Reduction (ℕ × ℕ) ℕ where
  threshold row := row.2
  reduce row x := x * unit20 / row.2
  next row sum := sum + row.1
  base sum x := sum + lnSeries unit20 lnDivisors x

lemma lnReduction_add (rows : List (ℕ × ℕ)) :
    ∀ sum x, lnReduction.value rows sum x = sum + lnReduction.value rows 0 x := by
  induction rows with
  | nil =>
      intro sum x
      change sum + lnSeries unit20 lnDivisors x = sum + (0 + lnSeries unit20 lnDivisors x)
      rw [Nat.zero_add]
  | cons row rows ih =>
      intro sum x
      by_cases hx : row.2 ≤ x
      · rw [Reduction.value_of_le (R := lnReduction) hx, Reduction.value_of_le (R := lnReduction) hx,
          ih (lnReduction.next row sum), ih (lnReduction.next row 0)]
        change sum + row.1 + _ = sum + (0 + row.1 + _)
        omega
      · rw [Reduction.value_of_lt (R := lnReduction) (not_le.mp hx),
          Reduction.value_of_lt (R := lnReduction) (not_le.mp hx)]
        exact ih sum x

/-- A row's constant is at least the logarithm right below its factor. -/
def LnMeets : List (ℕ × ℕ) → Prop
  | [] => True
  | row :: rows => (unit20 < row.2 ∧ lnReduction.value rows 0 (row.2 - 1) ≤ row.1) ∧ LnMeets rows

instance decidableLnMeets : ∀ rows, Decidable (LnMeets rows)
  | [] => isTrue trivial
  | _ :: rows =>
      have := decidableLnMeets rows
      inferInstanceAs (Decidable (_ ∧ _))

lemma lnRows_meet : LnMeets (tableRows lnSteps) := by decide

/-- The logarithm of one. -/
lemma lnReduction_unit {rows : List (ℕ × ℕ)} (h : LnMeets rows) (sum : ℕ) :
    lnReduction.value rows sum unit20 = sum := by
  induction rows with
  | nil => exact congrArg (sum + ·) (lnSeries_unit unit20 lnDivisors)
  | cons row rows ih =>
      rw [Reduction.value_of_lt (R := lnReduction) h.1.1]
      exact ih h.2

lemma meets_of_lnMeets {rows : List (ℕ × ℕ)} (h : LnMeets rows) :
    lnReduction.Meets (fun _ => True) rows := by
  induction rows with
  | nil => trivial
  | cons row rows ih =>
      rcases h with ⟨⟨hunit, hbelow⟩, hrest⟩
      refine ⟨fun sum _ => ⟨trivial, ?_⟩, ih hrest⟩
      have hone : lnReduction.reduce row row.2 = unit20 :=
        Nat.mul_div_cancel_left _ (unit20_pos.trans hunit)
      calc lnReduction.value rows sum (row.2 - 1)
          = sum + lnReduction.value rows 0 (row.2 - 1) := lnReduction_add rows sum _
        _ ≤ sum + row.1 := Nat.add_le_add_left hbelow _
        _ = lnReduction.value rows (sum + row.1) unit20 := (lnReduction_unit hrest _).symm
        _ = lnReduction.value rows (sum + row.1) (lnReduction.reduce row row.2) := by rw [hone]

lemma lnRow_ordered {row : ℕ × ℕ} (hunit : unit20 < row.2) : lnReduction.RowOrdered unit20 row := by
  have hpos : 0 < row.2 := unit20_pos.trans hunit
  refine ⟨hunit, fun x hx => ?_, fun x y _ hxy => ?_⟩
  · change unit20 ≤ x * unit20 / row.2
    rw [Nat.le_div_iff_mul_le hpos, Nat.mul_comm]
    exact Nat.mul_le_mul_right _ hx
  · exact Nat.div_le_div_right (Nat.mul_le_mul_right _ hxy)

lemma lnRows_ordered {rows : List (ℕ × ℕ)} (h : LnMeets rows) :
    ∀ row ∈ rows, lnReduction.RowOrdered unit20 row := by
  induction rows with
  | nil => exact fun _ hmem => absurd hmem List.not_mem_nil
  | cons row rows ih =>
      exact List.forall_mem_cons.mpr ⟨lnRow_ordered h.1.1, ih h.2⟩

/-- The logarithm of an argument with eighteen decimals, before its last division. -/
def lnValue (a : ℕ) : ℕ := lnReduction.value (tableRows lnSteps) 0 (a * 100)

lemma lnValue_mono {a b : ℕ} (ha : one18.toNat ≤ a) (hab : a ≤ b) : lnValue a ≤ lnValue b := by
  refine Reduction.value_mono (fun sum _ x y hx hxy => ?_) (lnRows_ordered lnRows_meet)
    (meets_of_lnMeets lnRows_meet) trivial ?_ (Nat.mul_le_mul_right _ hab)
  · exact Nat.add_le_add_left (lnSeries_mono _ unit20_pos hx hxy) sum
  · exact le_of_eq_of_le (by decide : unit20 = one18.toNat * 100) (Nat.mul_le_mul_right _ ha)

/-! ### The words of the logarithm -/

/-- One term of the series on words. -/
def arctanhStep (zSquared unit : U256) (acc : U256 × U256) (d : ℕ) : U256 × U256 :=
  (acc.1 * zSquared / unit, acc.2 + acc.1 * zSquared / unit / BitVec.ofNat 256 d)

lemma arctanhFold_toNat {zSquared unit : U256} (hz : zSquared.toNat ≤ unit.toNat)
    (hunit : unit.toNat * unit.toNat < 2 ^ 256) (ds : List ℕ) :
    ∀ acc : U256 × U256, acc.1.toNat ≤ unit.toNat →
      acc.2.toNat + unit.toNat * ds.length < 2 ^ 256 → (∀ d ∈ ds, d < 2 ^ 256) →
        (ds.foldl (arctanhStep zSquared unit) acc).2.toNat =
          acc.2.toNat + arctanhTerms unit.toNat zSquared.toNat ds acc.1.toNat := by
  induction ds with
  | nil => exact fun _ _ _ _ => rfl
  | cons d ds ih =>
      intro acc hnum hsum hds
      rcases List.forall_mem_cons.mp hds with ⟨hd, hds⟩
      rw [List.length_cons, Nat.mul_succ] at hsum
      have hproduct : acc.1.toNat * zSquared.toNat ≤ unit.toNat * unit.toNat := Nat.mul_le_mul hnum hz
      have hnext : (acc.1 * zSquared / unit).toNat = acc.1.toNat * zSquared.toNat / unit.toNat := by
        rw [BitVec.toNat_udiv, toNat_mul_of_lt (lt_of_le_of_lt hproduct hunit)]
      have hsmall : acc.1.toNat * zSquared.toNat / unit.toNat ≤ unit.toNat :=
        Nat.div_le_of_le_mul hproduct
      have hterm : (acc.1 * zSquared / unit / BitVec.ofNat 256 d).toNat =
          acc.1.toNat * zSquared.toNat / unit.toNat / d := by
        rw [BitVec.toNat_udiv, hnext, BitVec.toNat_ofNat, Nat.mod_eq_of_lt hd]
      have hle : acc.1.toNat * zSquared.toNat / unit.toNat / d ≤ unit.toNat :=
        (Nat.div_le_self _ _).trans hsmall
      have hadd : (acc.2 + acc.1 * zSquared / unit / BitVec.ofNat 256 d).toNat =
          acc.2.toNat + acc.1.toNat * zSquared.toNat / unit.toNat / d := by
        rw [toNat_add_of_lt, hterm]
        rw [hterm]
        omega
      rw [List.foldl_cons, ih (arctanhStep zSquared unit acc d) (hnext.trans_le hsmall)
        (by change (acc.2 + acc.1 * zSquared / unit / BitVec.ofNat 256 d).toNat + _ < _; omega) hds]
      change (acc.2 + acc.1 * zSquared / unit / BitVec.ofNat 256 d).toNat +
        arctanhTerms unit.toNat zSquared.toNat ds (acc.1 * zSquared / unit).toNat = _
      rw [hadd, hnext, arctanhTerms, Nat.add_assoc]

lemma arctanhTerms_le {unit zSquared : ℕ} (hz : zSquared ≤ unit) (ds : List ℕ) :
    ∀ {num : ℕ}, num ≤ unit → arctanhTerms unit zSquared ds num ≤ unit * ds.length := by
  induction ds with
  | nil => exact fun _ => Nat.zero_le _
  | cons d ds ih =>
      intro num hnum
      have hnext : num * zSquared / unit ≤ unit := Nat.div_le_of_le_mul (Nat.mul_le_mul hnum hz)
      have hterm : num * zSquared / unit / d ≤ unit := (Nat.div_le_self _ _).trans hnext
      have hrest := ih hnext
      rw [arctanhTerms, List.length_cons, Nat.mul_succ]
      omega

/-- The series on words at an argument from one unit on. -/
lemma lnSeries_toNat {x unit : U256} (ds : List ℕ) (hx : unit ≤ x)
    (hscaled : (x.toNat - unit.toNat) * unit.toNat < 2 ^ 256)
    (hsum : x.toNat + unit.toNat < 2 ^ 256) (hunit : unit.toNat * unit.toNat < 2 ^ 256)
    (hseries : unit.toNat * (ds.length + 1) * 2 < 2 ^ 256) (hds : ∀ d ∈ ds, d < 2 ^ 256) :
    (arctanhSeries ((x - unit) * unit / (x + unit)) unit ds * 2).toNat =
        lnSeries unit.toNat ds x.toNat ∧
      lnSeries unit.toNat ds x.toNat ≤ unit.toNat * (ds.length + 1) * 2 := by
  have hsub : (x - unit).toNat = x.toNat - unit.toNat := toNat_sub_of_le (le_iff.mp hx)
  have hratio : ((x - unit) * unit / (x + unit)).toNat = lnRatio unit.toNat x.toNat := by
    rw [BitVec.toNat_udiv, toNat_mul_of_lt (by rwa [hsub]), hsub, toNat_add_of_lt hsum, lnRatio]
  generalize (x - unit) * unit / (x + unit) = z at hratio
  have hz : z.toNat ≤ unit.toNat := hratio.trans_le (lnRatio_le _ _)
  have hsquare : (z * z / unit).toNat = z.toNat * z.toNat / unit.toNat := by
    rw [BitVec.toNat_udiv, toNat_mul_of_lt (lt_of_le_of_lt (Nat.mul_le_mul hz hz) hunit)]
  have hsquare_le : z.toNat * z.toNat / unit.toNat ≤ unit.toNat :=
    Nat.div_le_of_le_mul (Nat.mul_le_mul hz hz)
  have hterms := arctanhTerms_le hsquare_le ds hz
  have hsucc : unit.toNat * (ds.length + 1) = unit.toNat * ds.length + unit.toNat := Nat.mul_succ _ _
  have hfold : (arctanhSeries z unit ds).toNat = arctanhNat unit.toNat ds z.toNat := by
    change (ds.foldl (arctanhStep (z * z / unit) unit) (z, z)).2.toNat = _
    rw [arctanhFold_toNat (hsquare.trans_le hsquare_le) hunit ds (z, z) hz
      (by change z.toNat + _ < _; omega) hds, hsquare]
    rfl
  have hbound : arctanhNat unit.toNat ds z.toNat ≤ unit.toNat * (ds.length + 1) := by
    rw [arctanhNat]
    omega
  rw [lnSeries, ← hratio]
  refine ⟨?_, Nat.mul_le_mul_right _ hbound⟩
  rw [toNat_mul_of_lt, hfold]
  · rfl
  · rw [hfold]
    exact lt_of_le_of_lt (Nat.mul_le_mul_right 2 hbound) hseries

/-- Every row of the logarithm's table on words. -/
def lnStep (acc step : U256 × U256) : U256 × U256 :=
  if step.2 ≤ acc.1 then (acc.1 * one20 / step.2, acc.2 + step.1) else acc

/-- The constants of the rows together. -/
def rowsTotal (rows : List (ℕ × ℕ)) : ℕ := (rows.map Prod.fst).sum

/-- The rows on words compute the reduction. -/
lemma lnFold_toNat (steps : List (U256 × U256)) :
    ∀ (x sum : U256) (bound : ℕ), x.toNat ≤ bound → bound * unit20 < 2 ^ 256 → unit20 ≤ x.toNat →
      sum.toNat + rowsTotal (tableRows steps) < 2 ^ 256 → LnMeets (tableRows steps) →
        lnReduction.value (tableRows steps) sum.toNat x.toNat =
            (steps.foldl lnStep (x, sum)).2.toNat +
              lnSeries unit20 lnDivisors (steps.foldl lnStep (x, sum)).1.toNat ∧
          unit20 ≤ (steps.foldl lnStep (x, sum)).1.toNat ∧
            (steps.foldl lnStep (x, sum)).1.toNat ≤ bound ∧
              (steps.foldl lnStep (x, sum)).2.toNat ≤ sum.toNat + rowsTotal (tableRows steps) := by
  induction steps with
  | nil => exact fun _ _ _ hx _ hlow _ _ => ⟨rfl, hlow, hx, le_rfl⟩
  | cons step steps ih =>
      intro x sum bound hx hbound hlow htotal hmeets
      rcases hmeets with ⟨⟨hunit, -⟩, hmeets⟩
      have hrows : rowsTotal (tableRows (step :: steps)) =
          step.1.toNat + rowsTotal (tableRows steps) := rfl
      have hpos : 0 < step.2.toNat := unit20_pos.trans hunit
      rw [hrows] at htotal ⊢
      rw [List.foldl_cons, lnStep]
      by_cases hle : step.2 ≤ x
      · have hx' : (x * one20 / step.2).toNat = x.toNat * unit20 / step.2.toNat := by
          rw [BitVec.toNat_udiv, toNat_mul_of_lt, one20_toNat]
          rw [one20_toNat]
          exact lt_of_le_of_lt (Nat.mul_le_mul_right _ hx) hbound
        have hsum' : (sum + step.1).toNat = sum.toNat + step.1.toNat := by
          refine toNat_add_of_lt (lt_of_le_of_lt ?_ htotal)
          omega
        have hdown : x.toNat * unit20 / step.2.toNat ≤ x.toNat :=
          Nat.div_le_of_le_mul (Nat.mul_comm step.2.toNat _ ▸ Nat.mul_le_mul_left _ hunit.le)
        have hstill : unit20 ≤ x.toNat * unit20 / step.2.toNat := by
          rw [Nat.le_div_iff_mul_le hpos, Nat.mul_comm]
          exact Nat.mul_le_mul_right _ (le_iff.mp hle)
        have hrest := ih (x * one20 / step.2) (sum + step.1) bound
          (hx'.trans_le (hdown.trans hx)) hbound (hstill.trans_eq hx'.symm) (by omega) hmeets
        rw [if_pos hle, tableRows, List.map_cons,
          Reduction.value_of_le (R := lnReduction) (le_iff.mp hle)]
        refine ⟨?_, hrest.2.1, hrest.2.2.1, hrest.2.2.2.trans (by omega)⟩
        rw [← hrest.1, hsum', hx']
        rfl
      · have hlt : x.toNat < step.2.toNat := not_le.mp fun h => hle (le_iff.mpr h)
        have hrest := ih x sum bound hx hbound hlow (by omega) hmeets
        rw [if_neg hle, tableRows, List.map_cons, Reduction.value_of_lt (R := lnReduction) hlt]
        exact ⟨hrest.1, hrest.2.1, hrest.2.2.1, hrest.2.2.2.trans (by omega)⟩

/-- Below `a1` the logarithm is the one of the reduction. -/
lemma lnFromOne_toNat {a : U256} (hone : one18 ≤ a) (ha : a < lnA1) :
    (lnFromOne a).toNat = lnValue a.toNat / 100 := by
  have ha1 : ¬ lnA1 ≤ a := BitVec.not_le.mpr ha
  have ha0 : ¬ lnA0 ≤ a := fun h =>
    absurd ((by decide : lnA1.toNat ≤ lnA0.toNat).trans (le_iff.mp h)) (not_le.mpr (lt_iff.mp ha))
  have hscaled : (a * 100).toNat = a.toNat * 100 := by
    refine toNat_mul_of_lt (lt_of_le_of_lt (Nat.mul_le_mul_right _ (lt_iff.mp ha).le) ?_)
    decide
  unfold lnFromOne
  rw [if_neg ha0]
  dsimp only
  rw [if_neg ha1]
  change (((lnSteps.foldl lnStep (a * 100, 0 * 100)).2 +
    arctanhSeries (((lnSteps.foldl lnStep (a * 100, 0 * 100)).1 - one20) * one20 /
      ((lnSteps.foldl lnStep (a * 100, 0 * 100)).1 + one20)) one20 lnDivisors * 2) / 100).toNat = _
  have hfold := lnFold_toNat lnSteps (a * 100) (0 * 100) (lnA1.toNat * 100)
    (hscaled.trans_le (Nat.mul_le_mul_right _ (lt_iff.mp ha).le)) (by decide)
    (hscaled ▸ le_of_eq_of_le (by decide : unit20 = one18.toNat * 100)
      (Nat.mul_le_mul_right _ (le_iff.mp hone)))
    (by decide) lnRows_meet
  generalize lnSteps.foldl lnStep (a * 100, 0 * 100) = s at hfold ⊢
  rcases hfold with ⟨hvalue, hlow, hhigh, htotal⟩
  have hseries := lnSeries_toNat (x := s.1) lnDivisors
    (le_iff.mpr (one20_toNat.trans_le hlow))
    (by rw [one20_toNat]
        exact lt_of_le_of_lt (Nat.mul_le_mul_right _ ((Nat.sub_le _ _).trans hhigh)) (by decide))
    (by rw [one20_toNat]
        exact lt_of_le_of_lt (Nat.add_le_add_right hhigh _) (by decide))
    (by decide) (by decide) (by decide)
  rw [one20_toNat] at hseries
  have hvalue' : s.2.toNat + lnSeries unit20 lnDivisors s.1.toNat = lnValue a.toNat := by
    rw [← hvalue, hscaled]
    rfl
  rw [BitVec.toNat_udiv, toNat_add_of_lt, hseries.1, hvalue']
  · rfl
  · rw [hseries.1]
    refine lt_of_le_of_lt (Nat.add_le_add htotal hseries.2) ?_
    decide

def ln36Divisors : List ℕ := [3, 5, 7, 9, 11, 13, 15]

/-- The logarithm near one, with eighteen more decimals. -/
def ln36Value (a : ℕ) : ℕ := lnSeries one36.toNat ln36Divisors (a * one18.toNat)

lemma ln36_toNat {a : U256} (hone : one18 ≤ a) (ha : a < ln36UpperBound) :
    (ln36 a).toNat = ln36Value a.toNat := by
  have hup : a.toNat ≤ ln36UpperBound.toNat := (lt_iff.mp ha).le
  have hx : (a * one18).toNat = a.toNat * one18.toNat := by
    refine toNat_mul_of_lt (lt_of_le_of_lt (Nat.mul_le_mul_right _ hup) ?_)
    decide
  have hle : (a * one18).toNat ≤ ln36UpperBound.toNat * one18.toNat :=
    hx.trans_le (Nat.mul_le_mul_right _ hup)
  have hlow : one36 ≤ a * one18 := by
    rw [le_iff, hx]
    exact le_of_eq_of_le (by decide : one36.toNat = one18.toNat * one18.toNat)
      (Nat.mul_le_mul_right _ (le_iff.mp hone))
  have hseries := lnSeries_toNat ln36Divisors hlow
    (lt_of_le_of_lt (Nat.mul_le_mul_right _ (Nat.sub_le_sub_right hle _)) (by decide))
    (lt_of_le_of_lt (Nat.add_le_add_right hle _) (by decide))
    (by decide) (by decide) (by decide)
  rw [ln36Value, ← hx]
  exact hseries.1

lemma ln36Value_mono {a b : ℕ} (ha : one18.toNat ≤ a) (hab : a ≤ b) : ln36Value a ≤ ln36Value b := by
  refine lnSeries_mono _ (by decide) ?_ (Nat.mul_le_mul_right _ hab)
  exact le_of_eq_of_le (by decide : one36.toNat = one18.toNat * one18.toNat)
    (Nat.mul_le_mul_right _ ha)

/-- The two logarithms meet in order where one takes over from the other. -/
lemma ln36Value_le_lnValue :
    ln36Value (ln36UpperBound.toNat - 1) / one18.toNat ≤ lnValue ln36UpperBound.toNat / 100 := by
  decide

lemma logExpLn_near {a : U256} (hone : one18 ≤ a) (ha : a < ln36UpperBound) :
    (logExpLn a).toNat = ln36Value a.toNat / one18.toNat := by
  have hlow : ln36LowerBound < a :=
    lt_iff.mpr (lt_of_lt_of_le (by decide) (le_iff.mp hone))
  have hzero : ¬ (a = 0 ∨ a < one18) := by
    rintro (rfl | h)
    · exact absurd hone (by decide)
    · exact absurd hone (BitVec.not_le.mpr h)
  rw [logExpLn, if_neg hzero, if_pos ⟨hlow, ha⟩, BitVec.toNat_udiv, ln36_toNat hone ha]

lemma logExpLn_far {a : U256} (hup : ln36UpperBound ≤ a) (ha : a < lnA1) :
    (logExpLn a).toNat = lnValue a.toNat / 100 := by
  have hone : one18 ≤ a := BitVec.le_trans (by decide) hup
  have hzero : ¬ (a = 0 ∨ a < one18) := by
    rintro (rfl | h)
    · exact absurd hone (by decide)
    · exact absurd hone (BitVec.not_le.mpr h)
  rw [logExpLn, if_neg hzero, if_neg fun h => absurd hup (BitVec.not_le.mpr h.2), lnFromOne_toNat hone ha]

/-- Below `a1` the logarithm keeps the order. -/
lemma logExpLn_mono {a b : U256} (hone : one18 ≤ a) (hab : a ≤ b) (hb : b < lnA1) :
    logExpLn a ≤ logExpLn b := by
  have hle : a.toNat ≤ b.toNat := le_iff.mp hab
  rw [le_iff]
  by_cases hup : ln36UpperBound ≤ b
  · rw [logExpLn_far hup hb]
    by_cases hnear : a < ln36UpperBound
    · rw [logExpLn_near hone hnear]
      calc ln36Value a.toNat / one18.toNat
          ≤ ln36Value (ln36UpperBound.toNat - 1) / one18.toNat :=
            Nat.div_le_div_right (ln36Value_mono (le_iff.mp hone)
              (Nat.le_sub_one_of_lt (lt_iff.mp hnear)))
        _ ≤ lnValue ln36UpperBound.toNat / 100 := ln36Value_le_lnValue
        _ ≤ lnValue b.toNat / 100 :=
            Nat.div_le_div_right (lnValue_mono (by decide) (le_iff.mp hup))
    · have ha1 : a < lnA1 := lt_iff.mpr (lt_of_le_of_lt hle (lt_iff.mp hb))
      rw [logExpLn_far (BitVec.not_lt.mp hnear) ha1]
      exact Nat.div_le_div_right (lnValue_mono (le_iff.mp hone) hle)
  · have hb' : b < ln36UpperBound := BitVec.not_le.mp hup
    have ha' : a < ln36UpperBound := lt_iff.mpr (lt_of_le_of_lt hle (lt_iff.mp hb'))
    rw [logExpLn_near (BitVec.le_trans hone hab) hb', logExpLn_near hone ha']
    exact Nat.div_le_div_right (ln36Value_mono (le_iff.mp hone) hle)

end Logarithm

/-! ### Where the order ends -/

/-- A function of a word keeps the order between two words. -/
def OrderPreservingOn (f : U256 → U256) (low high : U256) : Prop :=
  ∀ a b, low ≤ a → a ≤ b → b ≤ high → f a ≤ f b

/-- A function of a word moves at a switch as little as between neighbours of the same branch: by one, or by a
part in `10^17`. -/
def NoJumpAt (f : U256 → U256) (switch : U256) : Prop :=
  (f switch).toNat ≤ (f (switch - 1)).toNat + (f (switch - 1)).toNat / 10 ^ 17 + 1

lemma logExpLn_jumps : ¬ NoJumpAt logExpLn lnA1 := by
  unfold NoJumpAt
  decide

lemma logExpExp_falls :
    logExpExp (BitVec.ofNat 256 (expLimit + 1)) < logExpExp (BitVec.ofNat 256 expLimit) := by
  decide

/-- Past `a1` the quotient by it leaves the reduction with an argument below one. -/
lemma logExpLn_falls : logExpLn (5 * lnA1) < logExpLn (5 * lnA1 - 1) := by decide

/-- The logarithm keeps the order, without a jump, below `a1` and no further; the exponential does up to the last
argument whose product fits a word. -/
theorem logExp_ordered_iff (b c : U256) :
    (OrderPreservingOn logExpLn one18 b ∧ (∀ s ∈ [lnA0, lnA1], s ≤ b → NoJumpAt logExpLn s) ↔
      b < lnA1) ∧
    (OrderPreservingOn logExpExp 0 c ∧ (∀ s ∈ [lnX0, lnX1], s ≤ c → NoJumpAt logExpExp s) ↔
      c.toNat ≤ expLimit) := by
  refine ⟨⟨?_, fun hb => ⟨?_, ?_⟩⟩, ⟨?_, fun hc => ⟨?_, ?_⟩⟩⟩
  · rintro ⟨-, hjump⟩
    by_contra hb
    exact logExpLn_jumps (hjump lnA1 (by simp) (BitVec.not_lt.mp hb))
  · intro x y hx hxy hy
    exact logExpLn_mono hx hxy (lt_iff.mpr (lt_of_le_of_lt (le_iff.mp hy) (lt_iff.mp hb)))
  · intro s hs hle
    have hlow : lnA1.toNat ≤ s.toNat := by
      rcases List.mem_pair.mp hs with rfl | rfl
      · decide
      · exact le_rfl
    exact absurd (hlow.trans (le_iff.mp hle)) (not_le.mpr (lt_iff.mp hb))
  · rintro ⟨horder, -⟩
    by_contra hc
    have hnext : BitVec.ofNat 256 (expLimit + 1) ≤ c := le_iff.mpr (not_le.mp hc)
    have hle := horder (BitVec.ofNat 256 expLimit) _ (le_iff.mpr (Nat.zero_le _)) (by decide) hnext
    exact BitVec.not_lt.mpr hle logExpExp_falls
  · intro x y _ hxy hy
    exact logExpExp_mono hxy ((le_iff.mp hy).trans hc)
  · intro s hs hle
    have hlow : expLimit < s.toNat := by
      rcases List.mem_pair.mp hs with rfl | rfl
      · exact expLimit_lt.2.1
      · exact expLimit_lt.1
    exact absurd ((le_iff.mp hle).trans hc) (not_le.mpr hlow)

/-- Inside the admitted domains the exponential falls, and the logarithm jumps at `a1` and falls after it. -/
theorem logExp_disordered :
    (∃ x y, x ≤ y ∧ y ≤ maxNaturalExponent ∧ logExpExp y < logExpExp x) ∧
    (∃ a b, one18 ≤ a ∧ a ≤ b ∧ logExpLn b < logExpLn a) ∧ ¬ NoJumpAt logExpLn lnA1 :=
  ⟨⟨_, _, by decide, by decide, logExpExp_falls⟩,
    ⟨_, _, by decide, by decide, logExpLn_falls⟩, logExpLn_jumps⟩

end PolygonArb

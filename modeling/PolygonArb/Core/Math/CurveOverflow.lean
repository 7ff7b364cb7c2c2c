import PolygonArb.Core.Math.CurveCache
import PolygonArb.Lib.WrapTrace

/-!
# What the Curve iterations do when a product leaves a word

`get_d` and `get_y` over unbounded integers, with the trace of their intermediate values, beside the words of
the code.  Three operations of `get_d` are checked, and there the code gives no quote, as the chain would
revert.  Every other product wraps: a trace in which the first value too large for a word is one of those
tells where the code may go on with a wrong number (`curve_failsClosed`).
-/

namespace PolygonArb

open Word

/-! ### The iterations over unbounded integers -/

/-- `to_xp`: the balances scaled by their rates. -/
def exactScale : List ℕ → List ℕ → Traced (List ℕ)
  | balance :: balances, rate :: rates => do
      let product ← Traced.mul balance rate
      let xp ← exactScale balances rates
      pure (product / one18.toNat :: xp)
  | _, _ => pure []

def exactXp (balances rates : List ℕ) : Traced (List ℕ) :=
  if rates ≠ [] ∧ rates.length ≠ balances.length then Traced.refuse
  else if rates = [] then pure balances
  else exactScale balances rates

def exactSum : List ℕ → ℕ → Traced ℕ
  | [], s => pure s
  | x :: xs, s => do
      let s ← Traced.add s x
      exactSum xs s

def exactDProduct (n d : ℕ) : List ℕ → ℕ → Traced ℕ
  | [], dP => pure dP
  | x :: xs, dP => do
      let xn ← Traced.mul x n
      if xn = 0 then Traced.refuse
      else do
        let product ← Traced.mul dP d
        exactDProduct n d xs (product / xn)

/-- The distance of two numbers. -/
def exactDiff (a b : ℕ) : ℕ := if b < a then a - b else b - a

def exactDLoop (xp : List ℕ) (n annS annMinusP nPlus1 : ℕ) : ℕ → ℕ → Traced ℕ
  | 0, d => pure d
  | fuel + 1, dPrev => do
      let dP ← exactDProduct n dPrev xp dPrev
      let annProduct ← Traced.mulChecked annMinusP dPrev
      let hopTerm ← Traced.mulChecked nPlus1 dP
      let denominator ← Traced.addChecked (annProduct / aPrecision.toNat) hopTerm
      if denominator = 0 then Traced.refuse
      else do
        let hop ← Traced.mul dP n
        let total ← Traced.add annS hop
        let numerator ← Traced.mul total dPrev
        if exactDiff (numerator / denominator) dPrev ≤ 1 then pure (numerator / denominator)
        else exactDLoop xp n annS annMinusP nPlus1 fuel (numerator / denominator)

def exactD (xp : List ℕ) (a : ℕ) : Traced ℕ :=
  if a = 0 ∨ xp.length < 2 ∨ (xp.any fun x => x = 0) = true then Traced.refuse
  else do
    let n ← Traced.toWord xp.length
    let s ← exactSum xp 0
    if s = 0 then pure 0
    else do
      let ann ← Traced.mul a n
      if ann ≤ aPrecision.toNat then Traced.refuse
      else do
        let annS ← Traced.mul ann s
        let nPlus1 ← Traced.add n 1
        exactDLoop xp n (annS / aPrecision.toNat) (ann - aPrecision.toNat) nPlus1 curveMaxIterations s

def exactYAccumulate (x : ℕ) (i j : ℕ) (n d : ℕ) : ℕ → List ℕ → ℕ → ℕ → Traced (ℕ × ℕ)
  | _, [], s, c => pure (s, c)
  | k, xk :: rest, s, c =>
      if k = j then exactYAccumulate x i j n d (k + 1) rest s c
      else do
        let s ← Traced.add s (if k = i then x else xk)
        let vn ← Traced.mul (if k = i then x else xk) n
        if vn = 0 then Traced.refuse
        else do
          let product ← Traced.mul c d
          exactYAccumulate x i j n d (k + 1) rest s (product / vn)

def exactYLoop (b c d : ℕ) : ℕ → ℕ → Traced ℕ
  | 0, y => pure y
  | fuel + 1, yPrev => do
      let twice ← Traced.mul 2 yPrev
      let shifted ← Traced.add twice b
      if shifted - d = 0 then Traced.refuse
      else do
        let square ← Traced.mul yPrev yPrev
        let numerator ← Traced.add square c
        if exactDiff (numerator / (shifted - d)) yPrev ≤ 1 then pure (numerator / (shifted - d))
        else exactYLoop b c d fuel (numerator / (shifted - d))

def exactY (x : ℕ) (i j : ℕ) (xp : List ℕ) (a d : ℕ) : Traced ℕ := do
  let n ← Traced.toWord xp.length
  let ann ← Traced.mul a n
  if ann = 0 ∨ d = 0 then Traced.refuse
  else do
    let sc ← exactYAccumulate x i j n d 0 xp 0 d
    let cd ← Traced.mul sc.2 d
    let cdp ← Traced.mul cd aPrecision.toNat
    let annN ← Traced.mul ann n
    let dp ← Traced.mul d aPrecision.toNat
    let b ← Traced.add sc.1 (dp / ann)
    exactYLoop b (cdp / annN) d curveMaxIterations d

/-- Balances and rates to the invariant. -/
def exactCacheD (balances rates : List ℕ) (a : ℕ) : Traced ℕ := do
  let xp ← exactXp balances rates
  exactD xp a

/-! ### The code meets its traces -/

lemma exactDiff_toNat (a b : U256) : (absDiff a b).toNat = exactDiff a.toNat b.toNat := by
  unfold absDiff exactDiff
  by_cases h : b < a
  · rw [if_pos h, if_pos (lt_iff.mp h), toNat_sub_of_le (lt_iff.mp h).le]
  · have hle : ¬ b.toNat < a.toNat := fun h' => h (lt_iff.mpr h')
    rw [if_neg h, if_neg hle, toNat_sub_of_le (not_lt.mp hle)]

lemma meets_exactDProduct (n d : U256) (xs : List U256) :
    ∀ dP : U256, (exactDProduct n.toNat d.toNat (xs.map BitVec.toNat) dP.toNat).Meets
      (fun r => (getDProduct n d xs dP).map BitVec.toNat = r) (getDProduct n d xs dP = none) := by
  induction xs with
  | nil => exact fun dP => Traced.meets_pure rfl
  | cons x xs ih =>
      intro dP
      rw [List.map_cons, exactDProduct]
      refine Traced.meets_mul ?_
      rw [getDProduct]
      by_cases hxn : x * n = 0
      · rw [if_pos hxn, if_pos (eq_zero_iff.mp hxn)]
        exact Traced.meets_refuse rfl
      · rw [if_neg hxn, if_neg fun h => hxn (eq_zero_iff.mpr h)]
        refine Traced.meets_mul ?_
        rw [← BitVec.toNat_udiv]
        exact ih _

/-- The distance test of both loops. -/
lemma absDiff_le_one {a b : U256} : absDiff a b ≤ 1 ↔ exactDiff a.toNat b.toNat ≤ 1 := by
  rw [le_iff, exactDiff_toNat]
  rfl

lemma meets_exactDLoop (xp : List U256) (n annS annMinusP nPlus1 : U256) (fuel : ℕ) :
    ∀ d : U256, (exactDLoop (xp.map BitVec.toNat) n.toNat annS.toNat annMinusP.toNat nPlus1.toNat fuel
      d.toNat).Meets (fun r => (getDLoop xp n annS annMinusP nPlus1 fuel d).map BitVec.toNat = r)
      (getDLoop xp n annS annMinusP nPlus1 fuel d = none) := by
  induction fuel with
  | zero => exact fun d => Traced.meets_pure rfl
  | succ fuel ih =>
      intro d
      generalize hm : getDLoop xp n annS annMinusP nPlus1 (fuel + 1) d = m
      rw [getDLoop] at hm
      rw [exactDLoop]
      refine Traced.meets_bind ((meets_exactDProduct n d xp d).mono (fun hdP => ?_) ?_)
      · rw [hdP] at hm
        exact hm.symm
      rintro r rfl
      cases hdP : getDProduct n d xp d with
      | none =>
          rw [hdP] at hm
          subst hm
          rfl
      | some dP =>
          rw [hdP, Option.bind_eq_bind, Option.bind_some] at hm
          refine Traced.meets_mulChecked (fun hann => ?_) (fun annProduct hann => ?_)
          · rw [hann] at hm
            exact hm.symm
          rw [hann, Option.bind_some] at hm
          refine Traced.meets_mulChecked (fun hhop => ?_) (fun hopTerm hhop => ?_)
          · rw [hhop] at hm
            exact hm.symm
          rw [hhop, Option.bind_some] at hm
          rw [← BitVec.toNat_udiv]
          refine Traced.meets_addChecked (fun hden => ?_) (fun denominator hden => ?_)
          · rw [hden] at hm
            exact hm.symm
          rw [hden, Option.bind_some] at hm
          by_cases hzero : denominator = 0
          · rw [if_pos hzero] at hm
            rw [if_pos (eq_zero_iff.mp hzero)]
            subst hm
            exact Traced.meets_refuse rfl
          rw [if_neg hzero] at hm
          rw [if_neg fun h => hzero (eq_zero_iff.mpr h)]
          -- the numerator is where the code stops checking
          refine Traced.meets_mul (Traced.meets_add (Traced.meets_mul ?_))
          rw [← BitVec.toNat_udiv]
          by_cases hdiff : absDiff ((annS + dP * n) * d / denominator) d ≤ 1
          · rw [if_pos hdiff] at hm
            rw [if_pos (absDiff_le_one.mp hdiff)]
            subst hm
            exact Traced.meets_pure rfl
          · rw [if_neg hdiff] at hm
            rw [if_neg fun h => hdiff (absDiff_le_one.mpr h)]
            subst hm
            exact ih _

/-- The sum of the balances, the fold of the code. -/
lemma meets_exactSum {β : Type} {goal : Option β → Prop} {refused : Prop} {g : ℕ → Traced β}
    (xs : List U256) : ∀ s : U256, (g (xs.foldl (· + ·) s).toNat).Meets goal refused →
      (exactSum (xs.map BitVec.toNat) s.toNat >>= g).Meets goal refused := by
  suffices hsum : ∀ s : U256, (exactSum (xs.map BitVec.toNat) s.toNat).Meets
      (fun r => r = some (xs.foldl (· + ·) s).toNat) False by
    intro s h
    refine Traced.meets_bind ((hsum s).mono False.elim ?_)
    rintro r rfl
    exact h
  induction xs with
  | nil => exact fun s => Traced.meets_pure rfl
  | cons x xs ih =>
      intro s
      rw [List.map_cons, exactSum]
      exact Traced.meets_add (ih _)

lemma any_zero_map (xp : List U256) :
    ((xp.map BitVec.toNat).any fun x => x = 0) = xp.any fun x => x = 0 := by
  rw [List.any_map]
  congr 1
  funext x
  exact decide_eq_decide.mpr eq_zero_iff.symm

lemma meets_exactD (xp : List U256) (a : U256) :
    (exactD (xp.map BitVec.toNat) a.toNat).Meets (fun r => (getD xp a).map BitVec.toNat = r)
      (getD xp a = none) := by
  generalize hm : getD xp a = m
  rw [getD] at hm
  rw [exactD, any_zero_map, List.length_map]
  by_cases hinput : a = 0 ∨ xp.length < 2 ∨ (xp.any fun x => x = 0) = true
  · rw [if_pos hinput] at hm
    rw [if_pos (hinput.imp_left eq_zero_iff.mp)]
    subst hm
    exact Traced.meets_refuse rfl
  rw [if_neg hinput] at hm
  rw [if_neg fun h => hinput (h.imp_left eq_zero_iff.mpr)]
  refine Traced.meets_toWord (meets_exactSum xp 0 ?_)
  by_cases hs : xp.foldl (· + ·) 0 = 0
  · rw [if_pos hs] at hm
    rw [if_pos (eq_zero_iff.mp hs)]
    subst hm
    exact Traced.meets_pure rfl
  rw [if_neg hs] at hm
  rw [if_neg fun h => hs (eq_zero_iff.mpr h)]
  refine Traced.meets_mul ?_
  by_cases hann : a * BitVec.ofNat 256 xp.length ≤ aPrecision
  · rw [if_pos hann] at hm
    rw [if_pos (le_iff.mp hann)]
    subst hm
    exact Traced.meets_refuse rfl
  rw [if_neg hann] at hm
  rw [if_neg fun h => hann (le_iff.mpr h)]
  have hminus : (a * BitVec.ofNat 256 xp.length - aPrecision).toNat =
      (a * BitVec.ofNat 256 xp.length).toNat - aPrecision.toNat :=
    toNat_sub_of_le (not_le.mp fun h => hann (le_iff.mpr h)).le
  refine Traced.meets_mul (Traced.meets_add (b := 1) ?_)
  rw [← BitVec.toNat_udiv, ← hminus]
  subst hm
  exact meets_exactDLoop xp _ _ _ _ _ _

lemma meets_exactScale (balances : List U256) :
    ∀ rates : List U256, (exactScale (balances.map BitVec.toNat) (rates.map BitVec.toNat)).Meets
      (fun r => r = some ((balances.zipWith (fun balance rate => balance * rate / one18) rates).map
        BitVec.toNat)) False := by
  induction balances with
  | nil => exact fun rates => Traced.meets_pure rfl
  | cons balance balances ih =>
      intro rates
      cases rates with
      | nil => exact Traced.meets_pure rfl
      | cons rate rates =>
          rw [List.map_cons, List.map_cons, exactScale]
          refine Traced.meets_mul (Traced.meets_bind ((ih rates).mono False.elim ?_))
          rintro r rfl
          change some (_ :: _) = some (_ :: _)
          rw [BitVec.toNat_udiv]

lemma meets_exactXp (balances rates : List U256) :
    (exactXp (balances.map BitVec.toNat) (rates.map BitVec.toNat)).Meets
      (fun r => (toXp balances rates).map (List.map BitVec.toNat) = r) False := by
  generalize hm : toXp balances rates = m
  rw [toXp] at hm
  have hnil : rates.map BitVec.toNat = [] ↔ rates = [] := List.map_eq_nil_iff
  rw [exactXp, List.length_map, List.length_map]
  by_cases hlength : rates ≠ [] ∧ rates.length ≠ balances.length
  · rw [if_pos hlength] at hm
    rw [if_pos (hlength.imp_left (mt hnil.mp))]
    subst hm
    exact Traced.meets_refuse rfl
  rw [if_neg hlength] at hm
  rw [if_neg fun h => hlength (h.imp_left (mt hnil.mpr))]
  by_cases hrates : rates = []
  · rw [if_pos hrates] at hm
    rw [if_pos (hnil.mpr hrates)]
    subst hm
    exact Traced.meets_pure rfl
  · rw [if_neg hrates] at hm
    rw [if_neg (mt hnil.mp hrates)]
    subst hm
    exact (meets_exactScale balances rates).mono id fun r hr => hr.symm

lemma meets_exactCacheD (balances rates : List U256) (a : U256) :
    (exactCacheD (balances.map BitVec.toNat) (rates.map BitVec.toNat) a.toNat).Meets
      (fun r => (curveStableCacheD balances rates a).map BitVec.toNat = r)
      (curveStableCacheD balances rates a = none) := by
  refine Traced.meets_bind ((meets_exactXp balances rates).mono False.elim ?_)
  rintro r rfl
  rw [curveStableCacheD]
  cases toXp balances rates with
  | none => rfl
  | some xp => exact meets_exactD xp a

lemma meets_exactYAccumulate (x : U256) (i j : ℕ) (n d : U256) (xp : List U256) :
    ∀ (k : ℕ) (s c : U256),
      (exactYAccumulate x.toNat i j n.toNat d.toNat k (xp.map BitVec.toNat) s.toNat c.toNat).Meets
        (fun r => (getYAccumulate x i j n d k xp s c).map (fun sc => (sc.1.toNat, sc.2.toNat)) = r)
        False := by
  induction xp with
  | nil => exact fun k s c => Traced.meets_pure rfl
  | cons xk rest ih =>
      intro k s c
      rw [List.map_cons, exactYAccumulate, getYAccumulate]
      by_cases hkj : k = j
      · rw [if_pos hkj, if_pos hkj]
        exact ih _ _ _
      rw [if_neg hkj, if_neg hkj, ← apply_ite BitVec.toNat]
      refine Traced.meets_add (Traced.meets_mul ?_)
      by_cases hvn : (if k = i then x else xk) * n = 0
      · rw [if_pos (eq_zero_iff.mp hvn), if_pos hvn]
        exact Traced.meets_refuse rfl
      · rw [if_neg fun h => hvn (eq_zero_iff.mpr h), if_neg hvn]
        refine Traced.meets_mul ?_
        rw [← BitVec.toNat_udiv]
        exact ih _ _ _

lemma meets_exactYLoop (b c d : U256) (fuel : ℕ) :
    ∀ y : U256, (exactYLoop b.toNat c.toNat d.toNat fuel y.toNat).Meets
      (fun r => (getYLoop b c d fuel y).map BitVec.toNat = r) False := by
  induction fuel with
  | zero => exact fun y => Traced.meets_pure rfl
  | succ fuel ih =>
      intro y
      rw [exactYLoop, getYLoop]
      refine Traced.meets_mul (a := 2) (Traced.meets_add ?_)
      rw [← toNat_saturatingSub]
      by_cases hzero : saturatingSub (2 * y + b) d = 0
      · rw [if_pos (eq_zero_iff.mp hzero), if_pos hzero]
        exact Traced.meets_refuse rfl
      rw [if_neg fun h => hzero (eq_zero_iff.mpr h), if_neg hzero]
      refine Traced.meets_mul (Traced.meets_add ?_)
      rw [← BitVec.toNat_udiv]
      by_cases hdiff : absDiff ((y * y + c) / saturatingSub (2 * y + b) d) y ≤ 1
      · rw [if_pos (absDiff_le_one.mp hdiff), if_pos hdiff]
        exact Traced.meets_pure rfl
      · rw [if_neg fun h => hdiff (absDiff_le_one.mpr h), if_neg hdiff]
        exact ih _

/-- The division by `ann * n` has a panic of its own, which takes a product that wraps to zero. -/
lemma meets_exactY (x : U256) (i j : ℕ) (xp : List U256) (a d : U256) :
    (exactY x.toNat i j (xp.map BitVec.toNat) a.toNat d.toNat).Meets
      (fun r => ∃ q, getY x i j xp a d = some q ∧ q.map BitVec.toNat = r) False := by
  generalize hm : getY x i j xp a d = m
  rw [getY] at hm
  rw [exactY, List.length_map]
  refine Traced.meets_toWord (Traced.meets_mul ?_)
  generalize BitVec.ofNat 256 xp.length = n at hm ⊢
  by_cases hstart : a * n = 0 ∨ d = 0
  · rw [if_pos hstart] at hm
    rw [if_pos (hstart.imp eq_zero_iff.mp eq_zero_iff.mp)]
    exact Traced.meets_refuse ⟨none, hm.symm, rfl⟩
  rw [if_neg hstart] at hm
  rw [if_neg fun h => hstart (h.imp eq_zero_iff.mpr eq_zero_iff.mpr)]
  refine Traced.meets_bind ((meets_exactYAccumulate x i j n d xp 0 0 d).mono False.elim ?_)
  rintro r rfl
  cases hsc : getYAccumulate x i j n d 0 xp 0 d with
  | none =>
      rw [hsc] at hm
      exact ⟨none, hm.symm, rfl⟩
  | some sc =>
      rw [hsc] at hm
      dsimp only at hm
      rw [Option.map_some, Option.elim_some]
      refine Traced.meets_mul ?_
      refine Traced.meets_mul ?_
      refine Traced.meets_mul_exact fun hexact => ?_
      have hann : a * n ≠ 0 := fun h => hstart (Or.inl h)
      have hn : n ≠ 0 := by
        rintro rfl
        exact hann (BitVec.mul_zero)
      have hden : a * n * n ≠ 0 := by
        rw [ne_eq, eq_zero_iff, hexact, Nat.mul_eq_zero, ← eq_zero_iff, ← eq_zero_iff]
        exact not_or.mpr ⟨hann, hn⟩
      refine Traced.meets_mul ?_
      rw [← BitVec.toNat_udiv, ← BitVec.toNat_udiv]
      refine Traced.meets_add ?_
      have hdiv : checkedDiv (sc.2 * d * aPrecision) (a * n * n) =
          some (sc.2 * d * aPrecision / (a * n * n)) := if_neg hden
      rw [hdiv, Option.bind_eq_bind, Option.bind_some] at hm
      refine (meets_exactYLoop _ _ d curveMaxIterations d).mono id ?_
      rintro r rfl
      exact ⟨_, hm.symm, rfl⟩

/-- The new balance of coin `j`, from balances and rates. -/
def curveStableY (balances rates : List U256) (x : U256) (i j : ℕ) (a d : U256) : Run (Option U256) :=
  match toXp balances rates with
  | none => some none
  | some xp => getY x i j xp a d

def exactStableY (balances rates : List ℕ) (x : ℕ) (i j : ℕ) (a d : ℕ) : Traced ℕ := do
  let xp ← exactXp balances rates
  exactY x i j xp a d

lemma meets_exactStableY (balances rates : List U256) (x : U256) (i j : ℕ) (a d : U256) :
    (exactStableY (balances.map BitVec.toNat) (rates.map BitVec.toNat) x.toNat i j a.toNat d.toNat).Meets
      (fun r => ∃ q, curveStableY balances rates x i j a d = some q ∧ q.map BitVec.toNat = r) False := by
  refine Traced.meets_bind ((meets_exactXp balances rates).mono id ?_)
  rintro r rfl
  rw [curveStableY]
  cases toXp balances rates with
  | none => exact ⟨none, rfl, rfl⟩
  | some xp => exact meets_exactY x i j xp a d

/-! ### Failing closed -/

/-- A quote fails closed: a value it gives is the one over unbounded integers, and where a product does not fit
a word it gives none. -/
structure FailsClosed (quote : Run (Option U256)) (t : Traced ℕ) : Prop where
  exact : ∀ v, quote = some (some v) → t.result = some v.toNat
  closed : t.Overflows → quote = some none

lemma failsClosed_of_meets {quote : Run (Option U256)} {t : Traced ℕ}
    (hmeets : t.Meets (fun r => ∃ q, quote = some q ∧ q.map BitVec.toNat = r) (quote = some none))
    (hwraps : ¬ t.Wraps) : FailsClosed quote t := by
  unfold Traced.Meets at hmeets
  cases htoo : t.tooLarge with
  | none =>
      rw [htoo] at hmeets
      rcases hmeets with ⟨q, hquote, hresult⟩
      refine ⟨?_, ?_⟩
      · rintro v hv
        rw [← hresult, Option.some.inj (hquote.symm.trans hv)]
        rfl
      · rintro ⟨v, hmem, -, hlarge⟩
        exact absurd (decide_eq_true hlarge) (List.find?_eq_none.mp htoo v hmem)
  | some v =>
      rw [htoo] at hmeets
      have hchecked : v.checked = true := Bool.not_eq_false _ ▸ fun h => hwraps ⟨v, htoo, h⟩
      have hnone := hmeets hchecked
      refine ⟨?_, fun _ => hnone⟩
      rintro w hw
      rw [hnone] at hw
      cases hw

/-- Where a product leaves a word, failing closed is giving no quote. -/
lemma failsClosed_iff_of_overflows {quote : Run (Option U256)} {t : Traced ℕ} (h : t.Overflows) :
    FailsClosed quote t ↔ quote = some none := by
  refine ⟨fun hclosed => hclosed.closed h, fun hnone => ⟨?_, fun _ => hnone⟩⟩
  rintro v hv
  rw [hnone] at hv
  cases hv

/-- The invariant and the new balance fail closed as long as no wrapping operator leaves a word; where a product
does, they do so only if the wrapped iteration ends without a value. -/
theorem curve_failsClosed (balances rates : List U256) (a d x : U256) (i j : ℕ) :
    (¬ (exactCacheD (balances.map BitVec.toNat) (rates.map BitVec.toNat) a.toNat).Wraps →
      FailsClosed (some (curveStableCacheD balances rates a))
        (exactCacheD (balances.map BitVec.toNat) (rates.map BitVec.toNat) a.toNat)) ∧
    ((exactCacheD (balances.map BitVec.toNat) (rates.map BitVec.toNat) a.toNat).Overflows →
      (FailsClosed (some (curveStableCacheD balances rates a))
        (exactCacheD (balances.map BitVec.toNat) (rates.map BitVec.toNat) a.toNat) ↔
        curveStableCacheD balances rates a = none)) ∧
    (¬ (exactStableY (balances.map BitVec.toNat) (rates.map BitVec.toNat) x.toNat i j a.toNat
        d.toNat).Wraps →
      FailsClosed (curveStableY balances rates x i j a d)
        (exactStableY (balances.map BitVec.toNat) (rates.map BitVec.toNat) x.toNat i j a.toNat d.toNat)) ∧
    ((exactStableY (balances.map BitVec.toNat) (rates.map BitVec.toNat) x.toNat i j a.toNat
        d.toNat).Overflows →
      (FailsClosed (curveStableY balances rates x i j a d)
        (exactStableY (balances.map BitVec.toNat) (rates.map BitVec.toNat) x.toNat i j a.toNat d.toNat) ↔
        curveStableY balances rates x i j a d = some none)) := by
  refine ⟨fun hwraps => ?_, fun hover => ?_, fun hwraps => ?_, failsClosed_iff_of_overflows⟩
  · refine failsClosed_of_meets ((meets_exactCacheD balances rates a).mono (fun h => by rw [h]) ?_) hwraps
    exact fun r hr => ⟨_, rfl, hr⟩
  · rw [failsClosed_iff_of_overflows hover]
    exact Option.some_inj
  · exact failsClosed_of_meets ((meets_exactStableY balances rates x i j a d).mono False.elim
      fun _ h => h) hwraps

/-- A pool of two coins with small balances. -/
theorem curve_failsClosed_small :
    FailsClosed (some (curveStableCacheD [1000000, 2000000] [] 1000))
      (exactCacheD [1000000, 2000000] [] 1000) ∧
    FailsClosed (curveStableY [1000000, 2000000] [] 1001000 0 1 1000 2999000)
      (exactStableY [1000000, 2000000] [] 1001000 0 1 1000 2999000) :=
  ⟨(curve_failsClosed [1000000, 2000000] [] 1000 2999000 1001000 0 1).1 (by decide),
    (curve_failsClosed [1000000, 2000000] [] 1000 2999000 1001000 0 1).2.2.1 (by decide)⟩

/-- Two balances whose invariant takes products beyond a word. -/
def largeBalances : List U256 :=
  [300000000000000000000000000000000000000, 300000000000000000000000000000000000000]

/-- The code gives an invariant that the unbounded iteration does not give, and a new balance after a product
that does not fit. -/
theorem curve_fails_open :
    (curveStableCacheD largeBalances [] 1000 = some 631574228107139878814884327964630304957 ∧
      (exactCacheD (largeBalances.map BitVec.toNat) [] 1000).result =
        some 600000000000000000000000000000000000000 ∧
      ¬ FailsClosed (some (curveStableCacheD largeBalances [] 1000))
        (exactCacheD (largeBalances.map BitVec.toNat) [] 1000)) ∧
    ¬ FailsClosed (curveStableY largeBalances [] 100000000000000000000000000000000000000 0 1 1000
        200000000000000000000000000000000000000)
      (exactStableY (largeBalances.map BitVec.toNat) [] 100000000000000000000000000000000000000 0 1 1000
        200000000000000000000000000000000000000) :=
  ⟨⟨by decide +kernel, by decide +kernel,
    (failsClosed_iff_of_overflows (by decide +kernel)).not.mpr (by decide +kernel)⟩,
    (failsClosed_iff_of_overflows (by decide)).not.mpr (by decide)⟩

end PolygonArb

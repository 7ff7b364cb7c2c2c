import PolygonArb.Core.Math.CurveCrypto

/-!
# The invariant cached at decode time

`curve_stable_cache_d` and `curve_crypto_cache_d` compute the invariant of a pool once, when its state is
decoded.  The crypto cache prepares the scaled balances itself, with a length test of its own and without
the quote's default rates.

A cache that has no value leaves the quote to compute the invariant, and the value it does have is the one
the quote would compute: `curve_cacheD_faithful`.
-/

namespace PolygonArb

open Word

def curveStableCacheD (balances rates : List U256) (a : U256) : Option U256 := do
  let xp ← toXp balances rates
  getD xp a

def curveCryptoCacheD (balances rates : List U256) (a gamma : U256) : Run (Option U256) :=
  if a = 0 ∨ gamma = 0 ∨ balances.length ≠ rates.length then some none
  else
    let n := BitVec.ofNat 256 balances.length
    if n < 2 then some none
    else do
      let xp := balances.zipWith (fun b r => b * r / one18) rates
      let result ← curveCryptoNewtonD (a * n * aMultiplier) gamma xp
      some (if result.converged = true ∧ result.value ≠ 0 then some result.value else none)

/-- The value the decoder of a pool's family caches for its state; no other family has one. -/
def curveCacheD (state : CurvePoolState) (protocol : ProtocolType) : Run (Option U256) :=
  match protocol with
  | .curveStable => some (curveStableCacheD state.balances state.rates state.a)
  | .curveCrypto =>
      curveCryptoCacheD state.balances state.rates state.a (state.gamma.getD 0)
  | _ => some none

lemma filter_nonzero {d : U256} (hd : d ≠ 0) : (some d).filter (· ≠ 0) = some d :=
  if_pos (decide_eq_true hd)

section Stable

variable {state : CurvePoolState} {xp : List U256}

/-- The invariant a stable quote works with. -/
def stableInvariant (state : CurvePoolState) (xp : List U256) : Option U256 :=
  ((state.d.filter (· ≠ 0)).or (getD xp state.a)).filter (· ≠ 0)

lemma stableInvariant_cached (hxp : toXp state.balances state.rates = some xp) :
    stableInvariant { state with d := curveStableCacheD state.balances state.rates state.a } xp =
      stableInvariant { state with d := none } xp := by
  have hcache : curveStableCacheD state.balances state.rates state.a = getD xp state.a := by
    rw [curveStableCacheD, hxp]
    rfl
  simp only [stableInvariant, hcache]
  cases hd : getD xp state.a with
  | none => rfl
  | some d =>
      by_cases h0 : d = 0
      · subst h0
        rfl
      · rw [filter_nonzero h0]
        rfl

lemma tryCurveStableAmountOut_cached (state : CurvePoolState) (amountIn : U256) (i j : ℕ) :
    tryCurveStableAmountOut
        { state with d := curveStableCacheD state.balances state.rates state.a } amountIn i j =
      tryCurveStableAmountOut { state with d := none } amountIn i j := by
  rw [tryCurveStableAmountOut, tryCurveStableAmountOut]
  refine if_congr Iff.rfl rfl (if_congr Iff.rfl rfl (if_congr Iff.rfl rfl ?_))
  cases hxp : toXp state.balances state.rates with
  | none => rfl
  | some xp =>
      have hinvariant := stableInvariant_cached hxp
      simp only [stableInvariant] at hinvariant
      dsimp only
      rw [hinvariant]
      rfl

end Stable

section Crypto

variable {state : CurvePoolState}

/-- A value in the crypto cache is what the quote's own Newton iteration converges to. -/
lemma newtonD_of_curveCryptoCacheD {d : U256}
    (h : curveCryptoCacheD state.balances state.rates state.a (state.gamma.getD 0) = some (some d)) :
    d ≠ 0 ∧ state.rates ≠ [] ∧
      curveCryptoNewtonD (state.a * BitVec.ofNat 256 state.balances.length * aMultiplier)
        (state.gamma.getD 0)
        (state.balances.zipWith (fun b r => b * r / one18) state.rates) = some ⟨d, true⟩ := by
  rw [curveCryptoCacheD] at h
  by_cases hguard : state.a = 0 ∨ state.gamma.getD 0 = 0 ∨
      state.balances.length ≠ state.rates.length
  · rw [if_pos hguard] at h
    cases h
  rw [if_neg hguard] at h
  dsimp only at h
  by_cases hfew : BitVec.ofNat 256 state.balances.length < 2
  · rw [if_pos hfew] at h
    cases h
  rw [if_neg hfew] at h
  rcases Option.bind_eq_some_iff.mp h with ⟨result, hnewton, hresult⟩
  by_cases hconverged : result.converged = true ∧ result.value ≠ 0
  swap
  · rw [if_neg hconverged] at hresult
    cases hresult
  rw [if_pos hconverged, Option.some.injEq, Option.some.injEq] at hresult
  refine ⟨hresult ▸ hconverged.2, ?_, ?_⟩
  · intro hrates
    have hempty : state.balances.length = 0 := by
      by_contra hne
      exact hguard (.inr (.inr (by simpa [hrates] using hne)))
    exact hfew (by rw [hempty]; decide)
  · rw [hnewton, ← hresult, ← hconverged.1]

/-- The cached value and the fresh one are the same invariant. -/
lemma cryptoInvariant_eq {ann gamma d : U256} {xp : List U256} (hd : d ≠ 0)
    (hfresh : curveCryptoNewtonD ann gamma xp = some ⟨d, true⟩)
    (hcached : state.d = some d ∨ state.d = none) :
    cryptoInvariant state ann gamma xp = some (some d) := by
  rcases hcached with hcached | hcached
  · rw [cryptoInvariant, hcached, filter_nonzero hd]
  · simp [cryptoInvariant, hcached, hfresh]

lemma tryCurveCryptoAmountOut_cached (amountIn : U256) (i j : ℕ) {cached : Option U256}
    (hcoins : state.nCoins = state.balances.length)
    (h : curveCryptoCacheD state.balances state.rates state.a (state.gamma.getD 0) = some cached) :
    tryCurveCryptoAmountOut { state with d := cached } amountIn i j =
      tryCurveCryptoAmountOut { state with d := none } amountIn i j := by
  cases cached with
  | none => rfl
  | some d =>
      rcases newtonD_of_curveCryptoCacheD h with ⟨hd, hrates, hnewton⟩
      rw [← hcoins] at hnewton
      rw [tryCurveCryptoAmountOut, tryCurveCryptoAmountOut]
      refine if_congr Iff.rfl rfl (if_congr Iff.rfl rfl (if_congr Iff.rfl rfl ?_))
      dsimp only
      rw [if_neg hrates, cryptoInvariant_eq hd hnewton (.inl rfl),
        cryptoInvariant_eq hd hnewton (.inr rfl)]

end Crypto

/-- Quoting with the decoder's cached invariant is quoting without one, reject reasons included. -/
theorem curve_cacheD_faithful (state : CurvePoolState) (amountIn : U256) (i j : ℕ)
    (hcoins : state.nCoins = state.balances.length) :
    tryCurveStableAmountOut
        { state with d := curveStableCacheD state.balances state.rates state.a } amountIn i j =
      tryCurveStableAmountOut { state with d := none } amountIn i j ∧
    (∀ cached, curveCryptoCacheD state.balances state.rates state.a (state.gamma.getD 0) =
        some cached →
      tryCurveCryptoAmountOut { state with d := cached } amountIn i j =
        tryCurveCryptoAmountOut { state with d := none } amountIn i j) ∧
    ∀ protocol cached, curveCacheD state protocol = some cached →
      curveHopAmountOut { state with d := cached } protocol amountIn i j =
        curveHopAmountOut { state with d := none } protocol amountIn i j := by
  have hstable := tryCurveStableAmountOut_cached state amountIn i j
  have hcrypto : ∀ cached, curveCryptoCacheD state.balances state.rates state.a
      (state.gamma.getD 0) = some cached →
      tryCurveCryptoAmountOut { state with d := cached } amountIn i j =
        tryCurveCryptoAmountOut { state with d := none } amountIn i j := by
    intro cached hcached
    exact tryCurveCryptoAmountOut_cached amountIn i j hcoins hcached
  refine ⟨hstable, hcrypto, ?_⟩
  intro protocol cached hcached
  unfold curveHopAmountOut
  cases protocol with
  | curveStable =>
      rw [curveCacheD, Option.some.injEq] at hcached
      dsimp only
      rw [← hcached, hstable]
  | curveCrypto =>
      dsimp only
      rw [hcrypto cached hcached]
  | _ => rfl

/-- A two-coin crypto pool, its cached invariant, and a hop quoted with it. -/
theorem curve_cacheD_faithful_pair :
    let pool : CurvePoolState :=
      { balances := [1000000000000000000000, 2000000000000000000000], a := 400000, fee := 3000000,
        rates := [1000000000000000000, 1000000000000000000], nCoins := 2,
        gamma := some 145000000000000, d := none, offpegFeeMultiplier := none }
    curveCacheD pool .curveCrypto = some (some 2933817353586268508081) ∧
      curveHopAmountOut { pool with d := some 2933817353586268508081 } .curveCrypto
          1000000000000000000 0 1 =
        curveHopAmountOut { pool with d := none } .curveCrypto 1000000000000000000 0 1 := by
  intro pool
  have hcached : curveCacheD pool .curveCrypto = some (some 2933817353586268508081) := by
    decide +kernel
  exact ⟨hcached, (curve_cacheD_faithful pool _ 0 1 rfl).2.2 .curveCrypto _ hcached⟩

end PolygonArb

import PolygonArb.Pipeline.ProbeSeeds
import PolygonArb.Services.Prepare

/-!
# Safety of the sizing window

A size may be searched for in a window that starts at or above the economic floor, is not empty, and
ends at or below the flash cap and the liquidity cap (`SafeWindow`).  `computeTernarySearchBounds` and
the stages of `optimizeCycleSeeded` clamp and raise the ends of the window one after another, and a
later repair may undo an earlier clamp.

* `Sizable.bounds_of_room`: where the liquidity cap is above the floor, the window of
  `computeTernarySearchBounds` in closed form, from `bottom` to `ceiling`.
* `safeWindow_open_iff`: exactly when that window is safe.
* `SafeWindow.clampToTickless`, `clampToVault`, `clampToDepth`, `reincludeSeeds`: these stages keep a
  window safe.  The stage of the seeds does unless it raises the window above the liquidity cap, which
  it does not look at.

`sizesSafely_iff` puts them together for all windows of a sizing.
-/

namespace PolygonArb

open Word Loop

/-- A size cut to a cap, when there is one. -/
def cutTo (cap : Option U256) (x : U256) : U256 := (cap.map (min x)).getD x

@[simp] lemma cutTo_none (x : U256) : cutTo none x = x := rfl

@[simp] lemma toNat_cutTo_some (cap x : U256) : (cutTo (some cap) x).toNat = min x.toNat cap.toNat := by
  simp [cutTo]

lemma cutTo_le_self (cap : Option U256) (x : U256) : (cutTo cap x).toNat ≤ x.toNat := by
  cases cap with
  | none => simp
  | some cap => simp

lemma cutTo_le {cap : Option U256} {c : U256} (h : c ∈ cap) (x : U256) :
    (cutTo cap x).toNat ≤ c.toNat := by
  rw [Option.mem_def] at h
  simp [h]

lemma le_minEconomicAmountIn (decimals : BitVec 8) (rate : U256) :
    1000 ≤ (minEconomicAmountIn decimals rate).toNat := by
  unfold minEconomicAmountIn
  split_ifs with hdecimals hrate
  · simp
  · simp
  · dsimp only
    cases checkedMul minEconomicValueMaticWei (tenPowU256 decimals.toNat) with
    | none => simp
    | some economic => simp

namespace SizingInput

variable (input : SizingInput) (startRate : U256) (startDecimals : BitVec 8) (capacity : U256)

/-! ## The window in closed form -/

def floor : U256 := minEconomicAmountIn startDecimals startRate

def flashCap : Option U256 := (input.flashCapParams startRate startDecimals).capWei

/-- The smallest size worth a search, and the largest the hops and the flash cap allow. -/
def smallest : U256 := max (capacity / 5000#256) (floor startRate startDecimals)

def largest : U256 := cutTo (input.flashCap startRate startDecimals) (capacity / 10#256)

/-- The upper end of the window before the seeds. -/
def ceiling : U256 :=
  cutTo input.liquidityCap
    (max (input.largest startRate startDecimals capacity)
      (smallest startRate startDecimals capacity + 1#256))

/-- The lower end of the window before the seeds. -/
def bottom : U256 :=
  cutTo (input.liquidityCap.map (· - 1#256))
    (max (smallest startRate startDecimals capacity)
      (input.largest startRate startDecimals capacity / 100#256))

/-- The start token is priced and the capacity of every hop is known, so that there is a window. -/
structure Sizable : Prop where
  rate : resolveTokenToMaticRateOrBootstrap input.cycle.startToken input.tokenToMaticRates =
    some startRate
  priced : startRate ≠ 0
  decimals : input.startDecimals = some startDecimals
  resolved : (input.flashCapParams startRate startDecimals).capEnforcedButUnresolved = false
  capacity : input.minCapacity startRate startDecimals = some capacity
  worth : floor startRate startDecimals ≠ maxValue

/-- The end of `computeTernarySearchBounds`: the floor is applied once more. -/
def applyFloor (low high : U256) : Option TernarySearchBounds :=
  let floor := floor startRate startDecimals
  let flashCap := input.flashCap startRate startDecimals
  let outLow := if low < floor ∧ floor ≤ high then floor else low
  let outHigh := if high < floor then cutTo flashCap (saturatingMul floor 100#256) else high
  let outLow := max outLow floor
  let outHigh := if outHigh ≤ outLow then saturatingAdd outLow 1#256 else outHigh
  if outHigh ≤ outLow ∨ outHigh < floor then none else some ⟨outLow, outHigh, flashCap⟩

variable {input startRate startDecimals capacity}

lemma computeTernarySearchBounds_eq (hrate : startRate ≠ 0)
    (hresolved : (input.flashCapParams startRate startDecimals).capEnforcedButUnresolved = false)
    (hcapacity : input.minCapacity startRate startDecimals = some capacity) :
    input.computeTernarySearchBounds startRate startDecimals =
      let low := smallest startRate startDecimals capacity
      let high := input.largest startRate startDecimals capacity
      let finalLow := max low (max (high / 100#256) 1#256)
      let finalHigh := if finalLow < high then high else finalLow + 1#256
      let out := computeTernarySearchBounds.clampToLiquidity input finalLow finalHigh
      input.applyFloor startRate startDecimals out.1 out.2 := by
  simp only [computeTernarySearchBounds, hresolved, hcapacity, if_neg hrate, Bool.false_eq_true,
    if_false, Option.bind_eq_bind, Option.bind_some]
  rfl

lemma le_floor : 1000 ≤ (floor startRate startDecimals).toNat :=
  le_minEconomicAmountIn startDecimals startRate

lemma toNat_smallest : (smallest startRate startDecimals capacity).toNat =
    max (capacity.toNat / 5000) (floor startRate startDecimals).toNat := by
  simp [smallest]

/-- The smallest size can be increased without wrapping. -/
lemma Sizable.smallest_lt (h : input.Sizable startRate startDecimals capacity) :
    (smallest startRate startDecimals capacity).toNat + 1 < 2 ^ 256 := by
  have hne : (floor startRate startDecimals).toNat ≠ maxValue.toNat :=
    fun heq => h.worth (BitVec.toNat_inj.mp heq)
  have hfloor := toNat_lt (floor startRate startDecimals)
  have hcapacity := toNat_lt capacity
  rw [toNat_maxValue] at hne
  rw [toNat_smallest]
  omega

/-- A window above the floor stays as it is. -/
lemma applyFloor_of_le {low high : U256} (hfloor : floor startRate startDecimals ≤ low)
    (hlt : low < high) :
    input.applyFloor startRate startDecimals low high =
      some ⟨low, high, input.flashCap startRate startDecimals⟩ := by
  rw [le_iff] at hfloor
  rw [lt_iff] at hlt
  have hlow : ¬ low < floor startRate startDecimals := by rw [lt_iff]; omega
  have hhigh : ¬ high < floor startRate startDecimals := by rw [lt_iff]; omega
  have hmax : max low (floor startRate startDecimals) = low :=
    BitVec.toNat_inj.mp (by rw [toNat_max]; omega)
  have hle : ¬ high ≤ low := by rw [le_iff]; omega
  simp only [applyFloor, hlow, hhigh, hmax, hle, false_and, if_false, or_self]

/-- Whatever the caps have left of it, a window is made. -/
lemma exists_applyFloor {low high : U256} (hlow : low.toNat + 1 < 2 ^ 256)
    (hworth : floor startRate startDecimals ≠ maxValue) :
    ∃ bounds, input.applyFloor startRate startDecimals low high = some bounds := by
  have hne : (floor startRate startDecimals).toNat ≠ maxValue.toNat :=
    fun heq => hworth (BitVec.toNat_inj.mp heq)
  rw [toNat_maxValue] at hne
  have hfloor := toNat_lt (floor startRate startDecimals)
  simp only [applyFloor]
  generalize hl : (if low < floor startRate startDecimals ∧ floor startRate startDecimals ≤ high then
    floor startRate startDecimals else low) = outLow
  have hout : outLow.toNat + 1 < 2 ^ 256 := by
    rw [← hl]
    split_ifs <;> omega
  generalize (if high < floor startRate startDecimals then
    cutTo (input.flashCap startRate startDecimals) (saturatingMul (floor startRate startDecimals) 100#256)
    else high) = outHigh
  refine ⟨_, if_neg ?_⟩
  split_ifs with hle
  · simp only [le_iff, lt_iff, toNat_saturatingAdd, toNat_max, BitVec.toNat_ofNat]
    omega
  · rw [le_iff, toNat_max] at hle
    simp only [le_iff, lt_iff, toNat_max]
    omega

lemma max_hundredth {low high : U256} (hpos : 1 ≤ low.toNat) :
    max low (max (high / 100#256) 1#256) = max low (high / 100#256) := by
  apply BitVec.toNat_inj.mp
  simp only [toNat_max, BitVec.toNat_ofNat]
  omega

/-- The plus-one repair of an empty window. -/
lemma repair_high {low high : U256} (hlow : low.toNat + 1 < 2 ^ 256) :
    (if max low (high / 100#256) < high then high else max low (high / 100#256) + 1#256) =
      max high (low + 1#256) := by
  apply BitVec.toNat_inj.mp
  have hdiv : (high / 100#256).toNat = high.toNat / 100 := by simp
  split_ifs with hlt
  · rw [lt_iff, toNat_max] at hlt
    simp only [toNat_max, BitVec.toNat_add, BitVec.toNat_ofNat]
    omega
  · rw [lt_iff, toNat_max] at hlt
    simp only [toNat_max, BitVec.toNat_add, BitVec.toNat_ofNat]
    omega

/-- Before the liquidity cap the window goes from the smallest size, or a hundredth of the largest, to the
largest, or one above the smallest. -/
lemma Sizable.bounds_eq (h : input.Sizable startRate startDecimals capacity) :
    input.computeTernarySearchBounds startRate startDecimals =
      let low := smallest startRate startDecimals capacity
      let high := input.largest startRate startDecimals capacity
      let out := computeTernarySearchBounds.clampToLiquidity input (max low (high / 100#256))
        (max high (low + 1#256))
      input.applyFloor startRate startDecimals out.1 out.2 := by
  have hpos : 1 ≤ (smallest startRate startDecimals capacity).toNat := by
    have hfloor : 1000 ≤ (floor startRate startDecimals).toNat := le_floor
    rw [toNat_smallest]
    omega
  rw [computeTernarySearchBounds_eq h.priced h.resolved h.capacity]
  simp only [max_hundredth hpos, repair_high h.smallest_lt]

/-- A liquidity cap of at least two cuts both ends of the window. -/
lemma clampToLiquidity_eq {low high : U256} (hlt : low < high)
    (hcap : ∀ cap ∈ input.liquidityCap, 1 < cap.toNat) :
    computeTernarySearchBounds.clampToLiquidity input low high =
      (cutTo (input.liquidityCap.map (· - 1#256)) low, cutTo input.liquidityCap high) := by
  rw [lt_iff] at hlt
  cases hliquidity : input.liquidityCap with
  | none => simp [computeTernarySearchBounds.clampToLiquidity, hliquidity]
  | some cap =>
      have hpos : 1 < cap.toNat := hcap cap (by simp [hliquidity])
      have hne : cap ≠ 0#256 := by
        rw [Ne, ← BitVec.toNat_inj, BitVec.toNat_ofNat]
        omega
      have hsub : (cap - 1#256).toNat = cap.toNat - 1 := toNat_sub_of_le (by simp; omega)
      have hfilter : input.liquidityCap.filter (· ≠ 0) = some cap := by simp [hliquidity, hne]
      simp only [computeTernarySearchBounds.clampToLiquidity, hfilter, Option.map_some]
      refine Prod.ext (BitVec.toNat_inj.mp ?_) rfl
      simp only [le_iff, toNat_min, toNat_cutTo_some, hsub]
      split_ifs with hle
      · simp only [toNat_max, toNat_saturatingSub, toNat_min, BitVec.toNat_ofNat]
        omega
      · omega

/-- With a liquidity cap above the floor, or none, the window is the one in closed form. -/
lemma Sizable.bounds_of_room (h : input.Sizable startRate startDecimals capacity)
    (hroom : ∀ cap ∈ input.liquidityCap, floor startRate startDecimals < cap) :
    input.computeTernarySearchBounds startRate startDecimals =
        some ⟨input.bottom startRate startDecimals capacity,
          input.ceiling startRate startDecimals capacity, input.flashCap startRate startDecimals⟩ ∧
      floor startRate startDecimals ≤ input.bottom startRate startDecimals capacity ∧
      input.bottom startRate startDecimals capacity < input.ceiling startRate startDecimals capacity := by
  have hfloor : 1000 ≤ (floor startRate startDecimals).toNat := le_floor
  have hsmallest : (smallest startRate startDecimals capacity).toNat =
    max (capacity.toNat / 5000) (floor startRate startDecimals).toNat := toNat_smallest
  have hsucc := h.smallest_lt
  have hdiv : (input.largest startRate startDecimals capacity / 100#256).toNat =
    (input.largest startRate startDecimals capacity).toNat / 100 := by simp
  have hfirst : max (smallest startRate startDecimals capacity)
        (input.largest startRate startDecimals capacity / 100#256) <
      max (input.largest startRate startDecimals capacity)
        (smallest startRate startDecimals capacity + 1#256) := by
    rw [lt_iff, toNat_max, toNat_max, BitVec.toNat_add, BitVec.toNat_ofNat]
    omega
  have hcap : ∀ cap ∈ input.liquidityCap, 1 < cap.toNat := by
    intro cap hmem
    have hlt := lt_iff.mp (hroom cap hmem)
    omega
  have hends : floor startRate startDecimals ≤ input.bottom startRate startDecimals capacity ∧
      input.bottom startRate startDecimals capacity < input.ceiling startRate startDecimals capacity := by
    rw [lt_iff] at hfirst
    rw [le_iff, lt_iff, bottom, ceiling]
    cases hliquidity : input.liquidityCap with
    | none =>
        simp only [Option.map_none, cutTo_none, toNat_max] at hfirst ⊢
        omega
    | some cap =>
        have hlt := lt_iff.mp (hroom cap (by simp [hliquidity]))
        have hsub : (cap - 1#256).toNat = cap.toNat - 1 := toNat_sub_of_le (by simp; omega)
        simp only [Option.map_some, toNat_cutTo_some, hsub, toNat_max] at hfirst ⊢
        omega
  refine ⟨?_, hends⟩
  rw [h.bounds_eq]
  simp only [clampToLiquidity_eq hfirst hcap]
  exact applyFloor_of_le hends.1 hends.2

lemma clampToLiquidity_low_le {low high : U256} (hpos : 1 ≤ low.toNat) :
    (computeTernarySearchBounds.clampToLiquidity input low high).1.toNat ≤ low.toNat := by
  rw [computeTernarySearchBounds.clampToLiquidity]
  cases input.liquidityCap.filter (· ≠ 0) with
  | none => exact le_refl _
  | some cap =>
      dsimp only
      split_ifs with hle
      · rw [le_iff] at hle
        simp only [toNat_max, toNat_saturatingSub, BitVec.toNat_ofNat]
        omega
      · exact le_refl _

lemma Sizable.exists_bounds (h : input.Sizable startRate startDecimals capacity) :
    ∃ bounds, input.computeTernarySearchBounds startRate startDecimals = some bounds := by
  have hpos : 1 ≤ (smallest startRate startDecimals capacity).toNat := by
    have hfloor : 1000 ≤ (floor startRate startDecimals).toNat := le_floor
    rw [toNat_smallest]
    omega
  have hsucc := h.smallest_lt
  have hdiv : (input.largest startRate startDecimals capacity / 100#256).toNat =
    (input.largest startRate startDecimals capacity).toNat / 100 := by simp
  have hlargest := toNat_lt (input.largest startRate startDecimals capacity)
  rw [h.bounds_eq]
  refine exists_applyFloor ?_ h.worth
  refine lt_of_le_of_lt (Nat.add_le_add_right (clampToLiquidity_low_le ?_) 1) ?_
  · rw [toNat_max]
    omega
  · rw [toNat_max]
    omega

/-- No window starts at the largest word. -/
lemma applyFloor_eq_some {low high : U256} {bounds : TernarySearchBounds}
    (h : input.applyFloor startRate startDecimals low high = some bounds) :
    floor startRate startDecimals ≠ maxValue ∧
      bounds.flashCap = input.flashCap startRate startDecimals := by
  simp only [applyFloor] at h
  generalize (if low < floor startRate startDecimals ∧ floor startRate startDecimals ≤ high then
    floor startRate startDecimals else low) = outLow at h
  generalize (if high < floor startRate startDecimals then
    cutTo (input.flashCap startRate startDecimals) (saturatingMul (floor startRate startDecimals) 100#256)
    else high) = outHigh at h
  generalize (if outHigh ≤ max outLow (floor startRate startDecimals) then
    saturatingAdd (max outLow (floor startRate startDecimals)) 1#256 else outHigh) = last at h
  by_cases hempty : last ≤ max outLow (floor startRate startDecimals) ∨
    last < floor startRate startDecimals
  · rw [if_pos hempty] at h
    cases h
  · rw [if_neg hempty] at h
    cases h
    refine ⟨?_, rfl⟩
    intro hmax
    have hlast := toNat_lt last
    simp only [hmax, le_iff, lt_iff, toNat_max, toNat_maxValue] at hempty
    omega

/-- A window is only made for a start token that is worth it and hops whose capacity is known. -/
lemma bounds_eq_some {bounds : TernarySearchBounds} (hrate : startRate ≠ 0)
    (h : input.computeTernarySearchBounds startRate startDecimals = some bounds) :
    (input.flashCapParams startRate startDecimals).capEnforcedButUnresolved = false ∧
      floor startRate startDecimals ≠ maxValue ∧
      bounds.flashCap = input.flashCap startRate startDecimals ∧
      ∃ capacity, input.minCapacity startRate startDecimals = some capacity := by
  have hresolved : (input.flashCapParams startRate startDecimals).capEnforcedButUnresolved = false := by
    by_contra hunresolved
    rw [Bool.not_eq_false] at hunresolved
    simp [computeTernarySearchBounds, hunresolved] at h
  cases hcapacity : input.minCapacity startRate startDecimals with
  | none => simp [computeTernarySearchBounds, hresolved, hcapacity] at h
  | some capacity =>
      rw [computeTernarySearchBounds_eq hrate hresolved hcapacity] at h
      rcases applyFloor_eq_some h with ⟨hworth, hflash⟩
      exact ⟨hresolved, hworth, hflash, capacity, rfl⟩

/-! ## The windows of a sizing -/

/-- What a window has to keep: the floor below it, and no cap inside it. -/
structure SafeWindow (input : SizingInput) (w : Window) : Prop where
  floor_le : w.economicFloor ≤ w.low
  low_lt : w.low < w.high
  flash : ∀ cap ∈ input.flashCap w.startRate w.startDecimals, w.high ≤ cap
  liquidity : ∀ cap ∈ input.liquidityCap, w.high ≤ cap

/-- The windows a sizing makes: the one it opens, and the ones its stages pass on.  A route without ticks
whose cap is below the floor has no stages. -/
inductive Makes (input : SizingInput) (seeds : Option (List ProbeSeed)) : Window → Prop
  | opened {w : Window} {flashCap : Option U256} (hopen : input.openWindow = some (w, flashCap)) :
      Makes input seeds w
  | adjusted {w w' : Window} {flashCap : Option U256} {shallowCaps : Option ShallowCaps}
      (hopen : input.openWindow = some (w, flashCap))
      (hcaps : precomputeRouteShallowCaps input.arena input.cycle.edges = some shallowCaps)
      (htrade : (input.ticklessCap.filter fun cap => cap = 0 ∨ cap < w.economicFloor) = none)
      (hpass : Passes (input.windowStages seeds flashCap) { w with shallowCaps := shallowCaps } w') :
      Makes input seeds w'

/-- Every window is safe, and where none is the sizing returns nothing. -/
structure SizesSafely (input : SizingInput) (seeds : Option (List ProbeSeed)) : Prop where
  safe : ∀ w, Makes input seeds w → SafeWindow input w
  searched : ∀ order samples result,
    input.optimizeCycleSeeded seeds order samples = some (some result) →
      ∃ w, Makes input seeds w ∧ (input.searchSeeded seeds order w samples = some (some result) ∨
        ∃ cap ∈ input.ticklessCap, ∃ caps,
          input.optimizeAtAmountCap { w with shallowCaps := caps } cap = some (some result))
  otherwise : (∀ w, ¬ Makes input seeds w) →
    ∀ order samples, input.optimizeCycleSeeded seeds order samples = some none

/-- The caps and the seeds of an input leave room for a window. -/
structure LeavesRoom (input : SizingInput) (seeds : Option (List ProbeSeed)) (startRate : U256)
    (startDecimals : BitVec 8) (capacity : U256) : Prop where
  liquidity : ∀ cap ∈ input.liquidityCap, floor startRate startDecimals < cap
  flash : ∀ flash ∈ input.flashCap startRate startDecimals,
    smallest startRate startDecimals capacity < flash ∨ ∃ cap ∈ input.liquidityCap, cap ≤ flash
  seeds : (precomputeRouteShallowCaps input.arena input.cycle.edges).isSome = true →
    (∀ tickless ∈ input.ticklessCap, input.bottom startRate startDecimals capacity < tickless) →
    ∀ seed ∈ seeds.bind maxFeasibleSeed, ∀ cap ∈ input.liquidityCap,
      cutTo (input.flashCap startRate startDecimals) (min (seedHigh (some input.profitCtx) seed)
        (saturatingMul (cutTo input.ticklessCap (input.ceiling startRate startDecimals capacity))
          16#256)) ≤ cap

variable {seeds : Option (List ProbeSeed)}

/-! ## The stages keep a window safe -/

lemma largestFeasible_mem {fails : U256 → Run Bool} {n : ℕ} {lo hi r : U256}
    (h : largestFeasible fails n lo hi = some r) (hle : lo.toNat ≤ hi.toNat) :
    lo.toNat ≤ r.toNat ∧ r.toNat ≤ hi.toNat := by
  induction n generalizing lo hi with
  | zero =>
      cases h
      exact ⟨le_refl _, hle⟩
  | succ n ih =>
      rw [largestFeasible] at h
      split_ifs at h with hnear
      · cases h
        exact ⟨le_refl _, hle⟩
      · have hmid : (lo + (hi - lo) / 2#256).toNat = lo.toNat + (hi.toNat - lo.toNat) / 2 := by
          have hhi := toNat_lt hi
          rw [BitVec.toNat_add, BitVec.toNat_udiv, toNat_sub_of_le hle]
          have htwo : (2#256).toNat = 2 := rfl
          rw [htwo]
          omega
        rcases Option.bind_eq_some_iff.mp h with ⟨failed, -, hrun⟩
        split_ifs at hrun with hfailed
        · have hbounds := ih hrun (by omega)
          omega
        · have hbounds := ih hrun (by omega)
          omega

/-- Five percent off is not more. -/
lemma haircut_le (x : U256) : (saturatingMul x 95#256 / 100#256).toNat ≤ x.toNat := by
  have hx := toNat_lt x
  rw [BitVec.toNat_udiv, toNat_saturatingMul]
  have h95 : (95#256).toNat = 95 := rfl
  have h100 : (100#256).toNat = 100 := rfl
  rw [h95, h100]
  omega

/-- The vault's clamp starts at the old lower end or the floor, and stays below the old upper end. -/
lemma balancerMaxInHighClamp_clamped {arena : StateArena} {edges : List Edge}
    {low high economicFloor low' high' : U256} (hlt : low < high) (hfloor : economicFloor ≤ low)
    (h : balancerMaxInHighClamp arena edges low high economicFloor = some (some (.clamped low' high'))) :
    economicFloor ≤ low' ∧ high' ≤ high := by
  rw [lt_iff] at hlt
  rw [le_iff] at hfloor ⊢
  rw [le_iff]
  simp only [balancerMaxInHighClamp] at h
  by_cases hnone : high ≤ low ∨ (edges.any fun e => e.protocol = .balancerV2) = false
  · rw [if_pos hnone] at h
    cases h
  rw [if_neg hnone] at h
  rcases Option.bind_eq_some_iff.mp h with ⟨hitsLow, -, h⟩
  cases hitsLow with
  | true =>
      by_cases hzero : min economicFloor low = 0
      · simp only [hzero, if_true] at h
        cases h
      simp only [if_true, if_neg hzero] at h
      have hmin : (min economicFloor low).toNat = economicFloor.toNat := by
        rw [toNat_min]
        omega
      rcases Option.bind_eq_some_iff.mp h with ⟨hitsFloor, -, h⟩
      cases hitsFloor with
      | true => cases h
      | false =>
          rcases Option.bind_eq_some_iff.mp h with ⟨lo, hlo, h⟩
          have hmem := largestFeasible_mem hlo (by omega)
          have hcut := haircut_le lo
          split_ifs at h with hcap
          · cases h
            simp only [toNat_min, toNat_max] at hmem hmin ⊢
            omega
          · cases h
            simp only [toNat_min, toNat_max] at hmem hmin ⊢
            omega
  | false =>
      rcases Option.bind_eq_some_iff.mp h with ⟨hitsHigh, -, h⟩
      cases hitsHigh with
      | false => cases h
      | true =>
          rcases Option.bind_eq_some_iff.mp h with ⟨lo, -, h⟩
          generalize (if saturatingMul lo 95#256 / 100#256 ≤ low then saturatingAdd low 1#256
            else saturatingMul lo 95#256 / 100#256) = clamped at h
          by_cases hclamped : clamped < high
          · rw [if_pos hclamped] at h
            cases h
            rw [lt_iff] at hclamped
            omega
          · rw [if_neg hclamped] at h
            cases h

lemma clampBrentHighToClFeasible_clamped {arena : StateArena} {edges : List Edge}
    {low high economicFloor high' : U256} {shallowCaps : Option ShallowCaps}
    (h : clampBrentHighToClFeasible arena edges low high economicFloor shallowCaps =
      some (.clamped high')) : high' ≤ high := by
  simp only [clampBrentHighToClFeasible] at h
  by_cases hcl : routeHasClHop edges = false
  · rw [if_pos hcl] at h
    cases h
  rw [if_neg hcl] at h
  rcases Option.bind_eq_some_iff.mp h with ⟨failsHigh, -, h⟩
  cases failsHigh with
  | false => cases h
  | true =>
      simp only [Bool.not_true, Bool.false_eq_true, if_false] at h
      generalize (if low < economicFloor then economicFloor else low) = floor at h
      by_cases hle : high ≤ floor
      · rw [if_pos hle] at h
        cases h
      rw [if_neg hle] at h
      rcases Option.bind_eq_some_iff.mp h with ⟨failsFloor, -, h⟩
      cases failsFloor with
      | true => cases h
      | false =>
          rcases Option.bind_eq_some_iff.mp h with ⟨lo, -, h⟩
          by_cases hlo : lo < high ∧ floor ≤ lo
          · rw [if_pos hlo] at h
            cases h
            exact BitVec.le_of_lt hlo.1
          · rw [if_neg hlo] at h
            cases h

lemma SafeWindow.shrink {w : Window} (h : SafeWindow input w) {low high : U256}
    (hfloor : w.economicFloor ≤ low) (hlt : low < high) (hle : high ≤ w.high) :
    SafeWindow input { w with low := low, high := high } where
  floor_le := hfloor
  low_lt := hlt
  flash := fun cap hcap => BitVec.le_trans hle (h.flash cap hcap)
  liquidity := fun cap hcap => BitVec.le_trans hle (h.liquidity cap hcap)

/-- The cap of a route without ticks passes a window on exactly when it lies above its lower end. -/
lemma clampToTickless_eq_some {w w' : Window} (hlt : w.low < w.high) :
    input.clampToTickless w = some (some w') ↔
      (∀ cap ∈ input.ticklessCap, w.low < cap) ∧
        w' = { w with high := cutTo input.ticklessCap w.high } := by
  rw [clampToTickless]
  cases hcap : input.ticklessCap with
  | none =>
      constructor
      · intro h
        cases h
        exact ⟨by simp, rfl⟩
      · rintro ⟨-, rfl⟩
        rfl
  | some cap =>
      have hiff : min w.high cap ≤ w.low ↔ ¬ w.low < cap := by
        rw [lt_iff] at hlt
        rw [le_iff, toNat_min, lt_iff]
        omega
      by_cases hcut : w.low < cap
      · simp only [hiff, hcut, not_true, if_false, Option.mem_def, Option.some.injEq, forall_eq', true_and]
        exact ⟨fun h => (Option.some.inj (Option.some.inj h)).symm, fun h => h ▸ rfl⟩
      · simp [hiff, hcut]

lemma SafeWindow.clampToVault {w w' : Window} (h : SafeWindow input w)
    (hstage : input.clampToVault w = some (some w')) : SafeWindow input w' := by
  rcases Option.bind_eq_some_iff.mp hstage with ⟨clamp, hclamp, hstage⟩
  cases clamp with
  | none =>
      cases hstage
      exact h
  | some clamp =>
      cases clamp with
      | windowInfeasible => cases hstage
      | clamped low high =>
          rcases balancerMaxInHighClamp_clamped h.low_lt h.floor_le hclamp with ⟨hfloor, hle⟩
          by_cases hempty : high ≤ low
          · simp [hempty] at hstage
          · simp only [if_neg hempty] at hstage
            cases hstage
            exact h.shrink hfloor (BitVec.not_le.mp hempty) hle

lemma SafeWindow.clampToDepth {w w' : Window} (h : SafeWindow input w)
    (hstage : input.clampToDepth w = some (some w')) : SafeWindow input w' := by
  rcases Option.bind_eq_some_iff.mp hstage with ⟨clamp, hclamp, hstage⟩
  cases clamp with
  | noop =>
      cases hstage
      exact h
  | windowInfeasible => cases hstage
  | clamped high =>
      by_cases hempty : high ≤ w.low
      · simp [hempty] at hstage
      · simp only [if_neg hempty] at hstage
        cases hstage
        exact h.shrink h.floor_le (BitVec.not_le.mp hempty)
          (clampBrentHighToClFeasible_clamped hclamp)

/-- A seed that is re-included lies between the floor and the window. -/
lemma seedBelow_mem {low high economicFloor s : U256} {seeds : List ProbeSeed}
    (h : seedBelow low high economicFloor seeds = some s) : economicFloor ≤ s ∧ s < low := by
  simp only [seedBelow] at h
  split_ifs at h with hany
  generalize hbelow : (seeds.filter fun seed => seed.2.profit ≠ 0).filter
    (fun seed => decide (seed.1 < low ∧ economicFloor ≤ seed.1)) = below at h
  rcases Option.filter_eq_some_iff.mp h with ⟨hs, hne⟩
  have hfold : ∀ best, best = List.foldl (fun best seed => if best < seed.1 then seed.1 else best) 0
      below → best = 0 ∨ (economicFloor ≤ best ∧ best < low) := by
    rintro best rfl
    refine List.foldlRecOn below _ (motive := fun best => best = 0 ∨ (economicFloor ≤ best ∧ best < low))
      (.inl rfl) ?_
    intro best hbest seed hseed
    split_ifs with hlt
    · have hmem := (List.mem_filter.mp (hbelow ▸ hseed)).2
      rw [decide_eq_true_iff] at hmem
      exact .inr ⟨hmem.2, hmem.1⟩
    · exact hbest
  rcases hfold s (Option.some.inj hs).symm with hzero | hmem
  · simp [hzero] at hne
  · exact hmem

lemma SafeWindow.reincludeSeeds {w w' : Window} (h : SafeWindow input w)
    (hstage : SizingInput.reincludeSeeds seeds w = some (some w')) : SafeWindow input w' := by
  rw [SizingInput.reincludeSeeds] at hstage
  cases hbelow : seeds.bind (seedBelow w.low w.high w.economicFloor) with
  | none =>
      rw [hbelow] at hstage
      cases hstage
      exact h
  | some low =>
      rw [hbelow] at hstage
      rcases Option.bind_eq_some_iff.mp hbelow with ⟨list, -, hlist⟩
      rcases seedBelow_mem hlist with ⟨hfloor, hlow⟩
      have hlt : low < w.high := BitVec.lt_trans hlow h.low_lt
      have hkeep : ¬ w.high ≤ low := BitVec.not_le.mpr hlt
      simp only [if_neg hkeep] at hstage
      cases hstage
      exact h.shrink hfloor hlt (BitVec.le_refl _)

/-- The seeds raise the upper end towards their own, or lower it within the window. -/
lemma clampBrentHighToProbeSeeds_cases {high low economicFloor clamped : U256}
    {flashCap : Option U256} {seeds : List ProbeSeed} {ctx : Option ProfitEvalContext}
    (hlt : low < high)
    (h : clampBrentHighToProbeSeeds high low economicFloor flashCap seeds ctx = some clamped) :
    (∃ seed ∈ maxFeasibleSeed seeds,
      high < min (seedHigh ctx seed) (saturatingMul high 16#256) ∧
        clamped = cutTo flashCap (min (seedHigh ctx seed) (saturatingMul high 16#256))) ∨
      (low < clamped ∧ clamped ≤ high) := by
  rcases Option.bind_eq_some_iff.mp h with ⟨seed, hseed, h⟩
  dsimp only at h
  split_ifs at h with hfloor hraise hraised hsame hlow
  · cases h
    exact .inl ⟨seed, hseed, hraised, rfl⟩
  · cases h
    refine .inr ?_
    have hhigh := toNat_lt high
    rw [lt_iff] at hlt
    simp only [lt_iff, le_iff, toNat_saturatingAdd, BitVec.toNat_ofNat]
    omega
  · cases h
    refine .inr ⟨BitVec.not_le.mp hlow, BitVec.le_of_lt (BitVec.not_le.mp hsame)⟩

/-- A seed that reaches beyond a cap above the window is followed. -/
lemma clampBrentHighToProbeSeeds_of_lt {high low economicFloor cap : U256} {flashCap : Option U256}
    {seeds : List ProbeSeed} {seed : ProbeSeed} {ctx : Option ProfitEvalContext}
    (hseed : seed ∈ maxFeasibleSeed seeds) (hhigh : high ≤ cap) (hfloor : economicFloor ≤ cap)
    (hlt : cap < cutTo flashCap (min (seedHigh ctx seed) (saturatingMul high 16#256))) :
    clampBrentHighToProbeSeeds high low economicFloor flashCap seeds ctx =
      some (cutTo flashCap (min (seedHigh ctx seed) (saturatingMul high 16#256))) := by
  have hcut := cutTo_le_self flashCap (min (seedHigh ctx seed) (saturatingMul high 16#256))
  rw [lt_iff] at hlt
  rw [le_iff] at hhigh hfloor
  rw [toNat_min] at hcut
  have habove : ¬ seedHigh ctx seed < economicFloor := by rw [lt_iff]; omega
  have hraise : high < seedHigh ctx seed := by rw [lt_iff]; omega
  have hraised : high < min (seedHigh ctx seed) (saturatingMul high 16#256) := by
    rw [lt_iff, toNat_min]
    omega
  rw [Option.mem_def] at hseed
  simp only [clampBrentHighToProbeSeeds, hseed, Option.bind_eq_bind, Option.bind_some, if_neg habove,
    if_pos hraise, if_pos hraised]
  rfl

/-- The stage of the seeds keeps a window safe as long as it does not raise it above the liquidity cap. -/
lemma SafeWindow.clampToSeeds {w w' : Window} (h : SafeWindow input w)
    (hroom : ∀ seed ∈ seeds.bind maxFeasibleSeed, ∀ cap ∈ input.liquidityCap,
      cutTo (input.flashCap w.startRate w.startDecimals)
        (min (seedHigh (some input.profitCtx) seed) (saturatingMul w.high 16#256)) ≤ cap)
    (hstage : input.clampToSeeds seeds (input.flashCap w.startRate w.startDecimals) w =
      some (some w')) : SafeWindow input w' := by
  simp only [SizingInput.clampToSeeds] at hstage
  cases hstage
  cases hclamp : seeds.bind fun seeds => clampBrentHighToProbeSeeds w.high w.low w.economicFloor
      (input.flashCap w.startRate w.startDecimals) seeds (some input.profitCtx) with
  | none => exact h
  | some clamped =>
      rcases Option.bind_eq_some_iff.mp hclamp with ⟨list, hlist, hclamped⟩
      rcases clampBrentHighToProbeSeeds_cases h.low_lt hclamped with ⟨seed, hseed, hraised, rfl⟩ | hwithin
      · have hmem : seed ∈ seeds.bind maxFeasibleSeed := Option.bind_eq_some_iff.mpr ⟨list, hlist, hseed⟩
        refine ⟨h.floor_le, ?_, ?_, ?_⟩
        · have hlow := h.low_lt
          rw [lt_iff] at hlow hraised
          rw [Option.getD_some, lt_iff]
          cases hflash : input.flashCap w.startRate w.startDecimals with
          | none =>
              rw [cutTo_none]
              exact lt_trans hlow hraised
          | some flash =>
              have hwithin := le_iff.mp (h.flash flash hflash)
              rw [toNat_cutTo_some]
              exact lt_min (lt_trans hlow hraised) (lt_of_lt_of_le hlow hwithin)
        · exact fun cap hcap => le_iff.mpr (cutTo_le hcap _)
        · exact fun cap hcap => hroom seed hmem cap hcap
      · exact h.shrink h.floor_le hwithin.1 hwithin.2

/-! ## Opening the window -/

lemma openWindow_eq_some {w : Window} {flashCap : Option U256}
    (h : input.openWindow = some (w, flashCap)) :
    (∃ capacity, input.Sizable w.startRate w.startDecimals capacity) ∧
      flashCap = input.flashCap w.startRate w.startDecimals ∧
      w.economicFloor = floor w.startRate w.startDecimals ∧
      input.computeTernarySearchBounds w.startRate w.startDecimals = some ⟨w.low, w.high, flashCap⟩ := by
  rcases Option.bind_eq_some_iff.mp h with ⟨startRate, hrate, h⟩
  rcases Option.bind_eq_some_iff.mp h with ⟨startDecimals, hdecimals, h⟩
  split_ifs at h with hzero
  rcases Option.bind_eq_some_iff.mp h with ⟨bounds, hbounds, h⟩
  cases h
  rcases bounds_eq_some hzero hbounds with ⟨hresolved, hworth, hflash, capacity, hcapacity⟩
  exact ⟨⟨capacity, hrate, hzero, hdecimals, hresolved, hcapacity, hworth⟩, hflash, rfl, hbounds⟩

lemma Sizable.openWindow (h : input.Sizable startRate startDecimals capacity) :
    ∃ w, input.openWindow = some (w, input.flashCap startRate startDecimals) ∧
      w.startRate = startRate ∧ w.startDecimals = startDecimals := by
  rcases h.exists_bounds with ⟨bounds, hbounds⟩
  rcases bounds_eq_some h.priced hbounds with ⟨-, -, hflash, -⟩
  refine ⟨⟨bounds.low, bounds.high, floor startRate startDecimals, startDecimals, startRate, none⟩,
    ?_, rfl, rfl⟩
  simp only [SizingInput.openWindow, h.rate, h.decimals, hbounds, if_neg h.priced,
    Option.bind_eq_bind, Option.bind_some, ← hflash]
  rfl

/-- The window stays within the flash cap when the cap is above the smallest size, or not below the
liquidity cap. -/
lemma Sizable.ceiling_le_iff (h : input.Sizable startRate startDecimals capacity) {flash : U256}
    (hflash : flash ∈ input.flashCap startRate startDecimals) :
    input.ceiling startRate startDecimals capacity ≤ flash ↔
      smallest startRate startDecimals capacity < flash ∨ ∃ cap ∈ input.liquidityCap, cap ≤ flash := by
  have hsucc := h.smallest_lt
  have hlargest : (input.largest startRate startDecimals capacity).toNat ≤ flash.toNat := cutTo_le hflash _
  rw [le_iff, lt_iff, ceiling]
  cases hcap : input.liquidityCap with
  | none =>
      simp only [cutTo_none, toNat_max, BitVec.toNat_add, BitVec.toNat_ofNat, Option.not_mem_none,
        false_and, exists_false, or_false]
      omega
  | some cap =>
      simp only [toNat_cutTo_some, toNat_max, BitVec.toNat_add, BitVec.toNat_ofNat, Option.mem_def,
        Option.some.injEq, exists_eq_left', le_iff]
      omega

/-- An opened window is safe exactly when the caps leave room for it. -/
lemma safeWindow_open_iff {w : Window} {flashCap : Option U256}
    (hopen : input.openWindow = some (w, flashCap))
    (h : input.Sizable w.startRate w.startDecimals capacity) :
    SafeWindow input w ↔
      (∀ cap ∈ input.liquidityCap, floor w.startRate w.startDecimals < cap) ∧
      ∀ flash ∈ input.flashCap w.startRate w.startDecimals,
        smallest w.startRate w.startDecimals capacity < flash ∨
          ∃ cap ∈ input.liquidityCap, cap ≤ flash := by
  rcases openWindow_eq_some hopen with ⟨-, -, hfloor, hbounds⟩
  constructor
  · intro hsafe
    have hroom : ∀ cap ∈ input.liquidityCap, floor w.startRate w.startDecimals < cap := by
      intro cap hcap
      have hle := le_iff.mp hsafe.floor_le
      have hlt := lt_iff.mp hsafe.low_lt
      have hcap := le_iff.mp (hsafe.liquidity cap hcap)
      rw [hfloor] at hle
      rw [lt_iff]
      omega
    refine ⟨hroom, ?_⟩
    intro flash hflash
    have hclosed := (h.bounds_of_room hroom).1
    rw [hbounds, Option.some.injEq, TernarySearchBounds.mk.injEq] at hclosed
    rw [← h.ceiling_le_iff hflash, ← hclosed.2.1]
    exact hsafe.flash flash hflash
  · rintro ⟨hroom, hflash⟩
    rcases h.bounds_of_room hroom with ⟨hclosed, hle, hlt⟩
    rw [hbounds, Option.some.injEq, TernarySearchBounds.mk.injEq] at hclosed
    refine ⟨?_, ?_, ?_, ?_⟩
    · rw [hfloor, hclosed.1]
      exact hle
    · rw [hclosed.1, hclosed.2.1]
      exact hlt
    · intro flash hmem
      rw [hclosed.2.1]
      exact (h.ceiling_le_iff hmem).mpr (hflash flash hmem)
    · intro cap hmem
      rw [hclosed.2.1, le_iff]
      exact cutTo_le hmem _

/-! ## The sizing as a whole -/

lemma searched_of_optimizeCycleSeeded
    {order : List (U256 × MinimalSimResult) → List (U256 × MinimalSimResult)} {samples : ℕ}
    {result : OptimizationResult}
    (h : input.optimizeCycleSeeded seeds order samples = some (some result)) :
    ∃ w, Makes input seeds w ∧ (input.searchSeeded seeds order w samples = some (some result) ∨
      ∃ cap ∈ input.ticklessCap, ∃ caps,
        input.optimizeAtAmountCap { w with shallowCaps := caps } cap = some (some result)) := by
  rw [optimizeCycleSeeded] at h
  cases hopen : input.openWindow with
  | none =>
      rw [hopen] at h
      cases h
  | some opened =>
      rcases opened with ⟨w, flashCap⟩
      rw [hopen] at h
      rcases Option.bind_eq_some_iff.mp h with ⟨caps, hcaps, h⟩
      dsimp only at h
      cases htrade : input.ticklessCap.filter fun cap => cap = 0 ∨ cap < w.economicFloor with
      | some cap =>
          rw [htrade] at h
          dsimp only at h
          split_ifs at h with hzero
          · cases h
          · exact ⟨w, .opened hopen, .inr ⟨cap, (Option.filter_eq_some_iff.mp htrade).1, caps, h⟩⟩
      | none =>
          rw [htrade] at h
          rcases Option.bind_eq_some_iff.mp h with ⟨last, hlast, h⟩
          cases last with
          | none => cases h
          | some w' =>
              exact ⟨w', .adjusted hopen hcaps htrade (passes_of_runStages hlast), .inl h⟩

lemma optimizeCycleSeeded_of_not_makes (hnone : ∀ w, ¬ Makes input seeds w)
    (order : List (U256 × MinimalSimResult) → List (U256 × MinimalSimResult)) (samples : ℕ) :
    input.optimizeCycleSeeded seeds order samples = some none := by
  cases hopen : input.openWindow with
  | none =>
      rw [optimizeCycleSeeded, hopen]
      rfl
  | some opened => exact absurd (.opened hopen) (hnone opened.1)

lemma SafeWindow.clampToTickless {w w' : Window} (h : SafeWindow input w)
    (hstage : input.clampToTickless w = some (some w')) : SafeWindow input w' := by
  rcases (clampToTickless_eq_some h.low_lt).mp hstage with ⟨hcap, rfl⟩
  refine h.shrink h.floor_le ?_ (le_iff.mpr (cutTo_le_self _ _))
  have hlt := lt_iff.mp h.low_lt
  rw [lt_iff]
  cases htickless : input.ticklessCap with
  | none => exact hlt
  | some cap =>
      rw [toNat_cutTo_some]
      exact lt_min hlt (lt_iff.mp (hcap cap htickless))

/-- The window the stage of the seeds starts from, in closed form. -/
lemma open_eq_of_room {w : Window} {flashCap : Option U256}
    (hopen : input.openWindow = some (w, flashCap))
    (h : input.Sizable w.startRate w.startDecimals capacity)
    (hroom : ∀ cap ∈ input.liquidityCap, floor w.startRate w.startDecimals < cap) :
    w.low = input.bottom w.startRate w.startDecimals capacity ∧
      w.high = input.ceiling w.startRate w.startDecimals capacity := by
  have hclosed := (h.bounds_of_room hroom).1
  rw [(openWindow_eq_some hopen).2.2.2, Option.some.injEq, TernarySearchBounds.mk.injEq] at hclosed
  exact ⟨hclosed.1, hclosed.2.1⟩

lemma SafeWindow.withCaps {w : Window} (h : SafeWindow input w) (caps : Option ShallowCaps) :
    SafeWindow input { w with shallowCaps := caps } := ⟨h.floor_le, h.low_lt, h.flash, h.liquidity⟩

/-- Every window of an input that leaves room is safe. -/
lemma LeavesRoom.safe {w : Window} (hmakes : Makes input seeds w)
    (hroom : ∀ startRate startDecimals capacity, input.Sizable startRate startDecimals capacity →
      LeavesRoom input seeds startRate startDecimals capacity) : SafeWindow input w := by
  cases hmakes with
  | opened hopen =>
      rcases (openWindow_eq_some hopen).1 with ⟨capacity, hsizable⟩
      have hleaves := hroom _ _ _ hsizable
      exact (safeWindow_open_iff hopen hsizable).mpr ⟨hleaves.liquidity, hleaves.flash⟩
  | @adjusted w₀ _ flashCap caps hopen hcaps htrade hpass =>
      rcases openWindow_eq_some hopen with ⟨⟨capacity, hsizable⟩, rfl, -, -⟩
      have hleaves := hroom _ _ _ hsizable
      have hsafe := ((safeWindow_open_iff hopen hsizable).mpr
        ⟨hleaves.liquidity, hleaves.flash⟩).withCaps caps
      rcases open_eq_of_room hopen hsizable hleaves.liquidity with ⟨hlow, hhigh⟩
      cases hpass with
      | start => exact hsafe
      | step htickless hpass =>
          have hsafe₁ := hsafe.clampToTickless htickless
          rcases (clampToTickless_eq_some hsafe.low_lt).mp htickless with ⟨habove, rfl⟩
          cases hpass with
          | start => exact hsafe₁
          | step hseeds hpass =>
              have hsafe₂ := by
                refine hsafe₁.clampToSeeds ?_ hseeds
                dsimp only at habove ⊢
                rw [hlow] at habove
                rw [hhigh]
                exact hleaves.seeds (by simp [hcaps]) habove
              refine hpass.inv ?_ hsafe₂
              intro stage hstage s s' hs hrun
              simp only [List.mem_cons, List.not_mem_nil, or_false] at hstage
              rcases hstage with rfl | rfl | rfl
              · exact hs.clampToVault hrun
              · exact hs.clampToDepth hrun
              · exact hs.reincludeSeeds hrun

/-- A seed that reaches beyond the liquidity cap leads to a window that does. -/
lemma SizesSafely.seeds_le (hsafe : SizesSafely input seeds) {w : Window} {flashCap : Option U256}
    (hopen : input.openWindow = some (w, flashCap))
    (hcaps : (precomputeRouteShallowCaps input.arena input.cycle.edges).isSome = true)
    (hbelow : ∀ tickless ∈ input.ticklessCap, w.low < tickless) {seed : ProbeSeed}
    (hseed : seed ∈ seeds.bind maxFeasibleSeed) {cap : U256} (hcap : cap ∈ input.liquidityCap) :
    cutTo flashCap (min (seedHigh (some input.profitCtx) seed)
      (saturatingMul (cutTo input.ticklessCap w.high) 16#256)) ≤ cap := by
  rcases Option.isSome_iff_exists.mp hcaps with ⟨caps, hcaps⟩
  rcases Option.bind_eq_some_iff.mp hseed with ⟨list, rfl, hmax⟩
  have hopened := hsafe.safe w (.opened hopen)
  have htrade : (input.ticklessCap.filter fun cap => cap = 0 ∨ cap < w.economicFloor) = none := by
    rw [Option.filter_eq_none_iff]
    intro tickless hmem
    have hlt := lt_iff.mp (hbelow tickless hmem)
    have hle := le_iff.mp hopened.floor_le
    have hzero : tickless ≠ 0 := by
      rw [Ne, eq_zero_iff]
      omega
    simp only [hzero, lt_iff, false_or, decide_eq_true_eq]
    omega
  have htickless : input.clampToTickless { w with shallowCaps := caps } =
      some (some { w with shallowCaps := caps, high := cutTo input.ticklessCap w.high }) :=
    (clampToTickless_eq_some (hopened.withCaps caps).low_lt).mpr ⟨hbelow, rfl⟩
  by_contra hgt
  rw [BitVec.not_le] at hgt
  have hfloor : w.economicFloor ≤ cap := by
    have hle := le_iff.mp hopened.floor_le
    have hlt := lt_iff.mp hopened.low_lt
    have hcap := le_iff.mp (hopened.liquidity cap hcap)
    rw [le_iff]
    omega
  have hhigh : cutTo input.ticklessCap w.high ≤ cap :=
    le_iff.mpr (le_trans (cutTo_le_self _ _) (le_iff.mp (hopened.liquidity cap hcap)))
  have hseeds : input.clampToSeeds (some list) flashCap
        { w with shallowCaps := caps, high := cutTo input.ticklessCap w.high } =
      some (some
        { w with
          shallowCaps := caps
          high := cutTo flashCap (min (seedHigh (some input.profitCtx) seed)
            (saturatingMul (cutTo input.ticklessCap w.high) 16#256)) }) := by
    simp only [clampToSeeds, Option.bind_some, clampBrentHighToProbeSeeds_of_lt hmax hhigh hfloor hgt]
    rfl
  have hraised := hsafe.safe _ (.adjusted hopen hcaps htrade (.step htickless (.step hseeds .start)))
  have hle := le_iff.mp (hraised.liquidity cap hcap)
  rw [lt_iff] at hgt
  exact absurd hle (Nat.not_le.mpr hgt)

/-- Exactly when the caps and the seeds leave room, no window violates them. -/
theorem sizesSafely_iff (input : SizingInput) (seeds : Option (List ProbeSeed)) :
    SizesSafely input seeds ↔
      ∀ startRate startDecimals capacity, input.Sizable startRate startDecimals capacity →
        LeavesRoom input seeds startRate startDecimals capacity := by
  constructor
  · intro hsafe startRate startDecimals capacity hsizable
    rcases hsizable.openWindow with ⟨w, hopen, rfl, rfl⟩
    have hopened := (safeWindow_open_iff hopen hsizable).mp (hsafe.safe w (.opened hopen))
    rcases open_eq_of_room hopen hsizable hopened.1 with ⟨hlow, hhigh⟩
    refine ⟨hopened.1, hopened.2, ?_⟩
    intro hcaps hbelow seed hseed cap hcap
    rw [← hlow] at hbelow
    rw [← hhigh]
    exact hsafe.seeds_le hopen hcaps hbelow hseed hcap
  · intro hroom
    exact ⟨fun w hmakes => LeavesRoom.safe hmakes hroom,
      fun order samples result h => searched_of_optimizeCycleSeeded h,
      optimizeCycleSeeded_of_not_makes⟩

end SizingInput

/-! ### Deep pools and a small flash cap -/

/-- The round trip over two pairs with 100000 tokens each, sized under a flash cap of ten tokens. -/
def roundTripSizing : SizingInput :=
  { (roundTripInput 0 0).sizing .balancer 0 with liquidityCap := none }

/-- The flash cap is ten tokens, but the search is not to start below twenty: a five-thousandth of the
pools.  The window is repaired to end one above that. -/
theorem roundTripSizing_exceeds_flashCap : ¬ roundTripSizing.SizesSafely none := by
  intro hsafe
  have hsizable : roundTripSizing.Sizable (wholeTokens 1) 18#8 (wholeTokens 100000) :=
    ⟨by decide, by decide, by decide, by decide, by decide,
      by decide⟩
  rcases hsizable.openWindow with ⟨w, hopen, hrate, hdecimals⟩
  rw [← hrate, ← hdecimals] at hsizable
  have hopened := hsafe.safe w (.opened hopen)
  have hflash := ((SizingInput.safeWindow_open_iff hopen hsizable).mp hopened).2 (wholeTokens 10)
  rw [hrate, hdecimals] at hflash
  rcases hflash (by decide) with hlt | ⟨cap, hcap, -⟩
  · revert hlt
    decide
  · cases hcap

end PolygonArb

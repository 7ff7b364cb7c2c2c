import PolygonArb.Services.ProfitExact
import PolygonArb.Services.RouteAssess
import PolygonArb.Services.Submit

/-!
# Fees and gas of a submission

The fee and gas functions of `services/execution/support.rs` and `submit.rs` that a dry run is followed by:
what the transaction bids (`resolveSubmitFeesWithProfit`), what it is expected to pay
(`expectedSubmitGasPrice`), how much gas it may use (`pickLiveGasLimitWithBuffer`) and how much it is
assessed with (`profitReassessGas`).

`SubmitFees.Bids` and `gasLimit_covers` say how these lie to each other: the ceiling of the bid covers the
base fee and the tip, and the limit exceeds the gas the dry run has used.
-/

namespace PolygonArb

open Word

/-- The fees of the last block.  `refresh_once` makes them from a `u64` and a `u128`. -/
structure FeeSnapshot where
  baseFee : U256
  priorityFee : U256
  base_lt : baseFee.toNat < 2 ^ 64
  priority_lt : priorityFee.toNat < 2 ^ 128

/-- The base fee with a buffer of an eighth, and the tip. -/
def computeConservativeGasPrice (snap : FeeSnapshot) : U256 :=
  snap.baseFee * 11250#256 / 10000#256 + max snap.priorityFee minPriorityFeePerGas

/-- `resolve_submit_fees`. -/
def resolveSubmitFees (snap : FeeSnapshot) : SubmitFees :=
  let priorityFee := max snap.priorityFee minPriorityFeePerGas
  { maxFeePerGas := max (computeConservativeGasPrice snap) (snap.baseFee + priorityFee)
    maxPriorityFeePerGas := priorityFee }

/-- `resolve_submit_fees_with_profit`; `tipGasUnits` is a `u64`. -/
def resolveSubmitFeesWithProfit (snap : FeeSnapshot) (expectedProfitMaticWei : U256) (alphaBps : BitVec 64)
    (tipGasUnits : ℕ) : SubmitFees :=
  let priorityFee := max snap.priorityFee minPriorityFeePerGas
  if expectedProfitMaticWei = 0 ∨ alphaBps = 0 ∨ tipGasUnits = 0 then
    { maxFeePerGas := computeConservativeGasPrice snap, maxPriorityFeePerGas := priorityFee }
  else
    let tip := profitPriorityTipPerGas expectedProfitMaticWei alphaBps
      (BitVec.ofNat 32 (min tipGasUnits (2 ^ 32 - 1)))
    let priorityFee := max priorityFee tip
    { maxFeePerGas := max (computeConservativeGasPrice snap) (snap.baseFee + priorityFee)
      maxPriorityFeePerGas := priorityFee }

/-- What the chain charges for the bid. -/
def expectedSubmitGasPrice (baseFee : U256) (fees : SubmitFees) : U256 :=
  saturatingAdd baseFee fees.maxPriorityFeePerGas

/-! ## Gas -/

def gasLimitBufferBps : ℕ := 2500

def gasFallbackBufferBps : ℕ := 5000

def gasFallbackMinScaleBps : ℕ := 20000

/-- `simulated` is a `u32`, `dryRunGas` a `u64`; an observation that is no `u32` is left out. -/
def pickLiveGasLimitWithBuffer (simulatedGas dryRunGas bufferBps : ℕ) : Except String ℕ :=
  if simulatedGas = 0 ∨ dryRunGas = 0 then .error "dry-run passed but gas estimate is zero"
  else
    let base := max simulatedGas (if dryRunGas < 2 ^ 32 then dryRunGas else simulatedGas)
    .ok (base + base * bufferBps / 10000 + 1)

def pickLiveGasLimit (simulatedGas dryRunGas : ℕ) : Except String ℕ :=
  pickLiveGasLimitWithBuffer simulatedGas dryRunGas gasLimitBufferBps

/-- Gas the profit is assessed with after the dry run. -/
def profitReassessGas (observedRouteGas : Option ℕ) (simulatedGas : ℕ) (dryRunGas : Option ℕ)
    (gasFallback : Bool) (simScaleBps : ℕ) : ℕ :=
  match dryRunGas, observedRouteGas with
  | some gas, _ => gas
  | none, some observed => observed
  | none, none =>
      if gasFallback then scaledSimulatedGas simulatedGas (max simScaleBps gasFallbackMinScaleBps)
      else simulatedGas

/-- Gas the limit is made from: the dry run's, else the route's, else the scaled heuristic. -/
def submitGasBasis (observedRouteGas : Option ℕ) (simScaleBps simulatedGas : ℕ) (dryRunGas : Option ℕ) :
    ℕ :=
  match dryRunGas with
  | some gas => gas
  | none =>
      observedRouteGas.getD (scaledSimulatedGas simulatedGas (max simScaleBps gasFallbackMinScaleBps))

/-! ## How they lie to each other -/

section Bounds

variable (snap : FeeSnapshot) (profit : U256) (alphaBps : BitVec 64) (tipGasUnits : ℕ)

lemma toNat_conservativeGasPrice : (computeConservativeGasPrice snap).toNat =
    snap.baseFee.toNat * 11250 / 10000 + max snap.priorityFee.toNat 25000000000 := by
  have hbase := snap.base_lt
  have hpriority := snap.priority_lt
  have hmul : (snap.baseFee * 11250#256).toNat = snap.baseFee.toNat * 11250 :=
    toNat_mul_of_lt (by simp; omega)
  have hdiv : (snap.baseFee * 11250#256 / 10000#256).toNat = snap.baseFee.toNat * 11250 / 10000 := by
    rw [BitVec.toNat_udiv, hmul]
    rfl
  have htip : (max snap.priorityFee minPriorityFeePerGas).toNat = max snap.priorityFee.toNat 25000000000 := by
    rw [toNat_max]
    rfl
  rw [computeConservativeGasPrice, toNat_add_of_lt, hdiv, htip]
  rw [hdiv, htip]
  omega

/-- A bid above the base fee: the tip is within its bounds, and the ceiling is the base fee with up to an
eighth on top, and the tip. -/
structure SubmitFees.Bids (fees : SubmitFees) (snap : FeeSnapshot) : Prop where
  tip_ge : max snap.priorityFee.toNat 25000000000 ≤ fees.maxPriorityFeePerGas.toNat
  tip_le : fees.maxPriorityFeePerGas.toNat ≤ max snap.priorityFee.toNat 200000000000
  ceiling_ge : snap.baseFee.toNat + fees.maxPriorityFeePerGas.toNat ≤ fees.maxFeePerGas.toNat
  ceiling_le : fees.maxFeePerGas.toNat ≤
    snap.baseFee.toNat * 11250 / 10000 + fees.maxPriorityFeePerGas.toNat

lemma resolveSubmitFeesWithProfit_bids :
    (resolveSubmitFeesWithProfit snap profit alphaBps tipGasUnits).Bids snap := by
  have hbase := snap.base_lt
  have hpriority := snap.priority_lt
  have htip : (max snap.priorityFee minPriorityFeePerGas).toNat = max snap.priorityFee.toNat 25000000000 := by
    rw [toNat_max]
    rfl
  rw [resolveSubmitFeesWithProfit]
  split_ifs with hplain
  · constructor
    · simp only [htip, le_refl]
    · simp only [htip]
      omega
    · simp only [htip, toNat_conservativeGasPrice]
      omega
    · simp only [htip, toNat_conservativeGasPrice, le_refl]
  · set tip := profitPriorityTipPerGas profit alphaBps (BitVec.ofNat 32 (min tipGasUnits (2 ^ 32 - 1)))
      with htipdef
    have hcap : tip.toNat ≤ 200000000000 := by
      rw [htipdef, profitPriorityTipPerGas_toNat]
      exact min_le_right _ _
    have hbid : (max (max snap.priorityFee minPriorityFeePerGas) tip).toNat =
        max (max snap.priorityFee.toNat 25000000000) tip.toNat := by
      rw [toNat_max, htip]
    have hsum : (snap.baseFee + max (max snap.priorityFee minPriorityFeePerGas) tip).toNat =
        snap.baseFee.toNat + max (max snap.priorityFee.toNat 25000000000) tip.toNat := by
      rw [toNat_add_of_lt, hbid]
      rw [hbid]
      omega
    constructor
    · simp only [hbid]
      exact le_max_left _ _
    · simp only [hbid]
      omega
    · simp only [toNat_max (computeConservativeGasPrice snap), hsum, hbid]
      exact le_max_right _ _
    · simp only [toNat_max (computeConservativeGasPrice snap), hsum, hbid, toNat_conservativeGasPrice]
      omega

variable {snap}

/-- The price that is expected at a later base fee; the sum does not saturate. -/
lemma SubmitFees.Bids.toNat_expected {fees : SubmitFees} (h : fees.Bids snap) (later : FeeSnapshot) :
    (expectedSubmitGasPrice later.baseFee fees).toNat =
      later.baseFee.toNat + fees.maxPriorityFeePerGas.toNat := by
  have hbase := later.base_lt
  have htip := h.tip_le
  have hpriority := snap.priority_lt
  rw [expectedSubmitGasPrice, toNat_saturatingAdd]
  omega

variable {simulatedGas dryRunGas bufferBps limit : ℕ}

/-- The limit exceeds both estimates, where they are read, and is a word. -/
lemma gasLimit_covers (hsim : simulatedGas < 2 ^ 32) (hbuffer : bufferBps ≤ 10000)
    (hlimit : pickLiveGasLimitWithBuffer simulatedGas dryRunGas bufferBps = .ok limit) :
    simulatedGas < limit ∧ (dryRunGas < 2 ^ 32 → dryRunGas < limit) ∧ limit < 2 ^ 34 := by
  have hnonzero : ¬ (simulatedGas = 0 ∨ dryRunGas = 0) := by
    intro hzero
    rw [pickLiveGasLimitWithBuffer, if_pos hzero] at hlimit
    contradiction
  rw [pickLiveGasLimitWithBuffer, if_neg hnonzero] at hlimit
  simp only [Except.ok.injEq] at hlimit
  set base := max simulatedGas (if dryRunGas < 2 ^ 32 then dryRunGas else simulatedGas) with hbase
  have hbase_lt : base < 2 ^ 32 := by
    rw [hbase]
    split_ifs <;> omega
  have hsim_le : simulatedGas ≤ base := le_max_left _ _
  have hbuffered : base * bufferBps / 10000 ≤ base := by
    refine Nat.div_le_of_le_mul ?_
    calc base * bufferBps ≤ base * 10000 := Nat.mul_le_mul_left _ hbuffer
      _ = 10000 * base := Nat.mul_comm _ _
  refine ⟨by omega, ?_, by omega⟩
  intro hgas
  have hgas_le : dryRunGas ≤ base := by
    rw [hbase, if_pos hgas]
    exact le_max_right _ _
  omega

end Bounds

end PolygonArb

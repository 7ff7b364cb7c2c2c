import PolygonArb.Services.PartialCache

/-!
# The data of a swap event

`decode_v3_swap` against the event it reads.  `V3SwapEvent.data` is the ABI encoding of the fields
that are not indexed: five words, the signed ones in two's complement.

The decoder takes the liquidity from one 64-bit limb of its word.  It inverts the encoding for a pool
whose liquidity fits that limb, and for no other (`decodeV3Swap_data_iff`).
-/

namespace PolygonArb

open Word ByteFormat

/-- `Swap(address,address,int256,int256,uint160,uint128,int24)`, less the two addresses, which are
topics. -/
structure V3SwapEvent where
  amount0 : BitVec 256
  amount1 : BitVec 256
  sqrtPriceX96 : BitVec 160
  liquidity : BitVec 128
  tick : BitVec 24
  deriving DecidableEq

/-- One ABI word. -/
def abiWord (v : U256) : List Byte := toBe 32 v.toNat

@[simp] lemma length_abiWord (v : U256) : (abiWord v).length = 32 := length_toBe 32 v.toNat

namespace V3SwapEvent

variable (event : V3SwapEvent)

def words : List U256 :=
  [event.amount0, event.amount1, event.sqrtPriceX96.setWidth 256, event.liquidity.setWidth 256,
    event.tick.signExtend 256]

def data : List Byte := event.words.flatMap abiWord

/-- What the decoder should make of the event. -/
def slot : LogPatch :=
  .v3Slot (event.sqrtPriceX96.setWidth 256) event.liquidity.toNat event.tick.toInt

end V3SwapEvent

/-! ## Words -/

lemma wordAt_cons (v : U256) (rest : List Byte) : wordAt (abiWord v ++ rest) 0 = v := by
  have hv : v.toNat < 256 ^ 32 := v.isLt
  simp only [wordAt, List.drop_zero]
  rw [List.take_left' (length_abiWord v), abiWord, ofBe_toBe hv, BitVec.ofNat_toNat, BitVec.setWidth_eq]

lemma wordAt_skip (v : U256) (rest : List Byte) (i : ℕ) :
    wordAt (abiWord v ++ rest) (32 + i) = wordAt rest i := by
  have hdrop : (abiWord v ++ rest).drop (32 + i) = rest.drop i := by
    rw [← List.drop_drop, List.drop_left' (length_abiWord v)]
  simp only [wordAt, hdrop]

/-- The words of an encoding are read back one by one. -/
lemma wordAt_flatMap (words : List U256) (i : ℕ) (h : i < words.length) :
    wordAt (words.flatMap abiWord) (32 * i) = words[i] := by
  induction words generalizing i with
  | nil => simp at h
  | cons v words ih =>
      rw [List.flatMap_cons]
      cases i with
      | zero => exact wordAt_cons v _
      | succ i =>
          rw [Nat.mul_succ, Nat.add_comm, wordAt_skip]
          exact ih i (by simpa using h)

lemma length_flatMap_abiWord (words : List U256) :
    (words.flatMap abiWord).length = 32 * words.length := by
  induction words with
  | nil => rfl
  | cons v words ih => simp [ih]; omega

/-- Truncating a sign extension undoes it. -/
lemma setWidth_signExtend (tick : BitVec 24) : (tick.signExtend 256).setWidth 24 = tick := by
  ext i hi
  simp [BitVec.getLsbD_signExtend, hi]
  omega

/-! ## The decoder -/

variable (event : V3SwapEvent)

lemma length_data : event.data.length = 160 := length_flatMap_abiWord event.words

/-- What the decoder makes of the event. -/
lemma decodeV3Swap_data :
    decodeV3Swap event.data =
      some (.v3Slot (event.sqrtPriceX96.setWidth 256) (event.liquidity.toNat % 2 ^ 64)
        event.tick.toInt) := by
  have hprice : wordAt event.data 64 = event.sqrtPriceX96.setWidth 256 :=
    wordAt_flatMap event.words 2 (by simp [V3SwapEvent.words])
  have hliquidity : wordAt event.data 96 = event.liquidity.setWidth 256 :=
    wordAt_flatMap event.words 3 (by simp [V3SwapEvent.words])
  have htick : wordAt event.data 128 = event.tick.signExtend 256 :=
    wordAt_flatMap event.words 4 (by simp [V3SwapEvent.words])
  have hwiden : (event.liquidity.setWidth 256).toNat = event.liquidity.toNat :=
    toNat_widen (by norm_num) event.liquidity
  rw [decodeV3Swap, length_data, if_neg (by omega), hprice, hliquidity, htick, hwiden,
    signExtendTick24, setWidth_signExtend]

lemma decodeV3Swap_short {data : List Byte} (h : data.length < 160) : decodeV3Swap data = none := by
  rw [decodeV3Swap, if_pos h]

/-- The decoder inverts the encoding exactly for the liquidities of one limb; short data is always
rejected. -/
theorem decodeV3Swap_data_iff :
    (decodeV3Swap event.data = some event.slot ↔ event.liquidity.toNat < 2 ^ 64) ∧
      ∀ data : List Byte, data.length < 160 → decodeV3Swap data = none := by
  refine ⟨?_, fun data h => decodeV3Swap_short h⟩
  rw [decodeV3Swap_data, V3SwapEvent.slot]
  simp only [Option.some.injEq, LogPatch.v3Slot.injEq, true_and, and_true]
  constructor
  · intro h
    rw [← h]
    exact Nat.mod_lt _ (by norm_num)
  · exact Nat.mod_eq_of_lt

/-- A pool at price one with a liquidity of `2 ^ 64` and a tick below zero. -/
def deepPoolSwap : V3SwapEvent where
  amount0 := 1000#256
  amount1 := -999#256
  sqrtPriceX96 := 1#160 <<< 96
  liquidity := 1#128 <<< 64
  tick := -1#24

/-- The decoder sees no liquidity there. -/
theorem decodeV3Swap_deepPoolSwap :
    decodeV3Swap deepPoolSwap.data = some (.v3Slot (1#256 <<< 96) 0 (-1)) ∧
      deepPoolSwap.slot = .v3Slot (1#256 <<< 96) (2 ^ 64) (-1) ∧
      decodeV3Swap deepPoolSwap.data ≠ some deepPoolSwap.slot := by
  decide +kernel

end PolygonArb

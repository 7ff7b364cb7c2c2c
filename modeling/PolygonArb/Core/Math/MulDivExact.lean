import Mathlib.Algebra.Order.Floor.Semiring
import Mathlib.Data.Rat.Floor
import PolygonArb.Core.Math.MulDiv
import PolygonArb.Lib.ByteFormat

/-!
# The multiply-divide family is exact

`core/math/mod.rs` with `u512_to_u256_checked` of `util.rs`: the wide path as the source has it, on 512-bit words
that are cut down byte by byte.  It computes the same quotient as the path through the 256-bit product, so it
does not matter which of them is taken (`mulDivFloorWide_eq`, `mulDivCeilWide_eq`).
-/

namespace PolygonArb

open Word ByteFormat

/-! ## The wide path -/

/-- The bytes of a 512-bit word, the least significant first. -/
def asLeSlice (v : BitVec 512) : List Byte := (toBe 64 v.toNat).reverse

def fromLeBytes (bytes : List Byte) : U256 := BitVec.ofNat 256 (ofBe bytes.reverse)

/-- The low half, if the high half is empty. -/
def u512ToU256Checked (v : BitVec 512) : Option U256 :=
  let raw := asLeSlice v
  if (raw.drop 32).any fun b => b ≠ 0 then none else some (fromLeBytes (raw.take 32))

def wideProduct (a b : U256) : BitVec 512 := a.setWidth 512 * b.setWidth 512

def mulDivFloorWide (a b denominator : U256) : Option U256 :=
  u512ToU256Checked (wideProduct a b / denominator.setWidth 512)

def mulDivCeilWide (a b denominator : U256) : Option U256 := do
  let product := wideProduct a b
  let den := denominator.setWidth 512
  let result ← u512ToU256Checked (product / den)
  if product % den > 0 then checkedAdd result 1 else some result

section Wide

variable (a b d : U256)

lemma any_toBe (k n : ℕ) (h : n < 256 ^ k) : ((toBe k n).any fun b => b ≠ 0) = true ↔ n ≠ 0 := by
  constructor
  · rintro hany rfl
    rw [toBe_zero, List.any_eq_true] at hany
    rcases hany with ⟨b, hb, hne⟩
    rw [List.eq_of_mem_replicate hb] at hne
    simp at hne
  · intro hne
    by_contra hnone
    rw [Bool.not_eq_true, List.any_eq_false] at hnone
    have hzero : toBe k n = List.replicate k 0 := by
      rw [List.eq_replicate_iff]
      refine ⟨length_toBe k n, fun b hb => ?_⟩
      simpa using hnone b hb
    have hread := ofBe_toBe h
    rw [hzero, ← toBe_zero, ofBe_toBe (Nat.pow_pos (by norm_num))] at hread
    exact hne hread.symm

/-- Cutting down byte by byte is checking the width. -/
lemma u512ToU256Checked_eq (v : BitVec 512) : u512ToU256Checked v = ofNatChecked v.toNat := by
  have hsplit : toBe 64 v.toNat = toBe 32 (v.toNat / 256 ^ 32) ++ toBe 32 v.toNat := toBe_add 32 32 _
  have hhigh : v.toNat / 256 ^ 32 < 256 ^ 32 := by
    have := v.isLt
    omega
  have hraw : asLeSlice v = (toBe 32 v.toNat).reverse ++ (toBe 32 (v.toNat / 256 ^ 32)).reverse := by
    rw [asLeSlice, hsplit, List.reverse_append]
  have hdrop : (asLeSlice v).drop 32 = (toBe 32 (v.toNat / 256 ^ 32)).reverse := by
    rw [hraw, List.drop_left' (by rw [List.length_reverse, length_toBe])]
  have htake : (asLeSlice v).take 32 = (toBe 32 v.toNat).reverse := by
    rw [hraw, List.take_left' (by rw [List.length_reverse, length_toBe])]
  have hany : ((asLeSlice v).drop 32).any (fun b => b ≠ 0) = true ↔ 2 ^ 256 ≤ v.toNat := by
    rw [hdrop, List.any_reverse, any_toBe 32 _ hhigh]
    omega
  rw [u512ToU256Checked]
  by_cases hwide : 2 ^ 256 ≤ v.toNat
  · rw [if_pos (hany.mpr hwide), eq_comm, ofNatChecked_eq_none]
    exact hwide
  · rw [if_neg fun h => hwide (hany.mp h), eq_comm, ofNatChecked_eq_some, htake, fromLeBytes, List.reverse_reverse,
      ofBe_toBe (by omega), BitVec.toNat_ofNat, Nat.mod_eq_of_lt (by omega)]

/-- Twice the width holds every product. -/
lemma toNat_mul_setWidth {w : ℕ} (x y : BitVec w) :
    (x.setWidth (w + w) * y.setWidth (w + w)).toNat = x.toNat * y.toNat := by
  have hx : (x.setWidth (w + w)).toNat = x.toNat := BitVec.toNat_setWidth_of_le (Nat.le_add_left w w)
  have hy : (y.setWidth (w + w)).toNat = y.toNat := BitVec.toNat_setWidth_of_le (Nat.le_add_left w w)
  have hlt : x.toNat * y.toNat < 2 ^ (w + w) := by
    rw [pow_add]
    exact Nat.mul_lt_mul'' x.isLt y.isLt
  rw [BitVec.toNat_mul, hx, hy, Nat.mod_eq_of_lt hlt]

lemma toNat_wideProduct : (wideProduct a b).toNat = a.toNat * b.toNat := toNat_mul_setWidth a b

lemma toNat_wide : (d.setWidth 512).toNat = d.toNat := BitVec.toNat_setWidth_of_le (by norm_num)

lemma mulDivFloorWide_eq_ofNatChecked :
    mulDivFloorWide a b d = ofNatChecked (a.toNat * b.toNat / d.toNat) := by
  rw [mulDivFloorWide, u512ToU256Checked_eq, BitVec.toNat_udiv, toNat_wideProduct, toNat_wide]

/-- The function is the source's: the product of 256 bits, else the one of 512. -/
lemma mulDivFloor_paths : mulDivFloor a b d =
    if d = 0 then none
    else
      match checkedMul a b with
      | some product => some (product / d)
      | none => mulDivFloorWide a b d := by
  cases hproduct : checkedMul a b with
  | none => simp only [mulDivFloor, hproduct, mulDivFloorWide_eq_ofNatChecked]
  | some product => simp only [mulDivFloor, hproduct]

lemma mulDivCeilWide_eq_bind : mulDivCeilWide a b d =
    (ofNatChecked (a.toNat * b.toNat / d.toNat)).bind fun result =>
      if 0 < a.toNat * b.toNat % d.toNat then checkedAdd result 1 else some result := by
  have hrem : wideProduct a b % d.setWidth 512 > 0 ↔ 0 < a.toNat * b.toNat % d.toNat := by
    have hzero : (0 : BitVec 512).toNat = 0 := BitVec.toNat_zero
    rw [gt_iff_lt, BitVec.lt_def, BitVec.toNat_umod, toNat_wideProduct, toNat_wide, hzero]
  rw [mulDivCeilWide]
  simp only [u512ToU256Checked_eq, BitVec.toNat_udiv, toNat_wideProduct, toNat_wide, hrem,
    Option.bind_eq_bind]

lemma mulDivCeil_paths : mulDivCeil a b d =
    if d = 0 then none
    else
      match checkedMul a b with
      | some product =>
          let q := product / d
          if product % d ≠ 0 then checkedAdd q 1 else some q
      | none => mulDivCeilWide a b d := by
  rw [mulDivCeil, mulDivCeilWide_eq_bind]
  cases checkedMul a b with
  | none => rfl
  | some product => rfl

end Wide

/-! ## The exact values -/

/-- A value over the unbounded integers, if there is one and it fits 256 bits. -/
def exactWord (denominator value : ℕ) : Option U256 :=
  if 0 < denominator ∧ value < 2 ^ 256 then some (BitVec.ofNat 256 value) else none

section Exact

variable {a b d : U256} {value : ℕ}

/-- A partial operation whose answers are a value is exact if it answers whenever the value fits. -/
lemma eq_exactWord {r : Option U256} (hsome : ∀ c, r = some c ↔ d ≠ 0 ∧ c.toNat = value) :
    r = exactWord d.toNat value := by
  have hd : 0 < d.toNat ↔ d ≠ 0 := by rw [Nat.pos_iff_ne_zero, ne_eq, ne_eq, eq_zero_iff]
  rw [exactWord]
  split_ifs with h
  · rw [hsome, BitVec.toNat_ofNat, Nat.mod_eq_of_lt h.2]
    exact ⟨hd.mp h.1, rfl⟩
  · cases hr : r with
    | none => rfl
    | some c =>
        rcases (hsome c).mp hr with ⟨hne, hc⟩
        have := toNat_lt c
        exact absurd ⟨hd.mpr hne, by omega⟩ h

lemma floor_div (n m : ℕ) : ⌊(n / m : ℚ)⌋₊ = n / m := Nat.floor_div_eq_div n m

lemma ceil_div {n m : ℕ} (hm : 0 < m) : ⌈(n / m : ℚ)⌉₊ = n ⌈/⌉ m := by
  refine eq_of_forall_ge_iff fun k => ?_
  have hpos : (0 : ℚ) < m := by exact_mod_cast hm
  rw [Nat.ceil_le, ceilDiv_le_iff_le_mul hm, div_le_iff₀ hpos, mul_comm]
  exact_mod_cast Iff.rfl

lemma mulDivFloorWide_eq (hd : d ≠ 0) : mulDivFloorWide a b d = mulDivFloor a b d := by
  rw [mulDivFloor_paths, if_neg hd]
  cases hproduct : checkedMul a b with
  | none => rfl
  | some product =>
      dsimp only
      rw [mulDivFloorWide_eq_ofNatChecked, ofNatChecked_eq_some, BitVec.toNat_udiv,
        checkedMul_eq_some.mp hproduct]

lemma mulDivCeilWide_eq (hd : d ≠ 0) : mulDivCeilWide a b d = mulDivCeil a b d := by
  rw [mulDivCeil_paths, if_neg hd]
  cases hproduct : checkedMul a b with
  | none => rfl
  | some product =>
      have hp := checkedMul_eq_some.mp hproduct
      have hquotient : ofNatChecked (a.toNat * b.toNat / d.toNat) = some (product / d) := by
        rw [ofNatChecked_eq_some, BitVec.toNat_udiv, hp]
      have hrem : 0 < a.toNat * b.toNat % d.toNat ↔ product % d ≠ 0 := by
        rw [ne_eq, eq_zero_iff, BitVec.toNat_umod, hp, Nat.pos_iff_ne_zero]
      rw [mulDivCeilWide_eq_bind, hquotient, Option.bind_some]
      simp only [hrem]

/-- Floor and ceiling are exact, on either path; the strict forms fail on a zero quotient of nonzero factors and
agree with them otherwise. -/
theorem mulDiv_family_exact (a b d : U256) :
    mulDivFloor a b d = exactWord d.toNat ⌊(a.toNat * b.toNat / d.toNat : ℚ)⌋₊ ∧
      mulDivCeil a b d = exactWord d.toNat ⌈(a.toNat * b.toNat / d.toNat : ℚ)⌉₊ ∧
      (mulDivFloor a b d = if d = 0 then none else mulDivFloorWide a b d) ∧
      (mulDivCeil a b d = if d = 0 then none else mulDivCeilWide a b d) ∧
      (mulDiv a b d =
        if mulDivFloor a b d = some 0 ∧ a ≠ 0 ∧ b ≠ 0 then none else mulDivFloor a b d) ∧
      mulDivRoundingUp a b d =
        if mulDivCeil a b d = some 0 ∧ a ≠ 0 ∧ b ≠ 0 then none else mulDivCeil a b d := by
  have hcast : (a.toNat * b.toNat / d.toNat : ℚ) = ((a.toNat * b.toNat : ℕ) : ℚ) / d.toNat := by
    rw [Nat.cast_mul]
  rw [hcast]
  refine ⟨?_, ?_, ?_, ?_, ?_, ?_⟩
  · rw [floor_div]
    exact eq_exactWord fun c => mulDivFloor_eq_some
  · refine eq_exactWord fun c => ?_
    rw [mulDivCeil_eq_some]
    refine and_congr_right fun hd => ?_
    rw [ceil_div (Nat.pos_of_ne_zero fun h => hd (eq_zero_iff.mpr h))]
  · split_ifs with hd
    · rw [mulDivFloor, if_pos hd]
    · exact (mulDivFloorWide_eq hd).symm
  · split_ifs with hd
    · rw [mulDivCeil, if_pos hd]
    · exact (mulDivCeilWide_eq hd).symm
  · rw [mulDiv]
    cases mulDivFloor a b d with
    | none => simp
    | some result => simp
  · rw [mulDivRoundingUp]
    cases mulDivCeil a b d with
    | none => simp
    | some result => simp

end Exact

end PolygonArb

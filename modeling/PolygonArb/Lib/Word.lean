import Mathlib

/-!
# 256-bit words with checked and saturating arithmetic

The operations a fixed-width unsigned integer library offers beside the wrapping operators:
`checked_*` returns nothing when the exact result does not fit, `saturating_*` clamps it to the
nearest representable word.  A word is a `BitVec 256`, so `+`, `-` and `*` are the wrapping
operators and `/` is unsigned division.

Every operation comes with one lemma that says what it computes over the unbounded naturals.
Proofs above this file go through these lemmas and never unfold an operation.
-/

namespace Word

/-- A 256-bit unsigned word. -/
abbrev U256 := BitVec 256

/-- The largest word. -/
def maxValue : U256 := BitVec.allOnes 256

@[simp] lemma toNat_maxValue : maxValue.toNat = 2 ^ 256 - 1 := by simp [maxValue]

lemma toNat_lt (a : U256) : a.toNat < 2 ^ 256 := a.isLt

/-- A sum that does not wrap. -/
lemma toNat_add_of_lt {a b : U256} (h : a.toNat + b.toNat < 2 ^ 256) :
    (a + b).toNat = a.toNat + b.toNat := by
  rw [BitVec.toNat_add]
  exact Nat.mod_eq_of_lt h

/-- A product that does not wrap. -/
lemma toNat_mul_of_lt {a b : U256} (h : a.toNat * b.toNat < 2 ^ 256) :
    (a * b).toNat = a.toNat * b.toNat := by
  rw [BitVec.toNat_mul]
  exact Nat.mod_eq_of_lt h

/-- A wrapped product is below the product. -/
lemma toNat_mul_le (a b : U256) : (a * b).toNat ≤ a.toNat * b.toNat := by
  rw [BitVec.toNat_mul]
  exact Nat.mod_le _ _

/-- A word from its four 64-bit limbs, least significant first. -/
def fromLimbs (l0 l1 l2 l3 : ℕ) : U256 :=
  BitVec.ofNat 256 (l0 + l1 * 2 ^ 64 + l2 * 2 ^ 128 + l3 * 2 ^ 192)

/-- The modulus of 512-bit intermediates. -/
def modulus512 : ℕ := 2 ^ 512

/-- A natural wrapped into 512 bits. -/
def wrap512 (n : ℕ) : ℕ := n % modulus512

/-- Keep the low 256 bits of a 512-bit intermediate. -/
def truncate256 (n : ℕ) : U256 := BitVec.ofNat 256 n

/-- The distance of two words. -/
def absDiff (a b : U256) : U256 := if b < a then a - b else b - a

/-- Narrow an unbounded natural (a 512-bit intermediate) to a word, failing when it does not fit. -/
def ofNatChecked (n : ℕ) : Option U256 :=
  if n < 2 ^ 256 then some (BitVec.ofNat 256 n) else none

lemma ofNatChecked_eq_some {n : ℕ} {c : U256} : ofNatChecked n = some c ↔ c.toNat = n := by
  unfold ofNatChecked
  split_ifs with h
  · constructor
    · rintro hc
      obtain rfl := Option.some.inj hc
      rw [BitVec.toNat_ofNat, Nat.mod_eq_of_lt h]
    · rintro rfl
      simp
  · constructor
    · simp
    · rintro rfl
      exact absurd (toNat_lt c) h

lemma ofNatChecked_eq_none {n : ℕ} : ofNatChecked n = none ↔ 2 ^ 256 ≤ n := by
  unfold ofNatChecked
  split_ifs with h
  · simp; omega
  · simp; omega

/-- Every natural below the modulus is the value of a word. -/
lemma exists_toNat_eq {n : ℕ} (h : n < 2 ^ 256) : ∃ c : U256, c.toNat = n :=
  ⟨BitVec.ofNat 256 n, by rw [BitVec.toNat_ofNat, Nat.mod_eq_of_lt h]⟩

def checkedAdd (a b : U256) : Option U256 := ofNatChecked (a.toNat + b.toNat)

def checkedMul (a b : U256) : Option U256 := ofNatChecked (a.toNat * b.toNat)

def checkedSub (a b : U256) : Option U256 :=
  if b.toNat ≤ a.toNat then some (a - b) else none

def checkedDiv (a b : U256) : Option U256 :=
  if b = 0 then none else some (a / b)

/-- `checked_shl`: the shifted value, or nothing when a set bit is shifted out. -/
def checkedShl (a : U256) (k : ℕ) : Option U256 := ofNatChecked (a.toNat * 2 ^ k)

def saturatingAdd (a b : U256) : U256 := (checkedAdd a b).getD maxValue

def saturatingMul (a b : U256) : U256 := (checkedMul a b).getD maxValue

def saturatingSub (a b : U256) : U256 := (checkedSub a b).getD 0

lemma checkedAdd_eq_some {a b c : U256} :
    checkedAdd a b = some c ↔ c.toNat = a.toNat + b.toNat := ofNatChecked_eq_some

lemma checkedAdd_eq_none {a b : U256} :
    checkedAdd a b = none ↔ 2 ^ 256 ≤ a.toNat + b.toNat := ofNatChecked_eq_none

lemma checkedMul_eq_some {a b c : U256} :
    checkedMul a b = some c ↔ c.toNat = a.toNat * b.toNat := ofNatChecked_eq_some

lemma checkedMul_eq_none {a b : U256} :
    checkedMul a b = none ↔ 2 ^ 256 ≤ a.toNat * b.toNat := ofNatChecked_eq_none

lemma checkedShl_eq_some {a c : U256} {k : ℕ} :
    checkedShl a k = some c ↔ c.toNat = a.toNat * 2 ^ k := ofNatChecked_eq_some

lemma toNat_sub_of_le {a b : U256} (h : b.toNat ≤ a.toNat) : (a - b).toNat = a.toNat - b.toNat :=
  BitVec.toNat_sub_of_le (BitVec.le_def.mpr h)

lemma checkedSub_eq_some {a b c : U256} :
    checkedSub a b = some c ↔ c.toNat + b.toNat = a.toNat := by
  unfold checkedSub
  split_ifs with h
  · rw [Option.some.injEq, ← BitVec.toNat_inj, toNat_sub_of_le h]
    omega
  · constructor
    · simp
    · intro hc; omega

lemma checkedSub_eq_none {a b : U256} : checkedSub a b = none ↔ a.toNat < b.toNat := by
  unfold checkedSub
  split_ifs with h
  · simp; omega
  · simp; omega

lemma checkedDiv_eq_some {a b c : U256} :
    checkedDiv a b = some c ↔ b ≠ 0 ∧ c = a / b := by
  unfold checkedDiv
  split_ifs with h
  · simp [h]
  · rw [Option.some.injEq]
    exact ⟨fun hc => ⟨h, hc.symm⟩, fun hc => hc.2.symm⟩

@[simp] lemma toNat_saturatingAdd (a b : U256) :
    (saturatingAdd a b).toNat = min (a.toNat + b.toNat) (2 ^ 256 - 1) := by
  unfold saturatingAdd
  cases h : checkedAdd a b with
  | none =>
      have := checkedAdd_eq_none.mp h
      simp only [Option.getD_none, toNat_maxValue]
      omega
  | some c =>
      have hc := checkedAdd_eq_some.mp h
      have := toNat_lt c
      simp only [Option.getD_some]
      omega

@[simp] lemma toNat_saturatingMul (a b : U256) :
    (saturatingMul a b).toNat = min (a.toNat * b.toNat) (2 ^ 256 - 1) := by
  unfold saturatingMul
  cases h : checkedMul a b with
  | none =>
      have := checkedMul_eq_none.mp h
      simp only [Option.getD_none, toNat_maxValue]
      omega
  | some c =>
      have hc := checkedMul_eq_some.mp h
      have := toNat_lt c
      simp only [Option.getD_some]
      omega

@[simp] lemma toNat_saturatingSub (a b : U256) :
    (saturatingSub a b).toNat = a.toNat - b.toNat := by
  unfold saturatingSub
  cases h : checkedSub a b with
  | none =>
      have := checkedSub_eq_none.mp h
      simp only [Option.getD_none, BitVec.ofNat_eq_ofNat, BitVec.toNat_ofNat]
      omega
  | some c =>
      have hc := checkedSub_eq_some.mp h
      simp only [Option.getD_some]
      omega

/-- A narrower word keeps its value when it is widened. -/
lemma toNat_widen {w : ℕ} (h : w ≤ 256) (x : BitVec w) : (x.setWidth 256).toNat = x.toNat := by
  rw [BitVec.toNat_setWidth]
  exact Nat.mod_eq_of_lt (lt_of_lt_of_le x.isLt (Nat.pow_le_pow_right (by norm_num) h))

/-- A signed integer wrapped into 32 bits. -/
def wrapI32 (x : ℤ) : ℤ := Int.bmod x (2 ^ 32)

/-- A signed integer wrapped into 128 bits. -/
def wrapI128 (x : ℤ) : ℤ := Int.bmod x (2 ^ 128)

/-- A signed integer clamped into 32 bits. -/
def saturateI32 (x : ℤ) : ℤ := max (-2 ^ 31) (min x (2 ^ 31 - 1))

lemma wrapI32_of_mem {x : ℤ} (h : -2 ^ 31 ≤ x) (h' : x < 2 ^ 31) : wrapI32 x = x := by
  apply Int.bmod_eq_of_le <;> omega

lemma wrapI128_lt (x : ℤ) : wrapI128 x < 2 ^ 127 := by
  have h := Int.bmod_lt (x := x) (m := 2 ^ 128) (by norm_num)
  exact lt_of_lt_of_eq h (by norm_num)

instance : Max U256 := ⟨fun a b => if a ≤ b then b else a⟩

instance : Min U256 := ⟨fun a b => if a ≤ b then a else b⟩

lemma eq_zero_iff {a : U256} : a = 0 ↔ a.toNat = 0 := by
  rw [← BitVec.toNat_inj]; simp

lemma le_iff {a b : U256} : a ≤ b ↔ a.toNat ≤ b.toNat := BitVec.le_def

lemma lt_iff {a b : U256} : a < b ↔ a.toNat < b.toNat := BitVec.lt_def

@[simp] lemma toNat_max (a b : U256) : (max a b).toNat = max a.toNat b.toNat := by
  change (if a ≤ b then b else a).toNat = _
  split_ifs with h <;> rw [le_iff] at h <;> omega

@[simp] lemma toNat_min (a b : U256) : (min a b).toNat = min a.toNat b.toNat := by
  change (if a ≤ b then a else b).toNat = _
  split_ifs with h <;> rw [le_iff] at h <;> omega

end Word

import Mathlib.Algebra.Order.Ring.Nat
import Mathlib.Data.List.Basic
import Mathlib.Tactic.Common
import Mathlib.Tactic.Ring

/-!
# Byte formats read from the front

A format is written by concatenating byte strings and read by a `Reader`, which takes a prefix off
its input.  `Reads r bs a` says that `r` recovers `a` from `bs` whatever comes after it; readers
compose the way the bytes are concatenated (`Reads.bind`, `Reads.many`), so a format is decodable
when each of its fields is.
-/

namespace ByteFormat

abbrev Byte := BitVec 8

/-- The `k` low bytes of `n`, most significant first. -/
def toBe : ℕ → ℕ → List Byte
  | 0, _ => []
  | k + 1, n => BitVec.ofNat 8 (n / 256 ^ k) :: toBe k n

/-- The number with these bytes, most significant first. -/
def ofBe (bs : List Byte) : ℕ := bs.foldl (fun n b => n * 256 + b.toNat) 0

@[simp] lemma length_toBe (k n : ℕ) : (toBe k n).length = k := by
  induction k with
  | zero => rfl
  | succ k ih => rw [toBe, List.length_cons, ih]

lemma foldl_toBe (k n acc : ℕ) :
    (toBe k n).foldl (fun n b => n * 256 + b.toNat) acc = acc * 256 ^ k + n % 256 ^ k := by
  induction k generalizing acc with
  | zero => simp [toBe, Nat.mod_one]
  | succ k ih =>
      have hsplit : n % 256 ^ (k + 1) = n % 256 ^ k + 256 ^ k * (n / 256 ^ k % 2 ^ 8) := by
        rw [pow_succ]
        exact Nat.mod_mul
      rw [toBe, List.foldl_cons, ih, BitVec.toNat_ofNat, hsplit]
      ring

/-- Writing a number on enough bytes loses nothing. -/
lemma ofBe_toBe {k n : ℕ} (h : n < 256 ^ k) : ofBe (toBe k n) = n := by
  rw [ofBe, foldl_toBe, Nat.mod_eq_of_lt h]
  simp

lemma toBe_add (k m n : ℕ) : toBe (k + m) n = toBe k (n / 256 ^ m) ++ toBe m n := by
  induction k with
  | zero => simp [toBe]
  | succ k ih =>
      have hpow : n / 256 ^ (k + m) = n / 256 ^ m / 256 ^ k := by
        rw [Nat.div_div_eq_div_mul, ← pow_add, Nat.add_comm m k]
      rw [Nat.add_right_comm, toBe, ih, hpow]
      rfl

/-- Only the low bytes count. -/
lemma toBe_mod (k n : ℕ) : toBe k (n % 256 ^ k) = toBe k n := by
  have hdigit : ∀ j < k, BitVec.ofNat 8 (n % 256 ^ k / 256 ^ j) = BitVec.ofNat 8 (n / 256 ^ j) := by
    intro j hj
    obtain ⟨d, rfl⟩ := Nat.exists_eq_add_of_lt hj
    refine BitVec.eq_of_toNat_eq ?_
    rw [BitVec.toNat_ofNat, BitVec.toNat_ofNat, Nat.add_assoc, pow_add, Nat.mod_mul_right_div_self,
      pow_succ']
    exact Nat.mod_mod_of_dvd _ (Dvd.intro _ rfl)
  have hrun : ∀ j ≤ k, toBe j (n % 256 ^ k) = toBe j n := by
    intro j
    induction j with
    | zero => exact fun _ => rfl
    | succ j ih =>
        intro hj
        rw [toBe, toBe, ih (by omega), hdigit j (by omega)]
  exact hrun k le_rfl

lemma toBe_zero (k : ℕ) : toBe k 0 = List.replicate k 0 := by
  induction k with
  | zero => rfl
  | succ k ih =>
      rw [toBe, ih, Nat.zero_div, List.replicate_succ]
      rfl

/-- All ones. -/
lemma toBe_ones (k : ℕ) : toBe k (256 ^ k - 1) = List.replicate k 0xff := by
  induction k with
  | zero => rfl
  | succ k ih =>
      have hpos : 0 < 256 ^ k := Nat.pow_pos (by omega)
      have hdiv : (256 ^ (k + 1) - 1) / 256 ^ k = 255 := by
        rw [pow_succ]
        refine Nat.div_eq_of_lt_le ?_ ?_ <;> omega
      have hmod : (256 ^ (k + 1) - 1) % 256 ^ k = 256 ^ k - 1 := by
        have := Nat.div_add_mod (256 ^ (k + 1) - 1) (256 ^ k)
        rw [hdiv, pow_succ] at this
        rw [pow_succ]
        omega
      rw [toBe, hdiv, ← toBe_mod, hmod, ih, List.replicate_succ]
      rfl

/-- Takes a value off the front of the input, and leaves the rest. -/
abbrev Reader (α : Type) := StateT (List Byte) Option α

/-- The next `k` bytes. -/
def takeBytes (k : ℕ) : Reader (List Byte) := fun bs =>
  if k ≤ bs.length then some (bs.take k, bs.drop k) else none

/-- The next `k` bytes as a number. -/
def takeNat (k : ℕ) : Reader ℕ := do
  let bs ← takeBytes k
  pure (ofBe bs)

/-- `n` values, one after the other. -/
def takeMany {α : Type} (r : Reader α) : ℕ → Reader (List α)
  | 0 => pure []
  | n + 1 => do
      let a ← r
      let as ← takeMany r n
      pure (a :: as)

/-- The input is used up. -/
def finish : Reader Unit := fun bs => if bs = [] then some ((), []) else none

/-- `r` recovers `a` from `bs`, whatever follows. -/
def Reads {α : Type} (r : Reader α) (bs : List Byte) (a : α) : Prop :=
  ∀ rest, r.run (bs ++ rest) = some (a, rest)

section Reads

variable {α β : Type} {r : Reader α} {f : α → Reader β} {bs cs : List Byte} {a : α} {b : β}

lemma Reads.pure (a : α) : Reads (Pure.pure a : Reader α) [] a := by
  intro rest
  rfl

lemma Reads.bind (hr : Reads r bs a) (hf : Reads (f a) cs b) :
    Reads (r >>= f) (bs ++ cs) b := by
  intro rest
  have h1 : r.run (bs ++ (cs ++ rest)) = some (a, cs ++ rest) := hr (cs ++ rest)
  have h2 : (f a).run (cs ++ rest) = some (b, rest) := hf rest
  rw [List.append_assoc, StateT.run_bind, h1]
  exact h2

/-- The last field of a record, followed by nothing. -/
lemma Reads.map (hr : Reads r bs a) (g : α → β) :
    Reads (r >>= fun x => Pure.pure (g x)) bs (g a) := by
  have h := hr.bind (f := fun x => Pure.pure (g x)) (Reads.pure (g a))
  rwa [List.append_nil] at h

lemma reads_takeBytes (bs : List Byte) : Reads (takeBytes bs.length) bs bs := by
  intro rest
  show (if bs.length ≤ (bs ++ rest).length then
    some ((bs ++ rest).take bs.length, (bs ++ rest).drop bs.length) else none) = _
  simp

lemma reads_takeNat {k n : ℕ} (h : n < 256 ^ k) : Reads (takeNat k) (toBe k n) n := by
  have hbytes : Reads (takeBytes k) (toBe k n) (toBe k n) := by
    simpa using reads_takeBytes (toBe k n)
  have hread := hbytes.map ofBe
  rwa [ofBe_toBe h] at hread

/-- A list of values, each written by `enc`. -/
lemma Reads.many {enc : α → List Byte} {as : List α} (h : ∀ a ∈ as, Reads r (enc a) a) :
    Reads (takeMany r as.length) (as.flatMap enc) as := by
  induction as with
  | nil => exact Reads.pure []
  | cons a as ih =>
      have htail : Reads (takeMany r as.length) (as.flatMap enc) as :=
        ih fun x hx => h x (List.mem_cons_of_mem a hx)
      exact (h a List.mem_cons_self).bind (htail.map fun xs => a :: xs)

/-- A reader that must use up its input recovers the value from exactly its bytes. -/
lemma Reads.run_finish (hr : Reads r bs a) :
    (r >>= fun x => finish >>= fun _ => Pure.pure x : Reader α).run bs = some (a, []) := by
  have h1 : r.run bs = some (a, []) := by simpa using hr []
  rw [StateT.run_bind, h1]
  rfl

end Reads

end ByteFormat
